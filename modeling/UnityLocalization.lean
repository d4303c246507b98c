import UnityLocalization.TextHook.Preservation
import UnityLocalization.TextHook.Matching
import UnityLocalization.TextHook.Influence
import UnityLocalization.TextHook.History
import UnityLocalization.TextHook.Coherence
import UnityLocalization.TextHook.Forwarding
import UnityLocalization.TextHook.RoundTrip
import UnityLocalization.TextHook.Malformed
import UnityLocalization.TextHook.Bounds
import UnityLocalization.Install.Once
import UnityLocalization.Install.Handle
import UnityLocalization.Install.Discovery
import UnityLocalization.Install.Loader
import UnityLocalization.Tools.Transcoding
import UnityLocalization.Tools.Advertising
import UnityLocalization.TextHook.Shape
import UnityLocalization.TextHook.SourceReads
import UnityLocalization.Tools.Grammar
import UnityLocalization.InlineHook.Delivery
import UnityLocalization.InlineHook.EmptyKeys
import UnityLocalization.Tools.ModuleListing
import UnityLocalization.Install.Branch
import UnityLocalization.Install.Buffers
import UnityLocalization.Tools.DumpText
import UnityLocalization.Tools.XorCoder
import UnityLocalization.Device.Identifier
import UnityLocalization.HookEngine.ArmTrampoline
import UnityLocalization.HookEngine.ThumbHooks
import UnityLocalization.HookEngine.ThumbExceptions
import UnityLocalization.HookEngine.Interception
import UnityLocalization.HookEngine.Pointers
import UnityLocalization.HookEngine.Freeze
import UnityLocalization.HookEngine.SlotReuse
import UnityLocalization.HookEngine.InstructionCache
