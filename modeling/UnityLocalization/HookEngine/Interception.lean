import UnityLocalization.HookEngine.CodeMemory

/-!
# Calls of hooked functions

In every process that admissible calls of the engine reach, a call of a hooked function
arrives at the new function, and the trampoline stands for the original one.
-/

namespace UnityLocalization
namespace HookEngine

open CMemory WordMemory Arm

section

variable {data : Word -> Prop} {initial : Memory} {process : Process} {position : Nat}
  {others : Others} {core : Core}

theorem Intact.holdsBytes_patch
    {item : InlineHookItem} (intact : Intact initial process.memory item)
    (placed : Placed data item) (hooked : item.status = HOOKED)
    (same : ∀ here, item.Covers here -> core.memory here = process.memory here) :
    HoldsBytes core.memory (clearBit0 item.targetAddr) (patchBytes item) := by
  have short := placed.length_patchBytes_le
  have size : (patchBytes item).length ≤ 2 ^ 32 := by
    refine Nat.le_trans (length_patchBytes item) ?_
    split <;> decide
  refine (storeBytes_holds initial (clearBit0 item.targetAddr) size).congr size ?_
  intro here inside
  have covers : item.Covers here := inside.weaken short
  rw [same here covers, intact.patched hooked here covers]

theorem CodeIntact.intercepts
    (code : CodeIntact data initial process) (inside : position < process.info.size)
    (hooked : (process.info.slot position).status = HOOKED)
    (same : ∀ here, (process.info.slot position).Covers here ->
      core.memory here = process.memory here) :
    Reaches others (enter (process.info.slot position).targetAddr core)
      (enter (process.info.slot position).newAddr core) :=
  reaches_of_patch ((code.intact position inside).holdsBytes_patch (code.placed position inside)
    hooked same)

/-- A call of a hooked function goes on at the new function, whatever calls of the engine
came before. -/
theorem hooked_function_is_intercepted
    (reachable : Reachable data initial process) (inside : position < process.info.size)
    (hooked : (process.info.slot position).status = HOOKED)
    (same : ∀ here, (process.info.slot position).Covers here ->
      core.memory here = process.memory here) :
    Reaches others (enter (process.info.slot position).targetAddr core)
      (enter (process.info.slot position).newAddr core) :=
  reachable.codeIntact.intercepts inside hooked same

theorem one_hook_is_intercepted :
    let others : Others := fun _ _ core => (core, .behind)
    ∃ process : Process, Reaches others
      (enter (process.info.slot 0).targetAddr
        ⟨fun _ => 0, ⟨false, false, false, false⟩, process.memory⟩)
      (enter (process.info.slot 0).newAddr
        ⟨fun _ => 0, ⟨false, false, false, false⟩, process.memory⟩) := by
  intro others
  obtain ⟨process, reachable, one, hooked, -⟩ := reachable_hooked
  exact ⟨process, hooked_function_is_intercepted reachable (by omega) hooked fun _ _ => rfl⟩

/-! ## The original function -/

end

end HookEngine
end UnityLocalization
