import UnityLocalization.HookEngine.Interception

/-!
# Pointers to the original functions

Hooking a function sets the pointer that was given with it.  A call through the pointer
does what the original function does at its own place.
-/

namespace UnityLocalization
namespace HookEngine

open CMemory WordMemory Transition Arm

/-- Two items do not share a pointer. -/
def PointersApart (first second : InlineHookItem) : Prop :=
  ∀ here, first.Proto here -> ¬second.Proto here

theorem PointersApart.symm {first second : InlineHookItem} (apart : PointersApart first second) :
    PointersApart second first := fun here inSecond inFirst => apart here inFirst inSecond

/-- The pointer of a hooked function holds the entry of its trampoline. -/
def Linked (memory : Memory) (item : InlineHookItem) : Prop :=
  item.status = HOOKED -> item.protoAddr ≠ 0 ->
    wordAt memory item.protoAddr = trampolineEntry item

/-- The code is intact, and all pointers of hooked functions lead to their trampolines. -/
structure PointersIntact (data : Word -> Prop) (initial : Memory) (process : Process) :
    Prop where
  code : CodeIntact data initial process
  apart : process.info.Pairwise PointersApart
  linked : process.info.All (Linked process.memory)

/-- The pointer of a new function is none of the others. -/
def OwnPointer (process : Process) : Call -> Prop
  | .register _ targetAddr newAddr protoAddr =>
      process.info.All fun item => PointersApart item (requested targetAddr newAddr protoAddr 0)
  | _ => True

section

variable {data : Word -> Prop} {initial vacated before after : Memory} {item : InlineHookItem}
  {process : Process} {position : Nat}

theorem Linked.congr
    (linked : Linked before item)
    (same : ∀ here, item.Proto here -> after here = before here) : Linked after item := by
  intro hooked pointer
  rw [← linked hooked pointer]
  exact wordAt_congr fun here inside => same here ⟨pointer, inside⟩

/-- Hooking a function sets its pointer. -/
theorem linked_doInlineHook
    (placed : Placed data (process.info.slot position)) :
    Linked (HookEngine.doInlineHook process position).memory
      { process.info.slot position with status := HOOKED } := by
  intro _ pointer
  have set := wordAt_storeBytes process.memory (process.info.slot position).protoAddr
    (trampolineEntry (process.info.slot position))
  refine (wordAt_congr fun here inside => ?_).trans set
  have notCovers : ¬(process.info.slot position).Covers here := fun covers =>
    placed.covers here covers (placed.proto here ⟨pointer, inside⟩)
  have stored := @storeBytes_outside
    (storeBytes process.memory (process.info.slot position).protoAddr
      (wordBytes (trampolineEntry (process.info.slot position))))
    (clearBit0 (process.info.slot position).targetAddr) here
    (patchBytes (process.info.slot position))
    fun inPatch => notCovers (inPatch.weaken placed.length_patchBytes_le)
  rw [HookEngine.doInlineHook]
  simp only [if_pos pointer]
  exact stored

theorem PointersIntact.doInlineHook
    (pointers : PointersIntact data initial process) (inside : position < process.info.size)
    (registered : (process.info.slot position).status = REGISTERED) :
    PointersIntact data initial (HookEngine.doInlineHook process position) := by
  have placed := pointers.code.placed position inside
  refine ⟨pointers.code.doInlineHook inside registered, ?_, ?_⟩
  · refine pointers.apart.update (fun _ _ => PointersApart.symm) fun other there different => ?_
    exact pointers.apart other there position inside different
  · intro other there
    rw [doInlineHook_info, SlotTable.update_size] at there
    rw [doInlineHook_info]
    by_cases same : other = position
    · rw [same, SlotTable.update_slot]
      exact linked_doInlineHook placed
    · rw [SlotTable.update_slot_of_ne same]
      refine (pointers.linked other there).congr fun here proto => ?_
      have apart := pointers.apart other there position inside same
      have otherPlaced := pointers.code.placed other there
      exact doInlineHook_memory_outside placed (apart here proto) fun covers =>
        placed.covers here covers (otherPlaced.proto here proto)

theorem PointersIntact.doInlineUnHook
    (pointers : PointersIntact data initial process) (inside : position < process.info.size) :
    PointersIntact data initial (HookEngine.doInlineUnHook process position) := by
  have placed := pointers.code.placed position inside
  refine ⟨pointers.code.doInlineUnHook inside, pointers.apart.remove, ?_⟩
  intro now still
  rw [doInlineUnHook_info, SlotTable.remove_size] at still
  rw [doInlineUnHook_info, SlotTable.remove_slot_eq]
  have there : process.info.origin position now < process.info.size := SlotTable.origin_lt still
  have separate := pointers.code.separate _ there position inside (SlotTable.origin_ne still)
  refine (pointers.linked _ there).congr fun here proto => ?_
  rw [doInlineUnHook_memory (pointers.code.intact position inside) (separate.proto here proto),
    if_neg]
  exact fun covers => placed.covers here covers ((pointers.code.placed _ there).proto here proto)

theorem PointersIntact.turn
    {event : Call} {next : Process} (pointers : PointersIntact data initial process)
    (turn : Turn event process next) : PointersIntact data initial next := by
  cases turn with
  | threads info memory =>
      refine ⟨pointers.code.of_same info memory, ?_, ?_⟩
      · rw [info]
        exact pointers.apart
      · rw [info, memory]
        exact pointers.linked
  | hook inside registered => exact pointers.doInlineHook inside registered
  | unHook unHooks inside hooked => exact pointers.doInlineUnHook inside

theorem PointersIntact.register
    {answers : Answers} {target newAddr protoAddr page : Word} {next : Process}
    {moved : List Byte} {boundaries : Boundaries}
    (pointers : PointersIntact data initial process)
    (new : Registers answers target newAddr protoAddr process next page moved boundaries)
    (admissible : Admissible data process (.register answers target newAddr protoAddr))
    (own : OwnPointer process (.register answers target newAddr protoAddr)) :
    PointersIntact data initial next := by
  obtain ⟨-, separate⟩ := admissible page new.mapped new.unknown
  have code := pointers.code.register new admissible
  have short : moved.length ≤ PAGE_SIZE := by
    refine length_relocateInstruction_le ?_ new.relocated
    rw [length_loadBytes]
    split <;> decide
  refine ⟨code, ?_, ?_⟩
  · rw [new.next]
    exact SlotTable.pairwise_push (fun _ _ => PointersApart.symm) pointers.apart own
  · rw [new.next]
    refine SlotTable.all_push.mpr ⟨fun other there => ?_, fun hooked => ?_⟩
    · refine (pointers.linked other there).congr fun here proto =>
        storeBytes_outside fun inPage => ?_
      exact (separate other there).proto here proto (inPage.weaken short)
    · exact absurd hooked (by decide : REGISTERED ≠ HOOKED)

end

end HookEngine
end UnityLocalization
