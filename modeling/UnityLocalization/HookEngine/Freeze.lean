import UnityLocalization.HookEngine.Threads
import UnityLocalization.HookEngine.Interception

/-!
# Stopped threads

The other threads are stopped while functions are hooked or unhooked.  A thread that stands
in one of the functions goes on as if nothing had been hooked, and hooking and unhooking
leave all threads where they were.  `inlineHookAll` does not ask whether a function is
hooked already.
-/

namespace UnityLocalization
namespace HookEngine

open CMemory WordMemory Transition Arm

/-- A process with one function that is registered and a thread in it. -/
theorem reachable_registered : ∃ process, Reachable High (fun _ => 0) process ∧
    process.info.All Noted ∧ process.info.size = 1 ∧
      (process.info.slot 0).status = REGISTERED ∧ process.threads = [0x1004] ∧
      (process.info.slot 0).targetAddr = 0x1000 ∧
      (process.info.slot 0).trampolineInstructions = 0x9000 := by
  let events : List Call := [.register (.granting 0x9000) 0x1000 0x2000 0, .schedule [0x1004]]
  have noUnHook : ∀ event ∈ events, event.unHooks = false := by decide
  refine ⟨_, ⟨fun _ => 0, events, ?_, rfl⟩, ?_, rfl, rfl, rfl, rfl, rfl⟩
  · refine ⟨fun page found _ => ?_, fun next _ => ⟨trivial, fun _ _ => trivial⟩⟩
    cases found
    exact ⟨placed_low, fun index inside => absurd inside (Nat.not_lt_zero index)⟩
  · exact noted_of_run (freshSlots_of_no_unHook (fun _ _ => rfl) noUnHook) rfl

section

variable {data : Word -> Prop} {initial : Memory} {process : Process} {item : InlineHookItem}
  {position index : Nat} {pc place : Word}

/-- A function that is hooked and unhooked leaves all threads and all memory as they were,
except for the pointer to the trampoline and the page of the trampoline, which is given
back. -/
theorem hook_unHook_restores
    (reachable : Reachable data initial process) (inside : position < process.info.size)
    (isItem : process.info.slot position = item) (registered : item.status = REGISTERED)
    (noted : Noted item) (outside : ∀ pc ∈ process.threads, ¬item.Page pc) :
    let hooked := (inlineHook item.targetAddr process).1
    let restored := (inlineUnHook item.targetAddr hooked).1
    restored.threads = process.threads ∧
      ∀ here, ¬item.Proto here -> ¬item.Page here ->
        restored.memory here = process.memory here := by
  subst isItem
  have code := reachable.codeIntact
  let item := process.info.slot position
  let frozen := freeze process (some item) .enable
  obtain ⟨isHooked, slot, -, unHooks⟩ := inlineUnHook_inlineHook code.well inside registered
  have intact : CodeIntact data initial (doInlineHook frozen position) :=
    (code.of_same (freeze_info _ _) rfl).doInlineHook inside registered
  have notHooked : item.status ≠ HOOKED := by
    rw [show item.status = REGISTERED from registered]
    decide
  intro hooked restored
  have isRestored : restored = doInlineUnHook
      (freeze (doInlineHook frozen position) (some { item with status := HOOKED }) .disable)
      position := by
    rw [show restored = (inlineUnHook item.targetAddr hooked).1 from rfl,
      show hooked = (inlineHook item.targetAddr process).1 from rfl, isHooked]
    exact unHooks
  rw [isRestored]
  constructor
  · change (process.threads.map _).map _ = process.threads
    rw [List.map_map]
    refine (List.map_congr_left fun pc member => ?_).trans (List.map_id _)
    exact noted.returns process.info (doInlineHook frozen position).info (outside pc member)
  · intro here notProto notPage
    have placed : Placed data item := code.placed position inside
    have there : position < (doInlineHook frozen position).info.size := inside
    have before := intact.intact position there
    have slotPage : ¬((doInlineHook frozen position).info.slot position).Page here := by
      rw [slot]
      exact notPage
    have memory := @doInlineUnHook_memory initial (freeze (doInlineHook frozen position)
      (some { item with status := HOOKED }) .disable) position before here slotPage
    have slotCovers : ((doInlineHook frozen position).info.slot position).Covers here ↔
        item.Covers here := by
      rw [slot]
      rfl
    refine memory.trans ?_
    by_cases covers : item.Covers here
    · exact (if_pos (slotCovers.mpr covers)).trans (code.unpatched inside notHooked covers).symm
    · refine (if_neg fun also => covers (slotCovers.mp also)).trans ?_
      exact @doInlineHook_memory_outside data frozen position placed here notProto covers

theorem hook_unHook_of_one_function : ∃ process : Process,
    let hooked := (inlineHook 0x1000 process).1
    let restored := (inlineUnHook 0x1000 hooked).1
    restored.threads = [0x1004] ∧ restored.memory 0x1000 = process.memory 0x1000 := by
  obtain ⟨process, reachable, noted, one, registered, threads, target, page⟩ :=
    reachable_registered
  have inside : 0 < process.info.size := by omega
  have outside : ∀ pc ∈ process.threads, ¬(process.info.slot 0).Page pc := by
    intro pc member
    rw [threads, List.mem_singleton] at member
    rw [member, InlineHookItem.Page, page]
    decide
  have notProto : ¬(process.info.slot 0).Proto 0x1000 := fun proto =>
    absurd ((reachable.codeIntact.placed 0 inside).proto _ proto) (by rw [High]; decide)
  have notPage : ¬(process.info.slot 0).Page 0x1000 := fun inPage =>
    absurd ((reachable.codeIntact.placed 0 inside).page _ inPage) (by rw [High]; decide)
  obtain ⟨same, memory⟩ := hook_unHook_restores reachable inside rfl registered
    (noted 0 inside) outside
  rw [threads] at same
  rw [target] at same memory
  exact ⟨process, same, memory 0x1000 notProto notPage⟩

/-- Without an item, a thread is moved for the only one that it can be moved for. -/
theorem processThreadPC_of_only
    {info : InlineHookInfo} {action : Action} (inside : position < info.size)
    (moves : doProcessThreadPC (info.slot position) action pc = some place)
    (only : ∀ other < info.size, other ≠ position ->
      doProcessThreadPC (info.slot other) action pc = none) :
    processThreadPC info none action pc = place := by
  rw [processThreadPC]
  cases found : (List.range info.size).findSome? fun index =>
      doProcessThreadPC (info.slot index) action pc with
  | none =>
      have absent := List.findSome?_eq_none_iff.mp found position (List.mem_range.mpr inside)
      rw [moves] at absent
      cases absent
  | some found =>
      obtain ⟨other, member, here⟩ := List.exists_of_findSome?_eq_some ‹_›
      by_cases same : other = position
      · rw [same, moves] at here
        exact (Option.some.inj here).symm
      · rw [only other (List.mem_range.mp member) same] at here
        cases here

theorem processThreadPC_of_none
    {info : InlineHookInfo} {action : Action}
    (stays : info.All fun item => doProcessThreadPC item action pc = none) :
    processThreadPC info none action pc = pc := by
  have absent : (List.range info.size).findSome? (fun index =>
      doProcessThreadPC (info.slot index) action pc) = none :=
    List.findSome?_eq_none_iff.mpr fun index member => stays index (List.mem_range.mp member)
  rw [processThreadPC, absent, Option.getD_none]

theorem enable_all
    (code : CodeIntact data initial process) (noted : process.info.All Noted)
    (inside : position < process.info.size)
    (moves : doProcessThreadPC (process.info.slot position) .enable pc = some place) :
    processThreadPC process.info none .enable pc = place := by
  refine processThreadPC_of_only inside moves fun other otherInside different => ?_
  by_contra also
  have covers := (noted position inside).covers_of_enable (code.placed position inside)
    (by rw [moves]; exact Option.some_ne_none place)
  have otherCovers := (noted other otherInside).covers_of_enable
    (code.placed other otherInside) also
  exact (code.separate other otherInside position inside different).covers pc otherCovers covers

theorem disable_all
    (code : CodeIntact data initial process) (noted : process.info.All Noted)
    (inside : position < process.info.size)
    (moves : doProcessThreadPC (process.info.slot position) .disable place = some pc) :
    processThreadPC process.info none .disable place = pc := by
  refine processThreadPC_of_only inside moves fun other otherInside different => ?_
  by_contra also
  have page := (noted position inside).page_of_disable
    (by rw [moves]; exact Option.some_ne_none pc)
  have otherPage := (noted other otherInside).page_of_disable also
  exact (code.separate other otherInside position inside different).page place otherPage page

theorem inlineHookFrom_threads (remaining position : Nat) (process : Process) :
    (inlineHookFrom remaining position process).threads = process.threads := by
  induction remaining generalizing position process with
  | zero => rfl
  | succ remaining hypothesis =>
      rw [inlineHookFrom, hypothesis]
      split <;> rfl

theorem inlineUnHookFrom_threads (position : Nat) (process : Process) :
    (inlineUnHookFrom position process).threads = process.threads := by
  induction position, process using inlineUnHookFrom.induct with
  | case1 position process inside hooked hypothesis =>
      rw [inlineUnHookFrom, if_pos inside, if_pos hooked, hypothesis]
      rfl
  | case2 position process inside other hypothesis =>
      rw [inlineUnHookFrom, if_pos inside, if_neg other, hypothesis]
  | case3 position process outside => rw [inlineUnHookFrom, if_neg outside]

/-- The loop of `inlineHookAll` changes the status of items and nothing else of them. -/
theorem inlineHookFrom_slot (remaining position : Nat) (process : Process) (index : Nat) :
    (inlineHookFrom remaining position process).info.size = process.info.size ∧
      ∃ status, (inlineHookFrom remaining position process).info.slot index =
        { process.info.slot index with status := status } := by
  induction remaining generalizing position process with
  | zero => exact ⟨rfl, _, rfl⟩
  | succ remaining hypothesis =>
      rw [inlineHookFrom]
      split
      · obtain ⟨size, status, slot⟩ :=
          hypothesis (position + 1) (doInlineHook process position)
        refine ⟨size, status, slot.trans ?_⟩
        rw [doInlineHook_info]
        by_cases here : index = position
        · rw [here, SlotTable.update_slot]
        · rw [SlotTable.update_slot_of_ne here]
      · exact hypothesis (position + 1) process

/-- `inlineHookAll` takes a thread that is about to enter a hooked function past the hook. -/
theorem inlineHookAll_moves_hooked_threads
    {others : Others} {core : Core} {number : Nat}
    (reachable : Reachable data initial process) (noted : process.info.All Noted)
    (inside : position < process.info.size) (isItem : process.info.slot position = item)
    (hooked : item.status = HOOKED)
    (stands : process.threads[number]? = some (clearBit0 item.targetAddr))
    (same : ∀ here, item.Covers here -> core.memory here = process.memory here) :
    Reaches others (enter item.targetAddr core) (enter item.newAddr core) ∧
      (inlineHookAll process).threads[number]? = some item.trampolineInstructions := by
  subst isItem
  refine ⟨reachable.codeIntact.intercepts inside hooked same, ?_⟩
  have ordered := (noted position inside).ordered
  have first := (noted position inside).enable_origPlace ordered.nonempty
  rw [InlineHookItem.origPlace, InlineHookItem.trampolinePlace, ordered.origFirst,
    ordered.trampolineFirst] at first
  have zero : ∀ base : Word, base + BitVec.ofNat 32 0 = base := BitVec.add_zero
  rw [zero, zero] at first
  rw [inlineHookAll, inlineHookFrom_threads]
  change (process.threads.map _)[number]? = _
  rw [List.getElem?_map, stands, Option.map_some,
    enable_all reachable.codeIntact noted inside first]

/-- A process with one function that is hooked and a thread that is about to enter it. -/
theorem reachable_entering : ∃ process, Reachable High (fun _ => 0) process ∧
    process.info.All Noted ∧ WellFormed process.info ∧ process.info.size = 1 ∧
      (process.info.slot 0).status = HOOKED ∧ process.threads = [0x1000] ∧
      (process.info.slot 0).targetAddr = 0x1000 := by
  let events : List Call :=
    [.register (.granting 0x9000) 0x1000 0x2000 0, .hook 0x1000, .schedule [0x1000]]
  have noUnHook : ∀ event ∈ events, event.unHooks = false := by decide
  have ran : ∃ process, run step (Process.fresh (fun _ => 0) fun _ => 0) events = .ok process ∧
      process.info.size = 1 ∧ (process.info.slot 0).status = HOOKED ∧
        process.threads = [0x1000] ∧ (process.info.slot 0).targetAddr = 0x1000 :=
    ⟨_, rfl, rfl, rfl, rfl, rfl⟩
  obtain ⟨process, ran, facts⟩ := ran
  have reachable : Reachable High (fun _ => 0) process := by
    refine ⟨fun _ => 0, events, ⟨fun page found _ => ?_, fun next _ => ⟨trivial,
      fun _ _ => ⟨trivial, fun _ _ => trivial⟩⟩⟩, ran⟩
    cases found
    exact ⟨placed_low, fun index inside => absurd inside (Nat.not_lt_zero index)⟩
  exact ⟨process, reachable, noted_of_run (freshSlots_of_no_unHook (fun _ _ => rfl) noUnHook) ran,
    reachable.codeIntact.well, facts⟩

theorem entering_thread_passes_the_hook :
    let others : Others := fun _ _ core => (core, .behind)
    ∃ process : Process,
      Reaches others
        (enter (process.info.slot 0).targetAddr
          ⟨fun _ => 0, ⟨false, false, false, false⟩, process.memory⟩)
        (enter (process.info.slot 0).newAddr
          ⟨fun _ => 0, ⟨false, false, false, false⟩, process.memory⟩) ∧
      (inlineHookAll process).threads[0]? =
        some (process.info.slot 0).trampolineInstructions := by
  intro others
  obtain ⟨process, reachable, noted, -, one, hooked, threads, target⟩ := reachable_entering
  refine ⟨process, inlineHookAll_moves_hooked_threads reachable noted (by omega) rfl hooked ?_
    fun _ _ => rfl⟩
  rw [threads, target]
  rfl

/-- All functions that are hooked together and unhooked together leave the threads and the
code as they were. -/
theorem hookAll_unHookAll_restores
    (reachable : Reachable data initial process) (noted : process.info.All Noted)
    (outside : ∀ pc ∈ process.threads, process.info.All fun item => ¬item.Page pc) :
    (inlineUnHookAll (inlineHookAll process)).threads = process.threads ∧
      ∀ here, ¬data here ->
        (inlineUnHookAll (inlineHookAll process)).memory here = initial here := by
  have after : Reachable data initial (inlineHookAll process) :=
    @Reachable.call data initial process .hookAll _ _ reachable trivial rfl
  refine ⟨?_, fun here isCode => after.codeIntact.unHookAll isCode⟩
  have slots : ∀ index, ∃ status, (inlineHookAll process).info.slot index =
      { process.info.slot index with status := status } := fun index =>
    (inlineHookFrom_slot process.info.size 0 (freeze process none .enable) index).2
  have size : (inlineHookAll process).info.size = process.info.size :=
    (inlineHookFrom_slot process.info.size 0 (freeze process none .enable) 0).1
  have sameDisable : ∀ index place,
      doProcessThreadPC ((inlineHookAll process).info.slot index) .disable place =
        doProcessThreadPC (process.info.slot index) .disable place := by
    intro index place
    obtain ⟨status, slot⟩ := slots index
    rw [slot]
    rfl
  have still : (inlineHookAll process).info.All Noted := by
    intro index there
    obtain ⟨status, slot⟩ := slots index
    have before := noted index (size ▸ there)
    rw [slot]
    exact ⟨before.saved, before.relocated⟩
  rw [inlineUnHookAll, inlineUnHookFrom_threads]
  change (inlineHookAll process).threads.map _ = _
  rw [inlineHookAll, inlineHookFrom_threads]
  change (process.threads.map _).map _ = _
  rw [List.map_map]
  refine (List.map_congr_left fun pc member => ?_).trans (List.map_id _)
  change processThreadPC (inlineHookAll process).info none .disable
    (processThreadPC process.info none .enable pc) = pc
  by_cases stays : process.info.All fun item => doProcessThreadPC item .enable pc = none
  · rw [processThreadPC_of_none stays]
    apply processThreadPC_of_none
    intro index there
    rw [sameDisable]
    by_contra back
    exact outside pc member index (size ▸ there)
      ((noted index (size ▸ there)).page_of_disable back)
  · simp only [SlotTable.All, not_forall] at stays
    obtain ⟨position, inside, moves⟩ := stays
    obtain ⟨place, moves⟩ := Option.ne_none_iff_exists'.mp moves
    rw [enable_all reachable.codeIntact noted inside moves]
    refine disable_all after.codeIntact still (size ▸ inside) ?_
    rw [sameDisable]
    exact (noted position inside).enable_iff_disable.mp moves

theorem hookAll_unHookAll_of_one_function : ∃ process : Process,
    (inlineUnHookAll (inlineHookAll process)).threads = process.threads ∧
      process.threads = [0x1004] ∧
      (inlineUnHookAll (inlineHookAll process)).memory 0x1000 = 0 := by
  obtain ⟨process, reachable, noted, one, -, threads, -, page⟩ := reachable_registered
  have outside : ∀ pc ∈ process.threads, process.info.All fun item => ¬item.Page pc := by
    intro pc member index inside
    rw [threads, List.mem_singleton] at member
    rw [one, Nat.lt_one_iff] at inside
    rw [member, inside, InlineHookItem.Page, page]
    decide
  obtain ⟨same, code⟩ := hookAll_unHookAll_restores reachable noted outside
  exact ⟨process, same, threads, code 0x1000 (by rw [High]; decide)⟩

end

end HookEngine
end UnityLocalization
