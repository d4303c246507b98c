import UnityLocalization.HookEngine.CodeMemory

/-!
# The instruction cache

Instructions come from a cache, which takes a range of the memory over when it is flushed.
It stays right while only the last item is unhooked: for another one the range of the item
that has taken its place is flushed.
-/

namespace UnityLocalization
namespace HookEngine

open CMemory WordMemory Transition

/-- The addresses of a range that is flushed. -/
def Flushes (range : Word × Word) (here : Word) : Prop :=
  InRange range.1 (range.2 - range.1).toNat here

instance (range : Word × Word) (here : Word) : Decidable (Flushes range here) :=
  inferInstanceAs (Decidable (InRange _ _ _))

/-- A process with the cache that its instructions come from. -/
structure Cached where
  process : Process
  cache : Memory

/-- The cache after the flushes of a call. -/
def refetch (cache : Memory) (process next : Process) : Memory := fun here =>
  if ∃ range ∈ next.flushed.drop process.flushed.length, Flushes range here then
    next.memory here
  else cache here

def cachedStep (state : Cached) (event : Call) : Checked Cached :=
  (step state.process event).map fun next => ⟨next, refetch state.cache state.process next⟩

/-- The cache holds the code that is in the memory. -/
def Coherent (data : Word -> Prop) (state : Cached) : Prop :=
  ∀ here, ¬data here -> state.cache here = state.process.memory here

/-- The call unhooks the function if it is hooked. -/
def Call.unHooksTarget (targetAddr : Word) : Call -> Prop
  | .unHook target => target = targetAddr
  | .unHookAll => True
  | _ => False

/-- No item but the last is unhooked. -/
def UnHooksLast (process : Process) (event : Call) : Prop :=
  ∀ position < process.info.size, (process.info.slot position).status = HOOKED ->
    event.unHooksTarget (process.info.slot position).targetAddr ->
      position + 1 = process.info.size

/-- The code that has changed has been flushed since. -/
def FlushesChanges (data : Word -> Prop) (process next : Process) : Prop :=
  ∃ ranges, next.flushed = process.flushed ++ ranges ∧
    ∀ here, ¬data here -> (∀ range ∈ ranges, ¬Flushes range here) ->
      next.memory here = process.memory here

section

variable {data : Word -> Prop} {initial vacated : Memory} {process middle next : Process}
  {item : InlineHookItem} {position : Nat} {here : Word}

theorem FlushesChanges.of_same
    (flushed : next.flushed = process.flushed)
    (memory : ∀ here, ¬data here -> next.memory here = process.memory here) :
    FlushesChanges data process next :=
  ⟨[], by rw [flushed, List.append_nil], fun here isCode _ => memory here isCode⟩

theorem FlushesChanges.trans
    (first : FlushesChanges data process middle) (second : FlushesChanges data middle next) :
    FlushesChanges data process next := by
  obtain ⟨ranges, flushed, memory⟩ := first
  obtain ⟨more, flushedMore, memoryMore⟩ := second
  refine ⟨ranges ++ more, by rw [flushedMore, flushed, List.append_assoc], ?_⟩
  intro here isCode outside
  have earlier := memory here isCode fun range member =>
    outside range (List.mem_append_left more member)
  have later := memoryMore here isCode fun range member =>
    outside range (List.mem_append_right ranges member)
  exact later.trans earlier

/-- The range of an item is where its function is patched. -/
theorem flushes_flushRange (placed : Placed data item) :
    Flushes (flushRange item) here ↔ item.Covers here := by
  have short : item.length < 2 ^ 32 := by
    rw [placed.length]
    split <;> decide
  have size : (clearBit0 item.targetAddr + BitVec.ofNat 32 item.length -
      clearBit0 item.targetAddr).toNat = item.length := by
    rw [BitVec.add_comm, BitVec.add_sub_cancel, BitVec.toNat_ofNat, Nat.mod_eq_of_lt short]
  rw [Flushes, flushRange, size]
  rfl

theorem CodeIntact.flushes_doInlineHook
    (code : CodeIntact data initial process) (inside : position < process.info.size) :
    FlushesChanges data process (HookEngine.doInlineHook process position) := by
  have placed := code.placed position inside
  refine ⟨[flushRange (process.info.slot position)], rfl, fun here isCode outside => ?_⟩
  have notCovers := outside _ List.mem_cons_self
  rw [flushes_flushRange placed] at notCovers
  exact doInlineHook_memory_outside placed (fun proto => isCode (placed.proto here proto))
    notCovers

theorem CodeIntact.flushes_doInlineUnHook
    (code : CodeIntact data initial process) (last : position + 1 = process.info.size) :
    FlushesChanges data process (HookEngine.doInlineUnHook process position) := by
  have inside : position < process.info.size := by omega
  have placed := code.placed position inside
  have final : process.info.size - 1 = position := by omega
  have still : (process.info.remove position).slot position = process.info.slot position := by
    rw [SlotTable.remove_slot, final]
  refine ⟨[flushRange (process.info.slot position)], ?_, fun here isCode outside => ?_⟩
  · rw [← still]
    rfl
  · have notCovers := outside _ List.mem_cons_self
    rw [flushes_flushRange placed] at notCovers
    rw [doInlineUnHook_memory (code.intact position inside) fun inPage =>
      isCode (placed.page here inPage), if_neg notCovers]

theorem CodeIntact.flushes_inlineHookFrom
    {remaining : Nat} (code : CodeIntact data initial process)
    (rest : position + remaining ≤ process.info.size) :
    FlushesChanges data process (HookEngine.inlineHookFrom remaining position process) := by
  induction remaining generalizing position process with
  | zero => exact FlushesChanges.of_same rfl fun _ _ => rfl
  | succ remaining hypothesis =>
      rw [HookEngine.inlineHookFrom]
      by_cases registered : (process.info.slot position).status = REGISTERED
      · rw [if_pos registered]
        have inside : position < process.info.size := by omega
        refine (code.flushes_doInlineHook inside).trans
          (hypothesis (code.doInlineHook inside registered) ?_)
        rw [doInlineHook_info, SlotTable.update_size]
        omega
      · rw [if_neg registered]
        exact hypothesis code (by omega)

theorem CodeIntact.flushes_inlineUnHookFrom
    (position : Nat) (process : Process) (code : CodeIntact data initial process)
    (last : ∀ index < process.info.size, (process.info.slot index).status = HOOKED ->
      index + 1 = process.info.size) :
    FlushesChanges data process (HookEngine.inlineUnHookFrom position process) := by
  induction position, process using inlineUnHookFrom.induct with
  | case1 position process inside hooked hypothesis =>
      rw [HookEngine.inlineUnHookFrom, if_pos inside, if_pos hooked]
      have isLast := last position inside hooked
      refine (code.flushes_doInlineUnHook isLast).trans
        (hypothesis (code.doInlineUnHook inside) fun index still hookedStill => ?_)
      -- the other items are not hooked
      rw [doInlineUnHook_info, SlotTable.remove_size] at still
      rw [doInlineUnHook_info, SlotTable.remove_slot_of_ne (by omega)] at hookedStill
      have other := last index (by omega) hookedStill
      omega
  | case2 position process inside other hypothesis =>
      rw [HookEngine.inlineUnHookFrom, if_pos inside, if_neg other]
      exact hypothesis code last
  | case3 position process outside =>
      rw [HookEngine.inlineUnHookFrom, if_neg outside]
      exact FlushesChanges.of_same rfl fun _ _ => rfl

/-- A registration writes to the page of its trampoline only, which is no code. -/
theorem flushes_registerInlineHook
    {answers : Answers} {target newAddr protoAddr : Word} {status : Ele7enStatus}
    (admissible : Admissible data process (.register answers target newAddr protoAddr))
    (ran : registerInlineHook answers target newAddr protoAddr process = .ok (next, status)) :
    FlushesChanges data process next := by
  obtain ⟨-, same, -⟩ | ⟨-, ⟨_, -, same, -⟩ | ⟨-, page, moved, boundaries, new⟩⟩ :=
    registerInlineHook_ok ran
  · exact FlushesChanges.of_same (by rw [same]) fun _ _ => by rw [same]
  · exact FlushesChanges.of_same (by rw [same]) fun _ _ => by rw [same]
  · obtain ⟨placed, -⟩ := admissible page new.mapped new.unknown
    have short : moved.length ≤ PAGE_SIZE := by
      refine length_relocateInstruction_le ?_ new.relocated
      rw [length_loadBytes]
      split <;> decide
    refine FlushesChanges.of_same (by rw [new.next]) fun here isCode => ?_
    rw [new.next]
    exact storeBytes_outside fun inPage => isCode (placed.page here (inPage.weaken short))

theorem CodeIntact.flushes_inlineHook
    (code : CodeIntact data initial process) (target : Word) :
    FlushesChanges data process (HookEngine.inlineHook target process).1 := by
  rw [HookEngine.inlineHook]
  cases found : findInlineHookItem process.info target with
  | none => exact FlushesChanges.of_same rfl fun _ _ => rfl
  | some position =>
      simp only
      split
      · exact (code.of_same (freeze_info _ _) rfl).flushes_doInlineHook (find_eq_some found).1
      · split <;> exact FlushesChanges.of_same rfl fun _ _ => rfl

theorem CodeIntact.flushes_inlineUnHook
    {target : Word} (code : CodeIntact data initial process)
    (last : UnHooksLast process (.unHook target)) :
    FlushesChanges data process (HookEngine.inlineUnHook target process).1 := by
  rw [HookEngine.inlineUnHook]
  split
  · rename_i position found
    obtain ⟨inside, matching, -⟩ := SlotTable.find?_eq_some.mp found
    obtain ⟨sameTarget, hooked⟩ := of_decide_eq_true matching
    exact (code.of_same (freeze_info _ _) rfl).flushes_doInlineUnHook
      (last position inside hooked sameTarget.symm)
  · exact FlushesChanges.of_same rfl fun _ _ => rfl

/-- Every call that unhooks no item but the last flushes the code that it changes. -/
theorem CodeIntact.call_flushes
    {event : Call} {answer : Option Ele7enStatus} (code : CodeIntact data initial process)
    (admissible : Admissible data process event) (last : UnHooksLast process event)
    (ran : HookEngine.call process event = .ok (next, answer)) :
    FlushesChanges data process next := by
  cases event with
  | register answers target newAddr protoAddr =>
      rw [HookEngine.call] at ran
      cases result : registerInlineHook answers target newAddr protoAddr process with
      | error fault =>
          rw [result] at ran
          cases ran
      | ok outcome =>
          rw [result] at ran
          cases ran
          exact flushes_registerInlineHook admissible result
  | hook target =>
      cases ran
      exact code.flushes_inlineHook target
  | unHook target =>
      cases ran
      exact code.flushes_inlineUnHook last
  | hookAll =>
      cases ran
      exact (code.of_same (freeze_info _ _) rfl).flushes_inlineHookFrom
        (Nat.le_of_eq (Nat.zero_add _))
  | unHookAll =>
      cases ran
      exact CodeIntact.flushes_inlineUnHookFrom 0 _ (code.of_same (freeze_info _ _) rfl)
        fun index inside hooked => last index inside hooked trivial
  | schedule threads =>
      cases ran
      exact FlushesChanges.of_same rfl fun _ _ => rfl

theorem Coherent.refetch
    {cache : Memory} (coherent : Coherent data ⟨process, cache⟩)
    (flushes : FlushesChanges data process next) :
    Coherent data ⟨next, HookEngine.refetch cache process next⟩ := by
  obtain ⟨ranges, flushed, memory⟩ := flushes
  intro here isCode
  simp only [HookEngine.refetch, flushed, List.drop_left]
  split
  · rfl
  · rename_i outside
    push Not at outside
    exact (coherent here isCode).trans (memory here isCode outside).symm

/-- In every run that unhooks no item but the last, the cache holds the code that is in the
memory. -/
theorem cache_stays_coherent
    {events : List Call} {final : Cached}
    (allowed : AllowedRun cachedStep
      (fun state event => Admissible data state.process event ∧
        UnHooksLast state.process event) ⟨Process.fresh initial vacated, initial⟩ events)
    (ran : run cachedStep ⟨Process.fresh initial vacated, initial⟩ events = .ok final) :
    Coherent data final := by
  have preserved : ∀ (state : Cached) event next,
      CodeIntact data initial state.process ∧ Coherent data state ->
      Admissible data state.process event ∧ UnHooksLast state.process event ->
      cachedStep state event = .ok next ->
        CodeIntact data initial next.process ∧ Coherent data next := by
    rintro ⟨process, cache⟩ event next ⟨code, coherent⟩ ⟨admissible, last⟩ stepped
    rw [cachedStep] at stepped
    cases result : step process event with
    | error fault =>
        rw [result] at stepped
        cases stepped
    | ok after =>
        rw [result] at stepped
        cases stepped
        obtain ⟨answer, called⟩ := step_eq_ok result
        exact ⟨code.call admissible called,
          coherent.refetch (code.call_flushes admissible last called)⟩
  have start : CodeIntact data initial (Process.fresh initial vacated) ∧
      Coherent data ⟨Process.fresh initial vacated, initial⟩ :=
    ⟨codeIntact_fresh data initial vacated, fun _ _ => rfl⟩
  have invariant := @run_invariant _ _ _ cachedStep _
    (fun state => CodeIntact data initial state.process ∧ Coherent data state) preserved _ _ _
    start allowed ran
  exact invariant.2

theorem cache_of_one_hook : ∃ final, Coherent High final ∧
    final.process.info.size = 0 ∧ final.cache 0x1000 = 0 := by
  let events : List Call :=
    [.register (.granting 0x9000) 0x1000 0x2000 0, .hook 0x1000, .unHook 0x1000]
  have allowed : AllowedRun cachedStep
      (fun state event => Admissible High state.process event ∧
        UnHooksLast state.process event)
      ⟨Process.fresh (fun _ => 0) fun _ => 0, fun _ => 0⟩ events := by
    refine ⟨⟨fun page found _ => ?_, fun _ _ _ unHooks => unHooks.elim⟩, fun _ first =>
      ⟨⟨trivial, fun _ _ _ unHooks => unHooks.elim⟩, fun _ second => ⟨⟨trivial, ?_⟩,
        fun _ _ => trivial⟩⟩⟩
    · cases found
      exact ⟨placed_low, fun index inside => absurd inside (Nat.not_lt_zero index)⟩
    · cases first
      cases second
      intro position inside _ _
      exact congrArg (· + 1) (Nat.lt_one_iff.mp inside)
  exact ⟨_, cache_stays_coherent allowed rfl, rfl, rfl⟩

/-- Unhooking flushes the restored function if its item is the last one, and otherwise
nothing of it. -/
theorem unHook_flushes_iff_last
    (reachable : Reachable data initial process) (inside : position < process.info.size)
    (isItem : process.info.slot position = item) (hooked : item.status = HOOKED)
    (covered : item.Covers here) :
    ∃ range, (inlineUnHook item.targetAddr process).1.flushed = process.flushed ++ [range] ∧
      (Flushes range here ↔ position + 1 = process.info.size) := by
  subst isItem
  have code := reachable.codeIntact
  have unHooks := inlineUnHook_hooked code.well inside hooked
  refine ⟨flushRange ((process.info.remove position).slot position), ?_, ?_⟩
  · rw [unHooks]
    rfl
  · rw [SlotTable.remove_slot]
    have finalInside : process.info.size - 1 < process.info.size := by omega
    rw [flushes_flushRange (code.placed _ finalInside)]
    constructor
    · intro covers
      by_contra notLast
      have separate := code.separate position inside (process.info.size - 1) finalInside
        (by omega)
      exact separate.covers here covered covers
    · intro last
      have final : process.info.size - 1 = position := by omega
      rwa [final]

end

theorem unHook_of_one_hook_flushes : ∃ process : Process, ∃ range,
    (inlineUnHook 0x1000 process).1.flushed = process.flushed ++ [range] ∧
      (Flushes range 0x1000 ↔ 0 + 1 = process.info.size) := by
  obtain ⟨process, reachable, one, hooked, target, -⟩ := reachable_hooked
  have inside : 0 < process.info.size := by omega
  have covered : (process.info.slot 0).Covers 0x1000 := by
    rw [InlineHookItem.Covers, target, (reachable.codeIntact.placed 0 inside).length, target]
    decide
  obtain ⟨range, flushed⟩ := unHook_flushes_iff_last reachable inside rfl hooked covered
  rw [target] at flushed
  exact ⟨process, range, flushed⟩

end HookEngine
end UnityLocalization
