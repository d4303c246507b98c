import UnityLocalization.HookEngine.CodeMemory
import UnityLocalization.Library.PairTable

/-!
# The places of a thread

A thread that stands at one of the instructions that are moved goes on at its place in the
trampoline, and comes back when the function is restored.  The places are those that were
noted when the instructions were moved.
-/

namespace UnityLocalization
namespace HookEngine

open CMemory WordMemory Transition

/-! ## The places of one item -/

def Boundaries.origAt (boundaries : Boundaries) (index : Nat) : Nat :=
  (boundaries.orig[index]?).getD 0

def Boundaries.trampolineAt (boundaries : Boundaries) (index : Nat) : Nat :=
  (boundaries.trampoline[index]?).getD 0

/-- Where an instruction stood. -/
def InlineHookItem.origPlace (item : InlineHookItem) (index : Nat) : Word :=
  clearBit0 item.targetAddr + BitVec.ofNat 32 (item.boundaries.origAt index)

/-- Where the words for it stand. -/
def InlineHookItem.trampolinePlace (item : InlineHookItem) (index : Nat) : Word :=
  item.trampolineInstructions + BitVec.ofNat 32 (item.boundaries.trampolineAt index)

/-- The noted places of a function grow from one instruction to the next. -/
structure Ordered (boundaries : Boundaries) (size : Nat) : Prop where
  nonempty : 0 < boundaries.count
  origFirst : boundaries.origAt 0 = 0
  trampolineFirst : boundaries.trampolineAt 0 = 0
  orig : ∀ index, index + 1 < boundaries.count ->
    boundaries.origAt index < boundaries.origAt (index + 1)
  trampoline : ∀ index, index + 1 < boundaries.count ->
    boundaries.trampolineAt index < boundaries.trampolineAt (index + 1)
  origBelow : ∀ index < boundaries.count, boundaries.origAt index < size
  trampolineBelow : ∀ index < boundaries.count, boundaries.trampolineAt index < PAGE_SIZE

/-- The item has the places of its own instructions, and no others. -/
structure Noted (item : InlineHookItem) : Prop where
  saved : item.origInstructions.length = if testBit0 item.targetAddr then 12 else 8
  relocated : ∃ load before moved, before.count = 0 ∧
    relocateInstruction load item.targetAddr item.origInstructions before =
      .ok (moved, item.boundaries)

section

variable {data : Word -> Prop} {item : InlineHookItem} {index : Nat} {pc place : Word}

theorem doProcessThreadPC_enable (item : InlineHookItem) (pc : Word) :
    doProcessThreadPC item .enable pc =
      PairTable.translate item.origPlace item.trampolinePlace item.boundaries.count pc := by
  have offset : ∀ index : Nat, (pc - clearBit0 item.targetAddr =
      BitVec.ofNat 32 ((item.boundaries.orig[index]?).getD 0)) = (pc = item.origPlace index) := by
    intro index
    rw [InlineHookItem.origPlace, Boundaries.origAt, BitVec.sub_eq_iff_eq_add, BitVec.add_comm]
  simp only [doProcessThreadPC, offset]
  rfl

theorem doProcessThreadPC_disable (item : InlineHookItem) (pc : Word) :
    doProcessThreadPC item .disable pc =
      PairTable.translate item.trampolinePlace item.origPlace item.boundaries.count pc := by
  have offset : ∀ index : Nat, (pc - item.trampolineInstructions =
      BitVec.ofNat 32 ((item.boundaries.trampoline[index]?).getD 0)) =
        (pc = item.trampolinePlace index) := by
    intro index
    rw [InlineHookItem.trampolinePlace, Boundaries.trampolineAt, BitVec.sub_eq_iff_eq_add,
      BitVec.add_comm]
  simp only [doProcessThreadPC, offset]
  rfl

theorem distinct_places {f : Nat -> Nat} {count : Nat} (base : Word)
    (step : ∀ index, index + 1 < count -> f index < f (index + 1))
    (below : ∀ index < count, f index < PAGE_SIZE) :
    PairTable.Distinct (fun index => base + BitVec.ofNat 32 (f index)) count := by
  intro first firstInside second secondInside same
  have offsets := congrArg BitVec.toNat (add_left_cancel same)
  have firstBelow := below first firstInside
  have secondBelow := below second secondInside
  rw [PAGE_SIZE] at firstBelow secondBelow
  rw [BitVec.toNat_ofNat, BitVec.toNat_ofNat, Nat.mod_eq_of_lt (by omega),
    Nat.mod_eq_of_lt (by omega)] at offsets
  exact PairTable.Distinct.of_step step first firstInside second secondInside offsets

/-! ## The places grow -/

theorem relocateArm_ne_nil (load : Word -> Word) (pc instruction : Word) :
    0 < (relocateArm load pc instruction).length := by
  rw [relocateArm]
  split <;> simp

theorem movedWords_take_lt
    (load : Word -> Word) (pc : Word) {instructions : List Word} {index : Nat}
    (inside : index < instructions.length) :
    (movedWords load pc (instructions.take index)).length <
      (movedWords load pc (instructions.take (index + 1))).length := by
  induction instructions generalizing pc index with
  | nil => exact absurd inside (Nat.not_lt_zero index)
  | cons instruction instructions hypothesis =>
      cases index with
      | zero =>
          have grows := relocateArm_ne_nil load pc instruction
          rw [List.take_zero, List.take_succ_cons, movedWords, movedWords, List.length_append,
            List.length_nil]
          omega
      | succ index =>
          have later := hypothesis (pc + 4) (Nat.lt_of_succ_lt_succ inside)
          rw [List.take_succ_cons, List.take_succ_cons, movedWords, movedWords,
            List.length_append, List.length_append]
          omega

theorem length_movedWords_take_le
    (load : Word -> Word) (pc : Word) (instructions : List Word) (index : Nat) :
    (movedWords load pc (instructions.take index)).length ≤ 6 * instructions.length := by
  have bound := length_movedWords_le load pc (instructions.take index)
  have few := List.length_take_le' index instructions
  omega

theorem turnsSize_take_lt
    {instructions : List Half} {index : Nat} (inside : index < (thumbTurns instructions).length) :
    turnsSize ((thumbTurns instructions).take index) < instructions.length := by
  induction instructions using thumbTurns.induct generalizing index with
  | case1 => exact absurd inside (Nat.not_lt_zero index)
  | case2 instruction wide =>
      rw [thumbTurns, if_pos wide, List.length_singleton] at inside
      cases Nat.lt_one_iff.mp inside
      exact Nat.one_pos
  | case3 instruction wide low rest hypothesis =>
      rw [thumbTurns, if_pos wide] at inside ⊢
      cases index with
      | zero => exact Nat.succ_pos _
      | succ index =>
          have later := hypothesis (Nat.lt_of_succ_lt_succ inside)
          rw [List.take_succ_cons, turnsSize_cons, ThumbTurn.size, List.length_cons,
            List.length_cons]
          omega
  | case4 instruction rest narrow hypothesis =>
      rw [thumbTurns_narrow narrow] at inside ⊢
      cases index with
      | zero => exact Nat.succ_pos _
      | succ index =>
          have later := hypothesis (Nat.lt_of_succ_lt_succ inside)
          rw [List.take_succ_cons, turnsSize_cons, ThumbTurn.size, List.length_cons]
          omega

theorem ThumbTurn.grows {turn : ThumbTurn} (load : Word -> Word) (pc : Word)
    (whole : 0 < turn.size) : 0 < (turn.moved load pc).length := by
  cases turn with
  | narrow instruction =>
      exact List.length_pos_iff.mpr (isWords_thumb16 load pc instruction).2
  | wide high low => exact List.length_pos_iff.mpr (isWords_thumb32 load pc high low).2
  | cut high => exact absurd whole (Nat.lt_irrefl 0)

/-- Only the last instruction can be cut. -/
theorem thumbTurns_whole
    {instructions : List Half} {index : Nat}
    (inside : index + 1 < (thumbTurns instructions).length) :
    ∃ turn, (thumbTurns instructions)[index]? = some turn ∧ 0 < turn.size := by
  induction instructions using thumbTurns.induct generalizing index with
  | case1 => exact absurd inside (Nat.not_lt_zero _)
  | case2 instruction wide =>
      rw [thumbTurns, if_pos wide, List.length_singleton] at inside
      omega
  | case3 instruction wide low rest hypothesis =>
      rw [thumbTurns, if_pos wide] at inside ⊢
      cases index with
      | zero => exact ⟨_, rfl, Nat.two_pos⟩
      | succ index => exact hypothesis (Nat.lt_of_succ_lt_succ inside)
  | case4 instruction rest narrow hypothesis =>
      rw [thumbTurns_narrow narrow] at inside ⊢
      cases index with
      | zero => exact ⟨_, rfl, Nat.one_pos⟩
      | succ index => exact hypothesis (Nat.lt_of_succ_lt_succ inside)

/-- A whole instruction moves both places on. -/
theorem take_lt_of_whole
    (load : Word -> Word) (pc : Word) {turns : List ThumbTurn} {turn : ThumbTurn} {index : Nat}
    (here : turns[index]? = some turn) (whole : 0 < turn.size) :
    turnsSize (turns.take index) < turnsSize (turns.take (index + 1)) ∧
      (movedTurns load pc (turns.take index)).length <
        (movedTurns load pc (turns.take (index + 1))).length := by
  induction turns generalizing pc index with
  | nil => cases here
  | cons first turns hypothesis =>
      cases index with
      | zero =>
          cases here
          have grows := turn.grows load pc whole
          simp only [List.take_zero, List.take_succ_cons, turnsSize_cons, movedTurns,
            List.length_append, List.length_nil]
          exact ⟨Nat.lt_of_lt_of_le whole (Nat.le_add_right _ _),
            Nat.lt_of_lt_of_le grows (Nat.le_add_right _ _)⟩
      | succ index =>
          obtain ⟨sizes, lengths⟩ := hypothesis (pc + BitVec.ofNat 32 (2 * first.size)) here
          simp only [List.take_succ_cons, turnsSize_cons, movedTurns, List.length_append]
          exact ⟨Nat.add_lt_add_left sizes _, Nat.add_lt_add_left lengths _⟩

/-! ## Items with the places of their own instructions -/

/-- Notes that begin the arrays, by the places they are for. -/
theorem Notes.ordered
    {origOf trampolineOf : Nat -> Nat} {turns size : Nat} {before after : Boundaries}
    (notes : Notes origOf trampolineOf turns before after) (fresh : before.count = 0)
    (nonempty : 0 < turns) (origFirst : origOf 0 = 0) (trampolineFirst : trampolineOf 0 = 0)
    (step : ∀ index, index + 1 < turns ->
      origOf index < origOf (index + 1) ∧ trampolineOf index < trampolineOf (index + 1))
    (below : ∀ index < turns, origOf index < size ∧ trampolineOf index < PAGE_SIZE) :
    Ordered after size := by
  have count : after.count = turns := by rw [notes.count, fresh, Nat.zero_add]
  have orig : ∀ index < turns, after.origAt index = origOf index := by
    intro index inside
    have entry := notes.orig index inside
    rw [fresh, Nat.zero_add] at entry
    rw [Boundaries.origAt, entry, Option.getD_some]
  have trampoline : ∀ index < turns, after.trampolineAt index = trampolineOf index := by
    intro index inside
    have entry := notes.trampoline index inside
    rw [fresh, Nat.zero_add] at entry
    rw [Boundaries.trampolineAt, entry, Option.getD_some]
  constructor
  · rwa [count]
  · rw [orig 0 nonempty, origFirst]
  · rw [trampoline 0 nonempty, trampolineFirst]
  · intro index inside
    rw [count] at inside
    rw [orig _ inside, orig _ (Nat.lt_of_succ_lt inside)]
    exact (step index inside).1
  · intro index inside
    rw [count] at inside
    rw [trampoline _ inside, trampoline _ (Nat.lt_of_succ_lt inside)]
    exact (step index inside).2
  · intro index inside
    rw [count] at inside
    rw [orig _ inside]
    exact (below index inside).1
  · intro index inside
    rw [count] at inside
    rw [trampoline _ inside]
    exact (below index inside).2

theorem ArmNotes.ordered
    {load : Word -> Word} {instructions : List Word} {before after : Boundaries}
    (notes : ArmNotes load pc 0 0 instructions before after) (fresh : before.count = 0)
    (nonempty : 0 < instructions.length) (few : instructions.length ≤ 4) :
    Ordered after (4 * instructions.length) := by
  refine Notes.ordered notes fresh nonempty rfl rfl (fun index inside => ?_) fun index inside => ?_
  · have more := movedWords_take_lt load pc (Nat.lt_of_succ_lt inside)
    omega
  · have bound := length_movedWords_take_le load pc instructions index
    rw [PAGE_SIZE]
    omega

theorem ThumbNotes.ordered
    {load : Word -> Word} {instructions : List Half} {before after : Boundaries}
    (notes : ThumbNotes load pc 0 0 (thumbTurns instructions) before after)
    (fresh : before.count = 0) (nonempty : 0 < (thumbTurns instructions).length)
    (few : (thumbTurns instructions).length ≤ 4) :
    Ordered after (2 * instructions.length) := by
  refine Notes.ordered notes fresh nonempty rfl rfl (fun index inside => ?_) fun index inside => ?_
  · obtain ⟨turn, here, whole⟩ := thumbTurns_whole inside
    have more := take_lt_of_whole load pc here whole
    omega
  · have bound := (length_movedTurns load pc ((thumbTurns instructions).take index)).2
    have fewer := List.length_take_le' index (thumbTurns instructions)
    have sizes := turnsSize_take_lt inside
    rw [PAGE_SIZE]
    omega

theorem thumbTurns_pos {instructions : List Half} (nonempty : 0 < instructions.length) :
    0 < (thumbTurns instructions).length := by
  cases instructions with
  | nil => exact absurd nonempty (Nat.lt_irrefl 0)
  | cons instruction rest =>
      rw [thumbTurns.eq_def]
      simp only
      split
      · split <;> exact Nat.succ_pos _
      · exact Nat.succ_pos _

theorem Noted.ordered (noted : Noted item) :
    Ordered item.boundaries item.origInstructions.length := by
  obtain ⟨load, before, moved, fresh, relocated⟩ := noted.relocated
  have saved := noted.saved
  rw [relocateInstruction] at relocated
  cases mode : testBit0 item.targetAddr with
  | true =>
      rw [mode, if_pos rfl] at saved
      rw [mode, if_pos rfl] at relocated
      obtain ⟨⟨halves, boundaries⟩, written, same⟩ := bind_eq_ok.mp relocated
      cases same
      have six : (halvesOf item.origInstructions).length = 6 := by
        rw [length_halvesOf, saved]
      have nonempty : 0 < (halvesOf item.origInstructions).length := by omega
      obtain ⟨-, fits, notes⟩ := relocateInstructionInThumb_ok nonempty written
      have ordered := ThumbNotes.ordered notes fresh (thumbTurns_pos nonempty) (by omega)
      rw [six] at ordered
      rw [saved]
      exact ordered
  | false =>
      rw [mode, if_neg Bool.false_ne_true] at saved
      rw [mode, if_neg Bool.false_ne_true] at relocated
      obtain ⟨⟨words, boundaries⟩, written, same⟩ := bind_eq_ok.mp relocated
      cases same
      have two : (wordsOf item.origInstructions).length = 2 := by
        rw [length_wordsOf, saved]
      obtain ⟨-, fits, notes⟩ := relocateInstructionInArm_ok (by omega) written
      have ordered := ArmNotes.ordered notes fresh (by omega) (by omega)
      rw [two] at ordered
      rw [saved]
      exact ordered

/-- Moving a thread into the trampoline and moving it back are inverse. -/
theorem Noted.enable_iff_disable (noted : Noted item) :
    doProcessThreadPC item .enable pc = some place ↔
      doProcessThreadPC item .disable place = some pc := by
  have ordered := noted.ordered
  have page : item.origInstructions.length ≤ PAGE_SIZE := by
    rw [noted.saved, PAGE_SIZE]
    split <;> decide
  rw [doProcessThreadPC_enable, doProcessThreadPC_disable]
  apply PairTable.translate_iff
  · exact distinct_places _ ordered.orig fun index inside =>
      Nat.lt_of_lt_of_le (ordered.origBelow index inside) page
  · exact distinct_places _ ordered.trampoline ordered.trampolineBelow

theorem Noted.enable_origPlace (noted : Noted item) (inside : index < item.boundaries.count) :
    doProcessThreadPC item .enable (item.origPlace index) =
      some (item.trampolinePlace index) := by
  have ordered := noted.ordered
  have page : item.origInstructions.length ≤ PAGE_SIZE := by
    rw [noted.saved, PAGE_SIZE]
    split <;> decide
  have distinct := distinct_places (clearBit0 item.targetAddr) ordered.orig
    fun index inside => Nat.lt_of_lt_of_le (ordered.origBelow index inside) page
  rw [doProcessThreadPC_enable]
  exact (PairTable.translate_eq_some distinct).mpr ⟨index, inside, rfl, rfl⟩

theorem Noted.covers_of_enable
    (noted : Noted item) (placed : Placed data item)
    (moves : doProcessThreadPC item .enable pc ≠ none) : item.Covers pc := by
  rw [doProcessThreadPC_enable, ne_eq, PairTable.translate_eq_none] at moves
  push Not at moves
  obtain ⟨index, inside, rfl⟩ := moves
  have below := noted.ordered.origBelow index inside
  have size := noted.saved
  rw [← placed.length] at size
  have short : item.length ≤ 12 := by
    rw [placed.length]
    split <;> decide
  rw [InlineHookItem.Covers, InRange, InlineHookItem.origPlace]
  bv_omega

theorem Noted.page_of_disable
    (noted : Noted item) (moves : doProcessThreadPC item .disable pc ≠ none) : item.Page pc := by
  rw [doProcessThreadPC_disable, ne_eq, PairTable.translate_eq_none] at moves
  push Not at moves
  obtain ⟨index, inside, rfl⟩ := moves
  have below := noted.ordered.trampolineBelow index inside
  rw [PAGE_SIZE] at below
  rw [InlineHookItem.Page, InRange, InlineHookItem.trampolinePlace, PAGE_SIZE]
  bv_omega

/-- A thread outside of the trampoline comes back to where it was. -/
theorem Noted.returns (noted : Noted item) (info : InlineHookInfo) (other : InlineHookInfo)
    (outside : ¬item.Page pc) :
    processThreadPC other (some item) .disable (processThreadPC info (some item) .enable pc) =
      pc := by
  rw [processThreadPC, processThreadPC]
  cases moves : doProcessThreadPC item .enable pc with
  | none =>
      have stays : doProcessThreadPC item .disable pc = none := by
        by_contra back
        exact outside (noted.page_of_disable back)
      rw [Option.getD_none, stays, Option.getD_none]
  | some place =>
      rw [Option.getD_some, noted.enable_iff_disable.mp moves, Option.getD_some]

/-! ## ARM functions -/

theorem length_relocateArm_congr (load other : Word -> Word) (pc instruction : Word) :
    (relocateArm load pc instruction).length = (relocateArm other pc instruction).length := by
  rw [relocateArm, relocateArm]
  split <;> rfl

theorem length_movedWords_congr
    (load other : Word -> Word) (pc : Word) (instructions : List Word) :
    (movedWords load pc instructions).length = (movedWords other pc instructions).length := by
  induction instructions generalizing pc with
  | nil => rfl
  | cons instruction instructions hypothesis =>
      rw [movedWords, movedWords, List.length_append, List.length_append, hypothesis,
        length_relocateArm_congr load other]

/-- What is noted for the instructions of an ARM function. -/
theorem Noted.arm_notes
    (noted : Noted item) (arm : testBit0 item.targetAddr = false) (inside : index < 2)
    (load : Word -> Word) :
    index < item.boundaries.count ∧ item.boundaries.orig[index]? = some (4 * index) ∧
      item.boundaries.trampoline[index]? =
        some (4 * (movedWords load (item.targetAddr + 8)
          ((wordsOf item.origInstructions).take index)).length) := by
  obtain ⟨original, before, moved, fresh, relocated⟩ := noted.relocated
  have saved := noted.saved
  rw [arm, if_neg Bool.false_ne_true] at saved
  rw [relocateInstruction, arm, if_neg Bool.false_ne_true] at relocated
  obtain ⟨⟨words, boundaries⟩, written, same⟩ := bind_eq_ok.mp relocated
  cases same
  have two : (wordsOf item.origInstructions).length = 2 := by
    rw [length_wordsOf, saved]
  obtain ⟨-, -, notes⟩ := relocateInstructionInArm_ok (by omega) written
  have count := notes.count
  have orig := notes.orig index (two ▸ inside)
  have trampoline := notes.trampoline index (two ▸ inside)
  rw [fresh, Nat.zero_add] at count orig trampoline
  refine ⟨by omega, ?_, ?_⟩
  · rw [orig, Nat.mul_comm]
  · rw [trampoline, Nat.zero_add, Nat.mul_comm, length_movedWords_congr original load]

end

/-! ## Runs -/

/-- A registration takes a slot without places of an earlier function. -/
def FreshSlot (process : Process) : Call -> Prop
  | .register .. => (process.info.slot process.info.size).boundaries.count = 0
  | _ => True

section

variable {memory vacated : Memory} {process : Process} {events : List Call}

theorem keptByHook_noted : KeptByHook fun info => info.All Noted := by
  intro info position inside noted
  exact noted.update ⟨(noted position inside).saved, (noted position inside).relocated⟩

theorem keptByUnHook_noted : KeptByUnHook fun info => info.All Noted :=
  fun _ _ _ noted => noted.remove

theorem noted_of_registers
    {answers : Answers} {target newAddr protoAddr page : Word} {next : Process}
    {moved : List Byte} {boundaries : Boundaries} (noted : process.info.All Noted)
    (fresh : (process.info.slot process.info.size).boundaries.count = 0)
    (new : Registers answers target newAddr protoAddr process next page moved boundaries) :
    next.info.All Noted := by
  rw [new.next]
  exact SlotTable.all_push.mpr
    ⟨noted, length_loadBytes _ _ _, _, _, moved, fresh, new.relocated⟩

/-- With fresh slots every item has the places of its own instructions. -/
theorem noted_of_run
    (allowed : AllowedRun step FreshSlot (Process.fresh memory vacated) events)
    (ran : run step (Process.fresh memory vacated) events = .ok process) :
    process.info.All Noted := by
  have preserved : ∀ (process : Process) event next, process.info.All Noted ->
      FreshSlot process event -> step process event = .ok next -> next.info.All Noted := by
    intro process event next noted fresh stepped
    obtain ⟨answer, called⟩ := step_eq_ok stepped
    refine call_keeps keptByHook_noted (fun _ => keptByUnHook_noted) ?_ noted called
    rintro answers target newAddr protoAddr page moved boundaries rfl new
    exact noted_of_registers noted fresh new
  exact run_invariant preserved (fun index inside => absurd inside (Nat.not_lt_zero index))
    allowed ran

/-- The slots behind the items have never been used. -/
def Unused (info : InlineHookInfo) : Prop :=
  ∀ index, info.size ≤ index -> (info.slot index).boundaries.count = 0

/-- Slots are fresh as long as nothing is unhooked. -/
theorem freshSlots_of_no_unHook
    {process : Process} (unused : Unused process.info)
    (noUnHook : ∀ event ∈ events, event.unHooks = false) :
    AllowedRun step FreshSlot process events := by
  induction events generalizing process with
  | nil => trivial
  | cons event events hypothesis =>
      have here := noUnHook event List.mem_cons_self
      refine ⟨?_, fun next stepped => hypothesis ?_ fun later member =>
        noUnHook later (List.mem_cons_of_mem _ member)⟩
      · cases event with
        | register answers target newAddr protoAddr => exact unused _ (Nat.le_refl _)
        | _ => trivial
      · obtain ⟨answer, called⟩ := step_eq_ok stepped
        have hook : KeptByHook Unused := by
          intro info position inside unused index behind
          rw [SlotTable.update_size] at behind
          rw [SlotTable.update_slot_of_ne (by omega)]
          exact unused index behind
        refine call_keeps hook (fun unHooks => ?_) ?_ unused called
        · rw [here] at unHooks
          cases unHooks
        · rintro answers target newAddr protoAddr page moved boundaries rfl new index behind
          rw [new.next] at behind ⊢
          rw [SlotTable.push_size] at behind
          rw [SlotTable.push_slot_of_ne (by omega)]
          exact unused index (by omega)

/-- A thread that was moved into a trampoline is moved back to where it was, and only such
a thread is. -/
theorem moved_thread_returns
    {position : Nat} {pc place : Word}
    (allowed : AllowedRun step FreshSlot (Process.fresh memory vacated) events)
    (ran : run step (Process.fresh memory vacated) events = .ok process)
    (inside : position < process.info.size) :
    doProcessThreadPC (process.info.slot position) .enable pc = some place ↔
      doProcessThreadPC (process.info.slot position) .disable place = some pc :=
  (noted_of_run allowed ran position inside).enable_iff_disable

theorem thread_of_one_function_returns : ∃ process : Process,
    doProcessThreadPC (process.info.slot 0) .enable 0x1004 = some 0x9004 ↔
      doProcessThreadPC (process.info.slot 0) .disable 0x9004 = some 0x1004 := by
  let events : List Call := [.register (.granting 0x9000) 0x1000 0x2000 0]
  have noUnHook : ∀ event ∈ events, event.unHooks = false := by decide
  have fresh : AllowedRun step FreshSlot (Process.fresh (fun _ => 0) fun _ => 0) events :=
    freshSlots_of_no_unHook (fun _ _ => rfl) noUnHook
  exact ⟨_, moved_thread_returns fresh rfl Nat.one_pos⟩

end

end HookEngine
end UnityLocalization
