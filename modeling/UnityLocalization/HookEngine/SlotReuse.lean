import UnityLocalization.HookEngine.Threads

/-!
# Slots that are used again

The places of a function are not forgotten when its item is deleted.  The next function in
the same slot notes its own behind them.
-/

namespace UnityLocalization
namespace HookEngine

open CMemory WordMemory Transition

section

variable {process : Process} {position : Nat}

/-- The slot behind the items still holds the last item when that one is unhooked. -/
theorem unHooked_last_slot
    (well : WellFormed process.info) (last : position + 1 = process.info.size)
    (hooked : (process.info.slot position).status = HOOKED) :
    let unHooked := (inlineUnHook (process.info.slot position).targetAddr process).1
    unHooked.info.size = position ∧
      unHooked.info.slot position = process.info.slot position := by
  intro unHooked
  have inside : position < process.info.size := by omega
  have removed : unHooked.info = process.info.remove position := by
    rw [show unHooked = doInlineUnHook _ position from
      congrArg Prod.fst (inlineUnHook_hooked well inside hooked)]
    rfl
  have final : process.info.size - 1 = position := by omega
  rw [removed, SlotTable.remove_size, SlotTable.remove_slot, final]
  exact ⟨rfl, rfl⟩

variable
  {answers : Answers} {target newAddr protoAddr page : Word} {next : Process}
  {moved : List Byte} {boundaries : Boundaries}

theorem Registers.slot
    (new : Registers answers target newAddr protoAddr process next page moved boundaries) :
    next.info.slot process.info.size =
      { targetAddr := target, newAddr := newAddr, protoAddr := protoAddr,
        origInstructions := loadBytes process.memory (clearBit0 target)
          (if testBit0 target then 12 else 8)
        boundaries := boundaries, trampolineInstructions := page,
        length := if testBit0 target then 12 else 8, status := REGISTERED } := by
  rw [new.next]
  exact SlotTable.push_slot_size

/-- The places of a new ARM function stand behind those that its slot had. -/
theorem Registers.kept
    (new : Registers answers target newAddr protoAddr process next page moved boundaries)
    (arm : testBit0 target = false) {index : Nat}
    (inside : index < (process.info.slot process.info.size).boundaries.count) :
    index < boundaries.count ∧
      boundaries.origAt index =
        (process.info.slot process.info.size).boundaries.origAt index ∧
      boundaries.trampolineAt index =
        (process.info.slot process.info.size).boundaries.trampolineAt index := by
  have relocated := new.relocated
  rw [relocateInstruction, arm, if_neg Bool.false_ne_true] at relocated
  obtain ⟨⟨words, after⟩, written, same⟩ := bind_eq_ok.mp relocated
  cases same
  obtain ⟨-, -, notes⟩ := relocateInstructionInArm_ok
    (by rw [length_wordsOf, length_loadBytes]; decide) written
  obtain ⟨orig, trampoline⟩ := notes.kept index inside
  have count := notes.count
  refine ⟨by omega, ?_, ?_⟩
  · rw [Boundaries.origAt, Boundaries.origAt, orig]
  · rw [Boundaries.trampolineAt, Boundaries.trampolineAt, trampoline]

/-- A thread at the second instruction of a new ARM function is sent to the second place
of its slot, if the slot has the places of an ARM function. -/
theorem Registers.enable_second
    (new : Registers answers target newAddr protoAddr process next page moved boundaries)
    (arm : testBit0 target = false)
    (two : 1 < (process.info.slot process.info.size).boundaries.count)
    (origZero : (process.info.slot process.info.size).boundaries.origAt 0 = 0)
    (origOne : (process.info.slot process.info.size).boundaries.origAt 1 = 4) :
    doProcessThreadPC (next.info.slot process.info.size) .enable (target + 4) =
      some (page + BitVec.ofNat 32
        ((process.info.slot process.info.size).boundaries.trampolineAt 1)) := by
  obtain ⟨-, keptZero, -⟩ := new.kept arm (Nat.lt_of_succ_lt two)
  obtain ⟨few, keptOne, keptPlace⟩ := new.kept arm two
  have zero : (next.info.slot process.info.size).origPlace 0 = target := by
    rw [new.slot, InlineHookItem.origPlace, keptZero, origZero, clearBit0_of_arm arm]
    exact BitVec.add_zero target
  have one : (next.info.slot process.info.size).origPlace 1 = target + 4 := by
    rw [new.slot, InlineHookItem.origPlace, keptOne, origOne, clearBit0_of_arm arm]
    rfl
  have place : (next.info.slot process.info.size).trampolinePlace 1 = page + BitVec.ofNat 32
      ((process.info.slot process.info.size).boundaries.trampolineAt 1) := by
    rw [new.slot, InlineHookItem.trampolinePlace, keptPlace]
  rw [doProcessThreadPC_enable, ← one, ← place]
  refine PairTable.translate_of_first (by rwa [new.slot]) rfl fun earlier before => ?_
  rw [Nat.lt_one_iff.mp before, one, zero]
  bv_omega

/-- In the slot of an ARM function that was unhooked, a thread at the second instruction
of the next ARM function is sent to the place that the earlier function had noted.  It is
the right one exactly if both first instructions take the same number of words. -/
theorem reused_slot_keeps_old_places
    {old : InlineHookItem} {unHooked : Process} {oldFirst oldSecond : Word}
    (well : WellFormed process.info) (last : position + 1 = process.info.size)
    (isOld : process.info.slot position = old) (noted : Noted old)
    (hooked : old.status = HOOKED) (oldArm : testBit0 old.targetAddr = false)
    (oldWords : wordsOf old.origInstructions = [oldFirst, oldSecond])
    (isUnHooked : (inlineUnHook old.targetAddr process).1 = unHooked)
    (new : Registers answers target newAddr protoAddr unHooked next page moved boundaries)
    (arm : testBit0 target = false) :
    processThreadPC next.info (some (next.info.slot position)) .enable (target + 4) =
        page + BitVec.ofNat 32 (old.boundaries.trampolineAt 1) ∧
      (processThreadPC next.info (some (next.info.slot position)) .enable (target + 4) =
          movedPlace (wordAt unHooked.memory) target page
            [wordAt unHooked.memory target, wordAt unHooked.memory (target + 4)] 1 ↔
        (relocateArm (wordAt unHooked.memory) (old.targetAddr + 8) oldFirst).length =
          (relocateArm (wordAt unHooked.memory) (target + 8)
            (wordAt unHooked.memory target)).length) := by
  obtain ⟨size, slot⟩ := unHooked_last_slot well last (isOld ▸ hooked)
  rw [isOld, isUnHooked] at size slot
  obtain ⟨-, origZero, -⟩ := noted.arm_notes oldArm (by decide : 0 < 2)
    (wordAt unHooked.memory)
  obtain ⟨two, origOne, place⟩ := noted.arm_notes oldArm (by decide : 1 < 2)
    (wordAt unHooked.memory)
  have moves := new.enable_second arm
  rw [size, slot] at moves
  have sent : processThreadPC next.info (some (next.info.slot position)) .enable (target + 4) =
      page + BitVec.ofNat 32 (old.boundaries.trampolineAt 1) := by
    rw [processThreadPC, moves two (by rw [Boundaries.origAt, origZero]; rfl)
      (by rw [Boundaries.origAt, origOne]; rfl), Option.getD_some]
  refine ⟨sent, ?_⟩
  have oldShort := length_relocateArm_le (wordAt unHooked.memory) (old.targetAddr + 8) oldFirst
  have short := length_relocateArm_le (wordAt unHooked.memory) (target + 8)
    (wordAt unHooked.memory target)
  rw [sent, Boundaries.trampolineAt, place, oldWords, Option.getD_some, List.take_succ_cons,
    List.take_zero, movedWords, movedWords, List.append_nil, movedPlace_one, movedSize,
    add_right_inj, ← BitVec.toNat_inj, BitVec.toNat_ofNat, BitVec.toNat_ofNat]
  omega

end

/-- The places that are noted for two instructions of one word. -/
def twoPlaces : Boundaries :=
  ⟨((Vector.replicate 4 0).set 0 0).set 1 4, ((Vector.replicate 20 0).set 0 0).set 1 4, 2⟩

/-- The slot of a function of one-word instructions is used again for one that begins with
a call. -/
theorem call_in_reused_slot :
    let old : InlineHookItem :=
      ⟨0x1000, 0x2000, 0, List.replicate 8 0, twoPlaces, 0x9000, 8, HOOKED⟩
    let process : Process :=
      ⟨⟨fun _ => old, 1⟩, storeWords (fun _ => 0) 0x1800 [0xEB000000], fun _ => 0, [], []⟩
    ∃ unHooked next : Process, (inlineUnHook 0x1000 process).1 = unHooked ∧
      processThreadPC next.info (some (next.info.slot 0)) .enable (0x1800 + 4) = 0xA000 + 4 ∧
      (processThreadPC next.info (some (next.info.slot 0)) .enable (0x1800 + 4) =
          movedPlace (wordAt unHooked.memory) 0x1800 0xA000
            [wordAt unHooked.memory 0x1800, wordAt unHooked.memory (0x1800 + 4)] 1 ↔
        (relocateArm (wordAt unHooked.memory) (0x1000 + 8) 0).length =
          (relocateArm (wordAt unHooked.memory) (0x1800 + 8)
            (wordAt unHooked.memory 0x1800)).length) := by
  intro old process
  have well : WellFormed process.info :=
    { distinct := fun first before second behind different => absurd
        ((Nat.lt_one_iff.mp before).trans (Nat.lt_one_iff.mp behind).symm) different
      status := fun _ _ => .inr rfl
      size := by decide }
  have relocated : ∃ moved, relocateInstruction (fun _ => 0) 0x1000 (List.replicate 8 0)
      .unused = .ok (moved, twoPlaces) := ⟨_, rfl⟩
  obtain ⟨moved, relocated⟩ := relocated
  have noted : Noted old := ⟨by decide, fun _ => 0, .unused, moved, rfl, relocated⟩
  have new : ∃ next moved boundaries, Registers (.granting 0xA000) 0x1800 0x2000 0
      (inlineUnHook 0x1000 process).1 next 0xA000 moved boundaries :=
    ⟨_, _, _, rfl, by decide, rfl, rfl, rfl, rfl⟩
  obtain ⟨next, _, _, new⟩ := new
  have words : wordsOf old.origInstructions = [0, 0] := by decide
  exact ⟨_, next, rfl, reused_slot_keeps_old_places well rfl rfl noted rfl (by decide) words
    rfl new (by decide)⟩

/-! ## Room for the places -/

/-- The number of places that are noted for the saved bytes of a function. -/
def placeCount (targetAddr : Word) (saved : List Byte) : Nat :=
  if testBit0 targetAddr then (thumbTurns (halvesOf saved)).length else (wordsOf saved).length

section

variable {load : Word -> Word} {target : Word} {saved moved : List Byte}
  {before noted : Boundaries}

theorem relocateInstructionInArm_isOk_iff
    (load : Word -> Word) (target : Word) {instructions : List Word} (before : Boundaries)
    (nonempty : 0 < instructions.length) :
    (∃ result, relocateInstructionInArm load target instructions before = .ok result) ↔
      before.count + instructions.length ≤ 4 := by
  constructor
  · rintro ⟨⟨words, noted⟩, relocated⟩
    exact (relocateInstructionInArm_ok nonempty relocated).2.1
  · intro fits
    obtain ⟨after, looped, -⟩ := @relocateArmLoop_eq load (target + 8) 0 0 _ _ fits
    rw [relocateInstructionInArm, looped, ok_bind]
    exact ⟨_, rfl⟩

theorem relocateInstruction_isOk_iff
    (load : Word -> Word) (target : Word) (before : Boundaries) (long : 4 ≤ saved.length) :
    (∃ result, relocateInstruction load target saved before = .ok result) ↔
      before.count + placeCount target saved ≤ 4 := by
  rw [relocateInstruction, placeCount]
  split
  · have more : 0 < (halvesOf saved).length := by
      rw [length_halvesOf]
      omega
    rw [← relocateInstructionInThumb_isOk_iff load (target - 1) before more]
    constructor
    · rintro ⟨result, relocated⟩
      obtain ⟨inner, written, -⟩ := bind_eq_ok.mp relocated
      exact ⟨inner, written⟩
    · rintro ⟨inner, written⟩
      rw [written, ok_bind]
      exact ⟨_, rfl⟩
  · have more : 0 < (wordsOf saved).length := by
      rw [length_wordsOf]
      omega
    rw [← relocateInstructionInArm_isOk_iff load target before more]
    constructor
    · rintro ⟨result, relocated⟩
      obtain ⟨inner, written, -⟩ := bind_eq_ok.mp relocated
      exact ⟨inner, written⟩
    · rintro ⟨inner, written⟩
      rw [written, ok_bind]
      exact ⟨_, rfl⟩

theorem relocateInstruction_count
    (long : 4 ≤ saved.length)
    (relocated : relocateInstruction load target saved before = .ok (moved, noted)) :
    noted.count = before.count + placeCount target saved := by
  rw [relocateInstruction] at relocated
  rw [placeCount]
  cases mode : testBit0 target with
  | true =>
      rw [mode, if_pos rfl] at relocated
      obtain ⟨⟨halves, boundaries⟩, written, same⟩ := bind_eq_ok.mp relocated
      cases same
      have more : 0 < (halvesOf saved).length := by
        rw [length_halvesOf]
        omega
      exact (relocateInstructionInThumb_ok more written).2.2.count
  | false =>
      rw [mode, if_neg Bool.false_ne_true] at relocated
      obtain ⟨⟨words, boundaries⟩, written, same⟩ := bind_eq_ok.mp relocated
      cases same
      have more : 0 < (wordsOf saved).length := by
        rw [length_wordsOf]
        omega
      exact (relocateInstructionInArm_ok more written).2.2.count

end

/-- Both addresses are executable, and there is memory for the saved bytes. -/
structure Answers.Grants (answers : Answers) (targetAddr newAddr : Word) : Prop where
  executable : (answers.isExecutableAddr targetAddr && answers.isExecutableAddr newAddr) = true
  malloc : answers.malloc = true

section

variable {answers : Answers} {process next : Process} {target newAddr protoAddr : Word}

/-- The bytes of a function that are saved. -/
def savedBytes (memory : Memory) (targetAddr : Word) : List Byte :=
  loadBytes memory (clearBit0 targetAddr) (if testBit0 targetAddr then 12 else 8)

theorem length_savedBytes (memory : Memory) (target : Word) :
    4 ≤ (savedBytes memory target).length := by
  rw [savedBytes, length_loadBytes]
  split <;> decide

/-- A registration goes through if everything that it asks for is there. -/
theorem registerInlineHook_of_grants
    {page : Word} {moved : List Byte} {boundaries : Boundaries}
    (grants : answers.Grants target newAddr)
    (unknown : process.info.lookup InlineHookItem.targetAddr target = none)
    (room : process.info.size < 1024) (mapped : answers.page = some page)
    (relocated : relocateInstruction (wordAt process.memory) target
      (savedBytes process.memory target) (process.info.slot process.info.size).boundaries =
        .ok (moved, boundaries)) :
    ∃ next, registerInlineHook answers target newAddr protoAddr process = .ok (next, .ok) ∧
      Registers answers target newAddr protoAddr process next page moved boundaries := by
  refine ⟨_, ?_, unknown, room, grants.malloc, mapped, relocated, rfl⟩
  rw [savedBytes] at relocated
  rw [registerInlineHook, ← Bool.not_and, grants.executable, find_eq_none_iff.mpr unknown,
    addInlineHookItem, if_neg (Nat.not_le.mpr room), deref_some, ok_bind, mapped,
    Option.elim_some, grants.malloc]
  simp only [Bool.not_true, Bool.false_eq_true, if_false, pure_eq_ok, ok_bind, relocated]

/-- What a registration of an unknown function asks for: room for its item, memory for the
saved bytes and for the trampoline, and room for the places of its instructions. -/
def HasRoom (answers : Answers) (process : Process) (targetAddr : Word) : Prop :=
  process.info.size < 1024 ∧ answers.malloc = true ∧ answers.page.isSome = true ∧
    (process.info.slot process.info.size).boundaries.count +
      placeCount targetAddr (savedBytes process.memory targetAddr) ≤ 4

theorem registerInlineHook_isOk_of_hasRoom
    (newAddr protoAddr : Word)
    (executable :
      (answers.isExecutableAddr target && answers.isExecutableAddr newAddr) = true)
    (unknown : process.info.lookup InlineHookItem.targetAddr target = none)
    (hasRoom : HasRoom answers process target) :
    ∃ next, registerInlineHook answers target newAddr protoAddr process = .ok (next, .ok) := by
  obtain ⟨room, malloc, page, fits⟩ := hasRoom
  obtain ⟨⟨moved, boundaries⟩, relocated⟩ := (relocateInstruction_isOk_iff
    (wordAt process.memory) target _ (length_savedBytes _ _)).mpr fits
  obtain ⟨page, mapped⟩ := Option.isSome_iff_exists.mp page
  have grants : answers.Grants target newAddr := ⟨executable, malloc⟩
  obtain ⟨next, ran, -⟩ := @registerInlineHook_of_grants answers process target newAddr
    protoAddr page moved boundaries grants unknown room mapped relocated
  exact ⟨next, ran⟩

/-- A function that is not known yet is registered if there is room for it, and otherwise
the registration stops at an undefined access. -/
theorem registerInlineHook_isOk_iff
    (process : Process) (newAddr protoAddr : Word)
    (executable :
      (answers.isExecutableAddr target && answers.isExecutableAddr newAddr) = true)
    (unknown : process.info.lookup InlineHookItem.targetAddr target = none) :
    ((∃ next, registerInlineHook answers target newAddr protoAddr process = .ok (next, .ok)) ↔
        HasRoom answers process target) ∧
      ((∃ fault, registerInlineHook answers target newAddr protoAddr process = .error fault) ↔
        ¬HasRoom answers process target) := by
  have registered := @registerInlineHook_isOk_of_hasRoom answers process target newAddr protoAddr
    executable unknown
  cases result : registerInlineHook answers target newAddr protoAddr process with
  | error fault =>
      rw [result] at registered
      have full : ¬HasRoom answers process target := by
        intro hasRoom
        obtain ⟨next, ran⟩ := registered hasRoom
        cases ran
      exact ⟨⟨fun ⟨next, ran⟩ => (nomatch ran), fun hasRoom => absurd hasRoom full⟩,
        fun _ => full, fun _ => ⟨fault, rfl⟩⟩
  | ok outcome =>
      obtain ⟨next, status⟩ := outcome
      obtain ⟨refused, -⟩ |
          ⟨-, ⟨item, known, -⟩ | ⟨isOk, page, moved, boundaries, new⟩⟩ :=
        registerInlineHook_ok result
      · exact absurd executable refused
      · rw [unknown] at known
        cases known
      · have fits := (relocateInstruction_isOk_iff _ _ _
          (length_savedBytes process.memory target)).mp ⟨_, new.relocated⟩
        have hasRoom : HasRoom answers process target :=
          ⟨new.room, new.malloc, by rw [new.mapped]; rfl, fits⟩
        rw [isOk]
        exact ⟨⟨fun _ => hasRoom, fun _ => ⟨next, rfl⟩⟩,
          fun ⟨fault, ran⟩ => (nomatch ran), fun full => absurd hasRoom full⟩

end

/-- A Thumb function of six narrow instructions has no room for its places. -/
theorem six_narrow_instructions_do_not_fit :
    let process := Process.fresh (fun _ => 0) fun _ => 0
    ((∃ next, registerInlineHook (.granting 0x9000) 0x1001 0x2000 0 process =
          .ok (next, .ok)) ↔ HasRoom (.granting 0x9000) process 0x1001) ∧
      ((∃ fault, registerInlineHook (.granting 0x9000) 0x1001 0x2000 0 process =
          .error fault) ↔ ¬HasRoom (.granting 0x9000) process 0x1001) ∧
      ¬HasRoom (.granting 0x9000) process 0x1001 := by
  intro process
  obtain ⟨registers, stops⟩ :=
    @registerInlineHook_isOk_iff (.granting 0x9000) 0x1001 process 0x2000 0 rfl rfl
  exact ⟨registers, stops, fun ⟨_, _, _, fits⟩ => absurd fits (by decide)⟩

/-! ## Hooking one function after the other -/

/-- A function that is registered, hooked and unhooked. -/
structure Round where
  answers : Answers
  targetAddr : Word
  newAddr : Word
  protoAddr : Word

def Round.calls (round : Round) : List Call :=
  [.register round.answers round.targetAddr round.newAddr round.protoAddr,
    .hook round.targetAddr, .unHook round.targetAddr]

/-- An ARM function for which the system grants everything. -/
structure Round.Granted (round : Round) : Prop where
  grants : round.answers.Grants round.targetAddr round.newAddr
  page : round.answers.page.isSome = true
  arm : testBit0 round.targetAddr = false

/-- The number of places that the next item begins with. -/
def nextCount (info : InlineHookInfo) : Nat := (info.slot info.size).boundaries.count

section

variable {process next : Process} {round : Round}

/-- The abstract table does not remember a function that was hooked and unhooked. -/
theorem HookTable.round_eq (table : HookTable) {target : Word} (unknown : table target = none) :
    (((table.register true target).1.hook target).1.unHook target).1 = table := by
  have registered : (table.register true target).1 =
      Function.update table target (some .registered) := by
    rw [HookTable.register, if_pos rfl, unknown]
  rw [registered, HookTable.hook, Function.update_self]
  simp only [Function.update_idem]
  rw [HookTable.unHook, Function.update_self]
  simp only [Function.update_idem]
  rw [← unknown, Function.update_eq_self]

theorem Round.Granted.placeCount_eq (granted : round.Granted) (memory : Memory) :
    placeCount round.targetAddr (savedBytes memory round.targetAddr) = 2 := by
  rw [placeCount, savedBytes, granted.arm, if_neg Bool.false_ne_true, length_wordsOf,
    length_loadBytes]
  rfl

theorem Round.Granted.registers
    {answer : Option Ele7enStatus} (granted : round.Granted)
    (unknown : hookTable process.info round.targetAddr = none)
    (ran : call process (.register round.answers round.targetAddr round.newAddr
      round.protoAddr) = .ok (next, answer)) :
    ∃ page moved boundaries, Registers round.answers round.targetAddr round.newAddr
      round.protoAddr process next page moved boundaries := by
  rw [call] at ran
  cases result : registerInlineHook round.answers round.targetAddr round.newAddr
      round.protoAddr process with
  | error fault =>
      rw [result] at ran
      cases ran
  | ok outcome =>
      rw [result] at ran
      cases ran
      obtain ⟨refused, -⟩ |
          ⟨-, ⟨item, known, -⟩ | ⟨-, page, moved, boundaries, new⟩⟩ :=
        registerInlineHook_ok result
      · exact absurd granted.grants.executable refused
      · rw [Option.map_eq_none_iff.mp unknown] at known
        cases known
      · exact ⟨page, moved, boundaries, new⟩

/-- Hooking and unhooking the last item takes it out of the registry, but not out of its
slot. -/
theorem hook_unHook_last
    {position : Nat} (well : WellFormed process.info) (last : process.info.size = position + 1)
    (registered : (process.info.slot position).status = REGISTERED) :
    let target := (process.info.slot position).targetAddr
    let next := (inlineUnHook target (inlineHook target process).1).1
    next.info.size = position ∧
      nextCount next.info = (process.info.slot position).boundaries.count := by
  obtain ⟨hooks, slot, still, -⟩ := inlineUnHook_inlineHook well (by omega) registered
  obtain ⟨size, kept⟩ := unHooked_last_slot still last.symm (by rw [slot])
  rw [slot] at size kept
  intro target next
  have isNext : next = (inlineUnHook target (doInlineHook
      (freeze process (some (process.info.slot position)) .enable) position)).1 := by
    rw [show next = (inlineUnHook target (inlineHook target process).1).1 from rfl, hooks]
  rw [isNext, nextCount, size, kept]
  exact ⟨rfl, rfl⟩

/-- After a round the registry is as it was, but the slot behind its items has two more
places. -/
theorem Round.Granted.after
    (granted : round.Granted) (well : WellFormed process.info)
    (unknown : hookTable process.info round.targetAddr = none)
    (ran : run step process round.calls = .ok next) :
    WellFormed next.info ∧ next.info.size = process.info.size ∧
      hookTable next.info = hookTable process.info ∧
      nextCount next.info = nextCount process.info + 2 := by
  obtain ⟨first, stepped, ran⟩ := run_cons_eq_ok.mp ran
  obtain ⟨answer, called⟩ := step_eq_ok stepped
  obtain ⟨page, moved, boundaries, new⟩ := granted.registers unknown called
  have last : (inlineUnHook round.targetAddr (inlineHook round.targetAddr first).1).1 = next := by
    cases ran
    rfl
  obtain ⟨wellFirst, tableFirst⟩ := call_refines well called
  obtain ⟨wellSecond, tableSecond⟩ := inlineHook_refines round.targetAddr wellFirst
  obtain ⟨wellThird, tableThird⟩ := inlineUnHook_refines round.targetAddr wellSecond
  have table : hookTable next.info = hookTable process.info := by
    have one : hookTable first.info =
        ((hookTable process.info).register true round.targetAddr).1 := by
      have first := congrArg Prod.fst tableFirst
      rw [HookTable.call, granted.grants.executable] at first
      exact first
    have two : hookTable (inlineHook round.targetAddr first).1.info =
        ((hookTable first.info).hook round.targetAddr).1 := congrArg Prod.fst tableSecond
    have three : hookTable next.info = ((hookTable
        (inlineHook round.targetAddr first).1.info).unHook round.targetAddr).1 :=
      last ▸ congrArg Prod.fst tableThird
    rw [three, two, one, HookTable.round_eq _ unknown]
  have pushed : first.info.size = process.info.size + 1 := by
    rw [new.next]
    rfl
  have slot : first.info.slot process.info.size =
      { targetAddr := round.targetAddr, newAddr := round.newAddr, protoAddr := round.protoAddr,
        origInstructions := savedBytes process.memory round.targetAddr
        boundaries := boundaries, trampolineInstructions := page,
        length := if testBit0 round.targetAddr then 12 else 8, status := REGISTERED } := by
    rw [new.next]
    exact SlotTable.push_slot_size
  obtain ⟨size, count⟩ := hook_unHook_last wellFirst pushed (by rw [slot])
  rw [slot] at size count
  simp only [last] at size count
  refine ⟨last ▸ wellThird, size, table, count.trans ?_⟩
  rw [relocateInstruction_count (length_savedBytes _ _) new.relocated, nextCount]
  exact congrArg _ (granted.placeCount_eq process.memory)

/-- A round goes through exactly if there is room for two more places. -/
theorem Round.Granted.runs_iff
    (granted : round.Granted) (room : process.info.size < 1024)
    (unknown : hookTable process.info round.targetAddr = none) :
    (∃ next, run step process round.calls = .ok next) ↔ nextCount process.info + 2 ≤ 4 := by
  constructor
  · rintro ⟨next, ran⟩
    obtain ⟨first, stepped, -⟩ := run_cons_eq_ok.mp ran
    obtain ⟨answer, called⟩ := step_eq_ok stepped
    obtain ⟨page, moved, boundaries, new⟩ := granted.registers unknown called
    have fits := (relocateInstruction_isOk_iff _ _ _
      (length_savedBytes process.memory round.targetAddr)).mp ⟨_, new.relocated⟩
    rwa [granted.placeCount_eq] at fits
  · intro fits
    rw [nextCount, ← granted.placeCount_eq, ← relocateInstruction_isOk_iff
      (wordAt process.memory) _ _ (length_savedBytes process.memory round.targetAddr)] at fits
    obtain ⟨⟨moved, boundaries⟩, relocated⟩ := fits
    obtain ⟨page, mapped⟩ := Option.isSome_iff_exists.mp granted.page
    obtain ⟨next, ran, -⟩ := @registerInlineHook_of_grants round.answers process
      round.targetAddr round.newAddr round.protoAddr page moved boundaries granted.grants
      (Option.map_eq_none_iff.mp unknown) room mapped relocated
    have stepped : step process (.register round.answers round.targetAddr round.newAddr
        round.protoAddr) = .ok next := by
      rw [step, call, ran]
      rfl
    exact ⟨_, run_cons_eq_ok.mpr ⟨next, stepped, rfl⟩⟩

/-- One ARM function after the other can be registered, hooked and unhooked exactly as long
as the slot behind the items has room for two more places each time. -/
theorem rounds_run_iff
    {rounds : List Round} (granted : ∀ round ∈ rounds, round.Granted)
    (nonempty : 0 < rounds.length) (well : WellFormed process.info)
    (room : process.info.size < 1024)
    (unknown : ∀ round ∈ rounds, hookTable process.info round.targetAddr = none) :
    (∃ next, run step process (rounds.flatMap Round.calls) = .ok next) ↔
      nextCount process.info + 2 * rounds.length ≤ 4 := by
  induction rounds generalizing process with
  | nil => exact absurd nonempty (Nat.lt_irrefl 0)
  | cons round rounds hypothesis =>
      have here := granted round List.mem_cons_self
      have unknownHere := unknown round List.mem_cons_self
      have single := here.runs_iff room unknownHere
      -- the later rounds find the registry as it was, with two more places
      have rest : ∀ middle, run step process round.calls = .ok middle -> 0 < rounds.length ->
          ((∃ next, run step middle (rounds.flatMap Round.calls) = .ok next) ↔
            nextCount process.info + 2 + 2 * rounds.length ≤ 4) := by
        intro middle first more
        obtain ⟨wellMiddle, size, table, count⟩ := here.after well unknownHere first
        rw [← count]
        refine hypothesis (fun later member => granted later (List.mem_cons_of_mem _ member))
          more wellMiddle (size ▸ room) fun later member => ?_
        rw [table]
        exact unknown later (List.mem_cons_of_mem _ member)
      rw [List.flatMap_cons, List.length_cons]
      constructor
      · rintro ⟨next, ran⟩
        obtain ⟨middle, first, later⟩ := run_append_eq_ok.mp ran
        have fits := single.mp ⟨middle, first⟩
        by_cases more : 0 < rounds.length
        · have fitsMore := (rest middle first more).mp ⟨next, later⟩
          omega
        · omega
      · intro fits
        obtain ⟨middle, first⟩ := single.mpr (by omega)
        rw [run_append first]
        by_cases more : 0 < rounds.length
        · exact (rest middle first more).mpr (by omega)
        · rw [List.length_eq_zero_iff.mp (Nat.eq_zero_of_not_pos more)]
          exact ⟨middle, rfl⟩

end

/-- Three rounds in a process that has just begun. -/
theorem three_rounds_do_not_fit :
    let round : Round := ⟨.granting 0x9000, 0x1000, 0x2000, 0⟩
    let process := Process.fresh (fun _ => 0) fun _ => 0
    (∃ next, run step process ([round, round, round].flatMap Round.calls) = .ok next) ↔
      nextCount process.info + 2 * [round, round, round].length ≤ 4 := by
  intro round process
  have granted : round.Granted := ⟨⟨rfl, rfl⟩, rfl, by decide⟩
  refine rounds_run_iff (fun other member => ?_) (by decide) (wellFormed_fresh _ _) (by decide)
    fun _ _ => rfl
  simp only [List.mem_cons, List.not_mem_nil, or_false, or_self] at member
  exact member ▸ granted

end HookEngine
end UnityLocalization
