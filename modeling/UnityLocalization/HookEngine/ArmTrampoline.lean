import UnityLocalization.HookEngine.ArmMeaning
import UnityLocalization.Library.MovedCode

/-!
# ARM trampolines

The places that are noted for the moved instructions, and what a run of the whole
trampoline does.
-/

namespace UnityLocalization
namespace HookEngine

open CMemory WordMemory Arm MovedCode

/-- The words for a list of instructions. -/
def movedWords (load : Word -> Word) : (pc : Word) -> (instructions : List Word) -> List Word
  | _, [] => []
  | pc, instruction :: instructions =>
      relocateArm load pc instruction ++ movedWords load (pc + 4) instructions

/-! ## The noted places -/

/-- The places that are noted for ARM instructions. -/
def ArmNotes
    (load : Word -> Word) (pc : Word) (origPos trampolinePos : Nat)
    (instructions : List Word) : Boundaries -> Boundaries -> Prop :=
  Notes (fun index => (origPos + index) * 4)
    (fun index => (trampolinePos + (movedWords load pc (instructions.take index)).length) * 4)
    instructions.length

section

variable {load : Word -> Word} {pc : Word} {origPos trampolinePos : Nat}
  {instructions : List Word} {before : Boundaries}

/-- The loop writes the words and notes the places while there is room for them. -/
theorem relocateArmLoop_eq (fits : before.count + instructions.length ≤ 4) :
    ∃ after,
      relocateArmLoop load pc origPos trampolinePos instructions before =
        .ok (movedWords load pc instructions, after) ∧
      ArmNotes load pc origPos trampolinePos instructions before after := by
  induction instructions generalizing pc origPos trampolinePos before with
  | nil => exact ⟨before, rfl, Notes.none _ _ before⟩
  | cons instruction instructions hypothesis =>
      rw [List.length_cons] at fits
      obtain ⟨noted, recorded, first⟩ :=
        record_eq before (origPos * 4) (trampolinePos * 4) (by omega)
      have one := first.count
      obtain ⟨after, looped, later⟩ := @hypothesis (pc + 4) (origPos + 1)
        (trampolinePos + (relocateArm load pc instruction).length) noted (by omega)
      refine ⟨after, ?_, Notes.cons first ?_⟩
      · rw [relocateArmLoop, recorded, ok_bind]
        simp only [looped, ok_bind]
        rfl
      · simpa only [ArmNotes, List.take_succ_cons, movedWords, List.length_append,
          Nat.add_assoc, Nat.add_comm 1] using later

/-- A place that does not fit is written behind the array. -/
theorem relocateArmLoop_full
    (nonempty : 0 < instructions.length) (full : 4 < before.count + instructions.length) :
    relocateArmLoop load pc origPos trampolinePos instructions before =
      .error .outOfBounds := by
  induction instructions generalizing pc origPos trampolinePos before with
  | nil => exact absurd nonempty (Nat.lt_irrefl 0)
  | cons instruction instructions hypothesis =>
      rw [List.length_cons] at full
      rw [relocateArmLoop]
      by_cases room : before.count < 4
      · obtain ⟨noted, recorded, first⟩ :=
          record_eq before (origPos * 4) (trampolinePos * 4) room
        have one := first.count
        rw [recorded, ok_bind]
        simp only [@hypothesis (pc + 4) (origPos + 1) _ noted (by omega) (by omega),
          error_bind]
      · rw [record_full (Nat.not_lt.mp room), error_bind]

end

/-! ## Running the trampoline -/

/-- No instruction that is executed writes to the `size` bytes of the trampoline or has
its stack there, and the literals are still what they were when they were read. -/
def Undisturbed (others : Others) (load : Word -> Word) (start : Word) (size : Nat) :
    (place a : Word) -> (instructions : List Word) -> Core -> Prop
  | _, _, [], _ => True
  | place, a, instruction :: instructions, core =>
      let after := a + movedSize load place instruction
      let result := moved others place after instruction core
      (getTypeInArm instruction = .ldrArm ->
          load (literalAddress place instruction) =
            wordAt core.memory (literalAddress place instruction)) ∧
        (getTypeInArm instruction = .addArm -> Apart start size (core.register sp - 4) 4) ∧
        (∀ here, InRange start size here -> result.1.memory here = core.memory here) ∧
        (result.2 = .behind ->
          Undisturbed others load start size (place + 4) after instructions result.1)

section

variable {others : Others} {load : Word -> Word} {start place a : Word} {core : Core}
  {instructions : List Word}

/-- The words of a trampoline: those for the instructions and the jump back. -/
def trampolineWords (load : Word -> Word) (target : Word) (instructions : List Word) :
    List Word :=
  movedWords load (target + 8) instructions ++
    [0xE51FF004, target + BitVec.ofNat 32 (4 * instructions.length)]

theorem place_succ (place : Word) (index : Nat) :
    place + BitVec.ofNat 32 (4 * (index + 1)) = place + 4 + BitVec.ofNat 32 (4 * index) := by
  rw [Nat.mul_add, BitVec.ofNat_add, BitVec.add_comm (BitVec.ofNat 32 _), ← BitVec.add_assoc]
  rfl

theorem trampolineWords_cons (load : Word -> Word) (place instruction : Word)
    (instructions : List Word) :
    trampolineWords load place (instruction :: instructions) =
      relocateArm load (place + 8) instruction ++
        trampolineWords load (place + 4) instructions := by
  have next : place + 8 + 4 = place + 4 + 8 := by bv_omega
  rw [trampolineWords, movedWords, List.length_cons, next, place_succ, List.append_assoc]
  rfl

theorem aligned_add (aligned : a.toNat % 4 = 0) (words : Nat) :
    (a + BitVec.ofNat 32 (4 * words)).toNat % 4 = 0 := by
  rw [BitVec.toNat_add, BitVec.toNat_ofNat]
  omega

end

/-! ## The instructions at their own place -/

/-- The instructions one after the other at their own place, until one of them branches
away. -/
def runOriginal (others : Others) :
    (place : Word) -> (instructions : List Word) -> Core -> Machine
  | place, [], core => ⟨core, place, false⟩
  | place, instruction :: instructions, core =>
      let result := perform others place instruction core
      match result.2 with
      | .behind => runOriginal others (place + 4) instructions result.1
      | .branch address thumb => ⟨result.1, address, thumb⟩

/-- Every instruction that is reached keeps its condition or meets it. -/
def Executed (others : Others) : (place : Word) -> (instructions : List Word) -> Core -> Prop
  | _, [], _ => True
  | place, instruction :: instructions, core =>
      let result := perform others place instruction core
      (KeepsCondition instruction ∨ core.flags.passes (condition instruction) = true) ∧
        (result.2 = .behind -> Executed others (place + 4) instructions result.1)

/-- The place behind the words for the first instructions. -/
def movedPlace (load : Word -> Word) (place a : Word) (instructions : List Word)
    (index : Nat) : Word :=
  a + BitVec.ofNat 32 (4 * (movedWords load (place + 8) (instructions.take index)).length)

/-- The final state of a trampoline: that of the instructions themselves, or one where a
call will return to the trampoline. -/
def Follows (load : Word -> Word) (place a : Word) (instructions : List Word)
    (original final : Machine) : Prop :=
  final = original ∨
    ∃ index ≤ instructions.length,
      original.core.register lr = place + BitVec.ofNat 32 (4 * index) ∧
      final = { original with
        core := original.core.set lr (movedPlace load place a instructions index) }

section

variable {others : Others} {load : Word -> Word} {place a : Word} {core : Core}
  {instruction : Word} {instructions : List Word}

/-- A call leaves the block, and anything else is executed as it is. -/
theorem moved_eq_perform
    (after : Word) (noAdd : getTypeInArm instruction ≠ .addArm)
    (executed : KeepsCondition instruction ∨ core.flags.passes (condition instruction) = true) :
    moved others place after instruction core = perform others place instruction core ∨
      ∃ address thumb,
        perform others place instruction core =
          (core.set lr (place + 4), .branch address thumb) ∧
        moved others place after instruction core =
          (core.set lr after, .branch address thumb) := by
  have same := intended_eq_perform others place executed
  have known := getTypeInArm_matches instruction
  rw [← same]
  cases kind : getTypeInArm instruction with
  | blxArm =>
      simp only [kind] at known
      refine .inr ⟨place + 8 + (instruction.extractLsb' 0 24 ++
        instruction.extractLsb' 24 1 ++ 0#1).signExtend 32, true, ?_, ?_⟩
      · simp only [intended, kind, decode_blx known, Instruction.execute]
      · simp only [moved, intended, kind, decode_blx known, Instruction.execute, Core.set_set]
  | blArm =>
      simp only [kind] at known
      refine .inr
        ⟨place + 8 + wordOffset (instruction.extractLsb' 0 24), false, ?_, ?_⟩
      · simp only [intended, kind, decode_bl known.1 known.2, Instruction.execute]
      · simp only [moved, intended, kind, decode_bl known.1 known.2, Instruction.execute,
          Core.set_set]
  | addArm => exact absurd kind noAdd
  | _ =>
      left
      simp only [moved, kind]

theorem movedPlace_succ (load : Word -> Word) (place a instruction : Word)
    (instructions : List Word) (index : Nat) :
    movedPlace load place a (instruction :: instructions) (index + 1) =
      movedPlace load (place + 4) (a + movedSize load place instruction) instructions
        index := by
  have next : place + 8 + 4 = place + 4 + 8 := by bv_omega
  rw [movedPlace, movedPlace, List.take_succ_cons, movedWords, next, List.length_append,
    Nat.mul_add, BitVec.ofNat_add, movedSize, ← BitVec.add_assoc]

theorem movedPlace_one (load : Word -> Word) (place a instruction : Word)
    (instructions : List Word) :
    movedPlace load place a (instruction :: instructions) 1 =
      a + movedSize load place instruction := by
  rw [movedPlace_succ, movedPlace, List.take_zero]
  exact BitVec.add_zero _

/-! ## The trampoline as moved code -/

/-- How the engine moves ARM instructions. -/
def armMove (others : Others) (load : Word -> Word) : Move Word where
  thumb := false
  size _ := 4
  perform := perform others
  code place instruction := (relocateArm load (place + 8) instruction).flatMap wordBytes
  moved := moved others
  back place := [(0xE51FF004 : Word), place].flatMap wordBytes

/-- What is asked of an instruction when it is reached. -/
structure ArmKeeps
    (others : Others) (load : Word -> Word) (start : Word) (size : Nat)
    (place instruction : Word) (core : Core) : Prop where
  placed : place.toNat % 4 = 0
  supported : Supported others instruction ∧ getTypeInArm instruction ≠ .addArm
  executed : KeepsCondition instruction ∨ core.flags.passes (condition instruction) = true
  literal : getTypeInArm instruction = .ldrArm ->
    load (literalAddress place instruction) =
      wordAt core.memory (literalAddress place instruction)
  unchanged : ∀ here, InRange start size here ->
    (perform others place instruction core).1.memory here = core.memory here

theorem armMove_after (place a instruction : Word) :
    (armMove others load).after place a instruction =
      a + movedSize load place instruction := by
  rw [Move.after, armMove, length_flatMap_wordBytes]
  rfl

theorem armMove_bytes (place : Word) (instructions : List Word) :
    (armMove others load).bytes place instructions =
      (trampolineWords load place instructions).flatMap wordBytes := by
  induction instructions generalizing place with
  | nil =>
      have home : place + BitVec.ofNat 32 (4 * 0) = place := BitVec.add_zero place
      rw [trampolineWords, List.length_nil, home]
      rfl
  | cons instruction instructions hypothesis =>
      rw [trampolineWords_cons, List.flatMap_append]
      exact congrArg _ (hypothesis (place + 4))

theorem armMove_origin {index : Nat} (inside : index ≤ instructions.length) :
    (armMove others load).origin place instructions index =
      place + BitVec.ofNat 32 (4 * index) := by
  induction index generalizing place instructions with
  | zero => exact (Move.origin_zero _ _).trans (BitVec.add_zero place).symm
  | succ index hypothesis =>
      cases instructions with
      | nil => exact absurd inside (Nat.not_succ_le_zero index)
      | cons instruction instructions =>
          rw [place_succ]
          exact hypothesis (Nat.le_of_succ_le_succ inside)

theorem armMove_destination {index : Nat} (inside : index ≤ instructions.length) :
    (armMove others load).destination place a instructions index =
      movedPlace load place a instructions index := by
  induction index generalizing place a instructions with
  | zero => exact (Move.destination_zero _ _ _).trans (BitVec.add_zero a).symm
  | succ index hypothesis =>
      cases instructions with
      | nil => exact absurd inside (Nat.not_succ_le_zero index)
      | cons instruction instructions =>
          rw [movedPlace_succ, ← @armMove_after others]
          exact hypothesis (Nat.le_of_succ_le_succ inside)

theorem armMove_run (place : Word) (instructions : List Word) (core : Core) :
    (armMove others load).run place instructions core =
      runOriginal others place instructions core := by
  induction instructions generalizing place core with
  | nil => rfl
  | cons instruction instructions hypothesis =>
      rw [runOriginal, ← hypothesis]
      rfl

theorem follows_of_armMove
    {original final : Machine}
    (follows : (armMove others load).Follows place a instructions original final) :
    Follows load place a instructions original final := by
  obtain same | ⟨index, inside, link, relinked⟩ := follows
  · exact .inl same
  · rw [armMove_origin inside] at link
    rw [armMove_destination inside] at relinked
    exact .inr ⟨index, inside, link, relinked⟩

theorem armMove_faithful (others : Others) (load : Word -> Word) (start : Word) (size : Nat) :
    (armMove others load).Faithful others start size (ArmKeeps others load start size) where
  even _ := show 4 % 2 = 0 by decide
  aligned place instruction := by
    rw [armMove, length_flatMap_wordBytes]
    exact Nat.mul_mod_right 4 _
  runs {place a instruction core} keeps aligned holds _ := by
    have here : IsMoved others load place a instruction core :=
      { supported := keeps.supported.1
        placed := keeps.placed
        aligned := aligned
        code := holdsWords_of_bytes holds
        literal := keeps.literal
        stack := fun kind => absurd kind keeps.supported.2 }
    rw [Move.Runs, armMove_after, armMove, length_flatMap_wordBytes]
    exact here.runs
  agrees keeps after := moved_eq_perform after keeps.supported.2 keeps.executed
  frame keeps := keeps.unchanged
  leadsBack {place a core} placed _ holds := by
    have jumped := @reaches_jump others core a place (holdsWords_of_bytes holds)
    rwa [exchange_even placed] at jumped

/-- Up to a branch the moved instructions pass through the states of the original ones. -/
theorem armKeeps_along
    {start : Word} {size : Nat} (placed : place.toNat % 4 = 0)
    (supported : ∀ instruction ∈ instructions,
      Supported others instruction ∧ getTypeInArm instruction ≠ .addArm)
    (undisturbed : Undisturbed others load start size place a instructions core)
    (executed : Executed others place instructions core) :
    (armMove others load).Along (ArmKeeps others load start size) place instructions core := by
  induction instructions generalizing place a core with
  | nil => trivial
  | cons instruction instructions hypothesis =>
      obtain ⟨literal, -, unchanged, later⟩ := undisturbed
      obtain ⟨here, more⟩ := executed
      have supportedHere := supported _ List.mem_cons_self
      obtain same | ⟨address, thumb, original, -⟩ :=
        moved_eq_perform (a + movedSize load place instruction) supportedHere.2 here
      · rw [same] at unchanged later
        refine ⟨⟨placed, supportedHere, here, literal, unchanged⟩, fun behind => ?_⟩
        exact hypothesis (aligned_add placed 1)
          (fun other member => supported _ (List.mem_cons_of_mem _ member)) (later behind)
          (more behind)
      · refine ⟨⟨placed, supportedHere, here, literal, fun _ _ => ?_⟩, ?_⟩
        · rw [original]
          rfl
        intro behind
        change (perform others place instruction core).2 = .behind at behind
        rw [original] at behind
        cases behind

end

theorem length_relocateArm_le (load : Word -> Word) (pc instruction : Word) :
    (relocateArm load pc instruction).length ≤ 6 := by
  rw [relocateArm]
  split <;> simp

theorem length_movedWords_le (load : Word -> Word) (pc : Word) (instructions : List Word) :
    (movedWords load pc instructions).length ≤ 6 * instructions.length := by
  induction instructions generalizing pc with
  | nil => exact Nat.le_refl 0
  | cons instruction instructions hypothesis =>
      have one := length_relocateArm_le load pc instruction
      have more := hypothesis (pc + 4)
      rw [movedWords, List.length_append, List.length_cons]
      omega

/-- What `relocateInstructionInArm` has written and noted. -/
theorem relocateInstructionInArm_ok
    {load : Word -> Word} {target : Word} {instructions words : List Word}
    {before noted : Boundaries} (nonempty : 0 < instructions.length)
    (relocated : relocateInstructionInArm load target instructions before =
      .ok (words, noted)) :
    words = trampolineWords load target instructions ∧
      before.count + instructions.length ≤ 4 ∧
      ArmNotes load (target + 8) 0 0 instructions before noted := by
  rw [relocateInstructionInArm] at relocated
  by_cases fits : before.count + instructions.length ≤ 4
  · obtain ⟨after, looped, notes⟩ := @relocateArmLoop_eq load (target + 8) 0 0 _ _ fits
    rw [looped, ok_bind] at relocated
    cases relocated
    exact ⟨rfl, fits, notes⟩
  · rw [relocateArmLoop_full nonempty (Nat.not_le.mp fits), error_bind] at relocated
    cases relocated

/-- Execution that enters the moved instructions at `a` ends as the instructions would end
at `place`; only a call returns to the trampoline. -/
def StandsFor
    (others : Others) (load : Word -> Word) (place a : Word) (instructions : List Word)
    (core : Core) : Prop :=
  ∃ final,
    Reaches others ⟨core, a, false⟩ final ∧
    Follows load place a instructions (runOriginal others place instructions core) final

theorem length_trampolineWords_le
    (load : Word -> Word) (target : Word) (instructions : List Word) :
    (trampolineWords load target instructions).length ≤ 6 * instructions.length + 2 := by
  rw [trampolineWords, List.length_append]
  exact Nat.add_le_add_right (length_movedWords_le load (target + 8) instructions) 2

section

variable {others : Others} {load : Word -> Word} {target a : Word} {core : Core}
  {instructions words : List Word} {before noted : Boundaries} {index size : Nat}

theorem standsFor_of_words
    (few : instructions.length ≤ 4) (inside : index ≤ instructions.length)
    (placed : target.toNat % 4 = 0) (aligned : a.toNat % 4 = 0)
    (supported : ∀ instruction ∈ instructions,
      Supported others instruction ∧ getTypeInArm instruction ≠ .addArm)
    (code : HoldsWords core.memory a (trampolineWords load target instructions))
    (room : 4 * (trampolineWords load target instructions).length ≤ size)
    (undisturbed : Undisturbed others load a size
      (target + BitVec.ofNat 32 (4 * index)) (movedPlace load target a instructions index)
      (instructions.drop index) core)
    (executed : Executed others (target + BitVec.ofNat 32 (4 * index))
      (instructions.drop index) core) :
    StandsFor others load (target + BitVec.ofNat 32 (4 * index))
      (movedPlace load target a instructions index) (instructions.drop index) core := by
  have short := length_trampolineWords_le load target instructions
  have length : ((armMove others load).bytes target instructions).length =
      4 * (trampolineWords load target instructions).length := by
    rw [armMove_bytes, length_flatMap_wordBytes]
  have holds : HoldsBytes core.memory a ((armMove others load).bytes target instructions) := by
    rw [armMove_bytes]
    exact holdsBytes_of_words code
  have even : target.toNat % 2 = 0 := by omega
  have along := armKeeps_along (aligned_add placed index)
    (fun _ here => supported _ (List.mem_of_mem_drop here)) undisturbed executed
  rw [← @armMove_origin others load _ _ _ inside] at along
  obtain ⟨final, reached, follows⟩ :=
    (armMove_faithful others load a size).standsFor inside along
    even aligned (by omega) (fun _ within => within.weaken (by omega)) holds
  rw [armMove_origin inside, armMove_destination inside, armMove_run] at follows
  rw [armMove_destination inside] at reached
  exact ⟨final, reached, follows_of_armMove follows⟩

/-- Execution that enters the trampoline at one of its instructions, or behind the last
one, ends as the instructions from there on end at their own place. -/
theorem trampoline_preserves_meaning
    (relocated : relocateInstructionInArm load target instructions before =
      .ok (words, noted))
    (nonempty : 0 < instructions.length) (inside : index ≤ instructions.length)
    (placed : target.toNat % 4 = 0) (aligned : a.toNat % 4 = 0)
    (supported : ∀ instruction ∈ instructions,
      Supported others instruction ∧ getTypeInArm instruction ≠ .addArm)
    (code : HoldsWords core.memory a words) (room : 4 * words.length ≤ size)
    (undisturbed : Undisturbed others load a size
      (target + BitVec.ofNat 32 (4 * index)) (movedPlace load target a instructions index)
      (instructions.drop index) core)
    (executed : Executed others (target + BitVec.ofNat 32 (4 * index))
      (instructions.drop index) core) :
    StandsFor others load (target + BitVec.ofNat 32 (4 * index))
      (movedPlace load target a instructions index) (instructions.drop index) core := by
  obtain ⟨rfl, fits, -⟩ := relocateInstructionInArm_ok nonempty relocated
  exact standsFor_of_words (by omega) inside placed aligned supported code room undisturbed
    executed

end

/-- A trampoline for a move between registers and a call. -/
theorem trampoline_of_call_preserves_meaning :
    let others : Others := fun _ _ core => (core, .behind)
    let load : Word -> Word := fun _ => 0
    let core : Core := ⟨fun _ => 0, ⟨false, false, false, false⟩,
      storeWords (fun _ => 0) 0x2000 (trampolineWords load 0x1000 [0xE1A00001, 0xEB000000])⟩
    StandsFor others load (0x1000 + BitVec.ofNat 32 (4 * 0))
      (movedPlace load 0x1000 0x2000 [0xE1A00001, 0xEB000000] 0) [0xE1A00001, 0xEB000000]
      core := by
  intro others load core
  have places : ∀ instruction ∈ [(0xE1A00001 : Word), 0xEB000000],
      Supported others instruction ∧ getTypeInArm instruction ≠ .addArm := by
    simp only [List.mem_cons, List.not_mem_nil, or_false, forall_eq_or_imp, forall_eq]
    exact ⟨⟨fun _ _ _ => rfl, by decide⟩, trivial, by decide⟩
  refine @trampoline_preserves_meaning others load 0x1000 0x2000 core _ _ .unused _ 0 4096 rfl
    (by decide) (by decide) (by decide) (by decide) places (storeWords_holds _ _ (by decide))
    (by decide) ?_ ?_
  · refine ⟨fun kind => absurd kind (by decide), fun kind => absurd kind (by decide),
      fun _ _ => rfl, fun _ => ⟨fun kind => absurd kind (by decide),
        fun kind => absurd kind (by decide), fun _ _ => rfl, fun _ => trivial⟩⟩
  · exact ⟨.inl (.inr rfl), fun _ => ⟨.inr rfl, fun _ => trivial⟩⟩

end HookEngine
end UnityLocalization
