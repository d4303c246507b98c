import UnityLocalization.HookEngine.ArmWords

/-!
# What moved ARM instructions do

The words that stand for a moved instruction do what the instruction did at its own
place, if its condition holds.  Only the return address of a call and a word below the
stack differ.
-/

namespace UnityLocalization
namespace HookEngine

open WordMemory Arm

/-- The register that the words for a moved addition use. -/
def scratch (instruction : Word) : Register :=
  (freeRegister ((instruction &&& 0xF000) >>> 12) (instruction &&& 0xF) 12).setWidth 4

theorem scratch_spec (instruction : Word) :
    freeRegister ((instruction &&& 0xF000) >>> 12) (instruction &&& 0xF) 12 =
        (scratch instruction).setWidth 32 ∧
      scratch instruction ≠ instruction.extractLsb' 12 4 ∧
      scratch instruction ≠ instruction.extractLsb' 0 4 ∧
      scratch instruction ≠ sp ∧ scratch instruction ≠ pc := by
  have second : instruction &&& 0xF = (instruction.extractLsb' 0 4).setWidth 32 :=
    and_mask instruction 4
  obtain ⟨r, found, notRd, notRm, notSp, -, notPc⟩ :=
    freeRegister_spec (instruction.extractLsb' 12 4) (instruction.extractLsb' 0 4)
  have named : scratch instruction = r := by
    rw [scratch, register_field, second, found, BitVec.setWidth_setWidth_of_le _ (by decide),
      BitVec.setWidth_eq]
  rw [named, register_field, second]
  exact ⟨found, notRd, notRm, notSp, notPc⟩

/-! ## Every instruction -/

/-- What an instruction does at its place if its condition holds.  Only the words that
keep the instruction ask for its condition. -/
def intended (others : Others) (place instruction : Word) (core : Core) : Core × Next :=
  match getTypeInArm instruction with
  | .addArm | .undefine => perform others place instruction core
  | _ =>
      match decode instruction with
      | some decoded => decoded.execute place core
      | none => others place instruction core

/-- What the moved words do if `after` is the place behind them. -/
def moved (others : Others) (place after instruction : Word) (core : Core) : Core × Next :=
  let (final, next) := intended others place instruction core
  match getTypeInArm instruction with
  | .blxArm | .blArm => (final.set lr after, next)
  | .addArm =>
      ({ final with
        memory := storeBytes core.memory (core.register sp - 4)
          (wordBytes (core.register (scratch instruction))) }, next)
  | _ => (final, next)

/-- The address of the word that a load relative to the place reads. -/
def literalAddress (place instruction : Word) : Word :=
  offsetAddress (instruction.getLsbD 23) (place + 8) (instruction.extractLsb' 0 12)

/-- Neither the stack nor the place. -/
def IsPlain (r : Register) : Prop := r ≠ sp ∧ r ≠ pc

/-- The instructions that are moved without a change of meaning. -/
def Supported (others : Others) (instruction : Word) : Prop :=
  match getTypeInArm instruction with
  | .bxArm => decode instruction = some (.bx pc)
  | .addArm =>
      Conditional instruction ∧ IsPlain (instruction.extractLsb' 12 4) ∧
        IsPlain (instruction.extractLsb' 0 4)
  | .adr1Arm | .adr2Arm =>
      -- the constant is taken as it stands, without its rotation
      Conditional instruction ∧
        expandImmediate (instruction.extractLsb' 0 12) = (instruction.extractLsb' 0 12).setWidth 32
  | .ldrArm =>
      Conditional instruction ∧ instruction.getLsbD 24 = true ∧ instruction.getLsbD 21 = false
  | .movArm => decode instruction = some (.mov (instruction.extractLsb' 12 4) pc)
  | .undefine => ∀ place other core,
      perform others place instruction core = perform others other instruction core
  | _ => True

/-- The words for the instruction from `place` stand at `a`, and nothing they use has
changed. -/
structure IsMoved
    (others : Others) (load : Word -> Word) (place a instruction : Word) (core : Core) :
    Prop where
  supported : Supported others instruction
  placed : place.toNat % 4 = 0
  aligned : a.toNat % 4 = 0
  code : HoldsWords core.memory a (relocateArm load (place + 8) instruction)
  literal : getTypeInArm instruction = .ldrArm ->
    load (literalAddress place instruction) =
      wordAt core.memory (literalAddress place instruction)
  stack : getTypeInArm instruction = .addArm -> Apart a 24 (core.register sp - 4) 4

/-- The size of the words for an instruction. -/
def movedSize (load : Word -> Word) (place instruction : Word) : Word :=
  BitVec.ofNat 32 (4 * (relocateArm load (place + 8) instruction).length)

/-- Execution of the moved words does what `moved` says. -/
def RunsAsMoved
    (others : Others) (load : Word -> Word) (place a instruction : Word) (core : Core) : Prop :=
  let size := movedSize load place instruction
  let result := moved others place (a + size) instruction core
  Reaches others ⟨core, a, false⟩ (result.2.follow a size false result.1)

section

variable {others : Others} {load : Word -> Word} {place a instruction : Word} {core : Core}

theorem RunsAsMoved.intro
    {words : List Word} {size : Word} {result : Core × Next}
    (written : relocateArm load (place + 8) instruction = words)
    (does : moved others place (a + size) instruction core = result)
    (sized : BitVec.ofNat 32 (4 * words.length) = size)
    (run : HoldsWords core.memory a words ->
      Reaches others ⟨core, a, false⟩ (result.2.follow a size false result.1))
    (here : IsMoved others load place a instruction core) :
    RunsAsMoved others load place a instruction core := by
  have measured : movedSize load place instruction = size := by
    rw [movedSize, written, sized]
  rw [RunsAsMoved, measured, does]
  exact run (written ▸ here.code)

/-- Register 15 as the first operand of a word. -/
theorem operand_pc {mask value : Word} (known : Matches mask value instruction)
    (asked : mask &&& 0x000F0000 = 0x000F0000 := by decide)
    (given : value &&& 0x000F0000 = 0x000F0000 := by decide) :
    instruction.extractLsb' 16 4 = pc := by
  have masked : instruction &&& 0x000F0000 = 0x000F0000 := by
    have weak := known.weaken asked
    rwa [given] at weak
  have field := shiftRight_and_mask instruction 16 4
  have shifted : instruction >>> 16 &&& (BitVec.allOnes 4).setWidth 32 =
      (instruction &&& 0x000F0000) >>> 16 := by
    rw [BitVec.ushiftRight_and_distrib]
    rfl
  rw [shifted, masked] at field
  apply BitVec.eq_of_toNat_eq
  have value := congrArg BitVec.toNat field
  rw [BitVec.toNat_setWidth, Nat.mod_eq_of_lt (by omega)] at value
  exact value.symm

theorem immediate_field (instruction : Word) :
    instruction &&& 0xFFF = (instruction.extractLsb' 0 12).setWidth 32 :=
  and_mask instruction 12

/-- The address of a literal as the source computes it. -/
theorem literal_value (load : Word -> Word) (place instruction : Word) :
    (if (instruction &&& 0x800000) >>> 23 ≠ 0 then load (place + 8 + (instruction &&& 0xFFF))
      else load (place + 8 - (instruction &&& 0xFFF))) =
      load (literalAddress place instruction) := by
  have power : (0x800000 : Word) = BitVec.twoPow 32 23 := by decide
  rw [immediate_field, power, BitVec.and_twoPow, literalAddress, offsetAddress]
  cases instruction.getLsbD 23 with
  | false => exact if_neg (not_not.mpr rfl)
  | true => exact if_pos (by decide)

variable (others place core) in
/-- An addition does the same with the value of register 15 in another register. -/
theorem perform_in_bracket
    {word : Word} {setFlags : Bool} {rd rm r : Register} {kind : BitVec 2} {imm5 : BitVec 5}
    (decoded : decode instruction = some (.add setFlags rd pc rm kind imm5))
    (decodedWord : decode word = some (.add setFlags rd r rm kind imm5))
    (sameCondition : condition word = condition instruction)
    (rdPlain : IsPlain rd) (rmPlain : IsPlain rm)
    (notRd : r ≠ rd) (notRm : r ≠ rm) (notPc : r ≠ pc) (elsewhere : Word) :
    ∃ sum flags,
      perform others place instruction core =
        ({ core.set rd sum with flags := flags }, .behind) ∧
      perform others elsewhere word ((core.push r).set r (place + 8)) =
        ({ ((core.push r).set r (place + 8)).set rd sum with flags := flags }, .behind) := by
  rw [perform, perform, decoded, decodedWord, sameCondition]
  by_cases holds : core.flags.passes (condition instruction) = true
  · let right := shifted kind imm5 core.flags.c (core.register rm)
    refine ⟨place + 8 + right,
      if setFlags then additionFlags (place + 8) right else core.flags, ?_, ?_⟩
    · simp only [holds, if_true, Instruction.execute, Core.read_pc, Core.read_of_ne rmPlain.2,
        Core.write_of_ne rdPlain.2, Core.set, right]
    · simp only [Core.set_flags, Core.push_flags, holds, if_true, Instruction.execute,
        Core.read_of_ne notPc, Core.set_same, Core.read_of_ne rmPlain.2,
        Core.set_other notRm.symm, Core.push_other rmPlain.1, Core.write_of_ne rdPlain.2]
      rfl
  · refine ⟨core.register rd, core.flags, ?_, ?_⟩
    · simp only [holds, Core.set_self]
      rfl
    · have kept : ((core.push r).set r (place + 8)).register rd = core.register rd := by
        rw [Core.set_other notRd.symm, Core.push_other rdPlain.1]
      simp only [Core.set_flags, Core.push_flags, holds]
      rw [← kept, Core.set_self]
      rfl

/-- The used register and the stack are as they were. -/
theorem restored
    {rd r : Register} (rdPlain : IsPlain rd) (notRd : r ≠ rd)
    (value sum : Word) (flags : Flags) :
    (({ ((core.push r).set r value).set rd sum with flags := flags } : Core).set sp
        (core.register sp)).set r (core.register r) =
      { core.set rd sum with flags := flags, memory := (core.push r).memory } := by
  apply Core.ext
  · funext other
    by_cases isUsed : other = r
    · rw [isUsed, Core.set_same]
      exact (Core.set_other notRd core sum).symm
    · rw [Core.set_other isUsed]
      by_cases isSp : other = sp
      · rw [isSp, Core.set_same]
        exact (Core.set_other rdPlain.1.symm core sum).symm
      · rw [Core.set_other isSp]
        by_cases isRd : other = rd
        · subst isRd
          exact (Core.set_same _ _ sum).trans (Core.set_same core _ sum).symm
        · have untouched := Core.set_other isRd ((core.push r).set r value) sum
          rw [Core.set_other isUsed, Core.push_other isSp] at untouched
          exact untouched.trans (Core.set_other isRd core sum).symm
  · rfl
  · rfl

namespace IsMoved

theorem evenTarget
    (here : IsMoved others load place a instruction core) {size : Nat} (field : BitVec size)
    (zeros : Nat) :
    (place + 8 + (field ++ BitVec.ofNat (zeros + 1) 0).signExtend 32).toNat % 2 = 0 := by
  have placed := here.placed
  have evenPlace : (place + 8).toNat % 2 = 0 := by bv_omega
  exact even_add evenPlace (append_zeros_low field zeros)

theorem runs_blx
    (here : IsMoved others load place a instruction core)
    (kind : getTypeInArm instruction = .blxArm) :
    RunsAsMoved others load place a instruction core := by
  have known := getTypeInArm_matches instruction
  simp only [kind] at known
  let offset : Word := (instruction.extractLsb' 0 24 ++ instruction.extractLsb' 24 1 ++
    0#1).signExtend 32
  have even : (place + 8 + offset).toNat % 2 = 0 := here.evenTarget _ 0
  have written : relocateArm load (place + 8) instruction =
      [0xE28FE004, 0xE51FF004, (place + 8 + offset) ||| 1] := by
    simp only [relocateArm, kind, exchange_offset]
    rw [add_one_of_even even]
  have does : moved others place (a + 12) instruction core =
      (core.set lr (a + 12), .branch (place + 8 + offset) true) := by
    simp only [moved, intended, kind, decode_blx known, Instruction.execute, Core.set_set,
      offset]
  refine RunsAsMoved.intro written does rfl (fun words => ?_) here
  have called := @reaches_call others _ _ _ words
  rwa [exchange_odd even] at called

theorem runs_bl
    (here : IsMoved others load place a instruction core)
    (kind : getTypeInArm instruction = .blArm) :
    RunsAsMoved others load place a instruction core := by
  have known := getTypeInArm_matches instruction
  simp only [kind] at known
  let offset := wordOffset (instruction.extractLsb' 0 24)
  have even : (place + 8 + offset).toNat % 2 = 0 := here.evenTarget _ 1
  have written : relocateArm load (place + 8) instruction =
      [0xE28FE004, 0xE51FF004, place + 8 + offset] := by
    simp only [relocateArm, kind, branch_offset, offset]
  have does : moved others place (a + 12) instruction core =
      (core.set lr (a + 12), .branch (place + 8 + offset) false) := by
    simp only [moved, intended, kind, decode_bl known.1 known.2, Instruction.execute,
      Core.set_set, offset]
  refine RunsAsMoved.intro written does rfl (fun words => ?_) here
  have called := @reaches_call others _ _ _ words
  rwa [exchange_even even] at called

theorem runs_b
    (here : IsMoved others load place a instruction core)
    (kind : getTypeInArm instruction = .bArm) :
    RunsAsMoved others load place a instruction core := by
  have known := getTypeInArm_matches instruction
  simp only [kind] at known
  let offset := wordOffset (instruction.extractLsb' 0 24)
  have even : (place + 8 + offset).toNat % 2 = 0 := here.evenTarget _ 1
  have written : relocateArm load (place + 8) instruction =
      [0xE51FF004, place + 8 + offset] := by
    simp only [relocateArm, kind, branch_offset, offset]
  have does : moved others place (a + 8) instruction core =
      (core, .branch (place + 8 + offset) false) := by
    simp only [moved, intended, kind, decode_b known.1 known.2, Instruction.execute, offset]
  refine RunsAsMoved.intro written does rfl (fun words => ?_) here
  have jumped := @reaches_jump others _ _ _ words
  rwa [exchange_even even] at jumped

theorem runs_bx
    (here : IsMoved others load place a instruction core)
    (kind : getTypeInArm instruction = .bxArm) :
    RunsAsMoved others load place a instruction core := by
  have known := here.supported
  simp only [Supported, kind] at known
  have target : place + 8 + extendOffset 0 = place + 8 := BitVec.add_zero _
  have written : relocateArm load (place + 8) instruction = [0xE51FF004, place + 8] := by
    simp only [relocateArm, kind, target]
  have does : moved others place (a + 8) instruction core = (core, exchange (place + 8)) := by
    simp only [moved, intended, kind, known, Instruction.execute, Core.read_pc]
  exact RunsAsMoved.intro written does rfl reaches_jump here

/-- The families that load a register with a value known when they are moved. -/
theorem runs_literal
    (here : IsMoved others load place a instruction core) (value : Word)
    (written : relocateArm load (place + 8) instruction =
      [(0xE51F0000 : Word) ||| (((instruction &&& 0xF000) >>> 12) <<< 12), 0xE28FF000, value])
    (does : moved others place (a + 12) instruction core =
      core.write (instruction.extractLsb' 12 4) value) :
    RunsAsMoved others load place a instruction core := by
  refine RunsAsMoved.intro written does rfl (fun words => ?_) here
  rw [register_field] at words
  exact reaches_literal here.aligned words

theorem runs_adr1
    (here : IsMoved others load place a instruction core)
    (kind : getTypeInArm instruction = .adr1Arm) :
    RunsAsMoved others load place a instruction core := by
  have known := getTypeInArm_matches instruction
  obtain ⟨conditional, plain⟩ : _ ∧ _ := by simpa only [Supported, kind] using here.supported
  simp only [kind] at known
  have decoded := decode_addImmediate (known.weaken (by decide)) conditional
  rw [operand_pc known] at decoded
  refine here.runs_literal (place + 8 + (instruction &&& 0xFFF))
    (by simp only [relocateArm, kind]) ?_
  simp only [moved, intended, kind, decoded, execute_addImmediate_pc, plain, immediate_field]

theorem runs_adr2
    (here : IsMoved others load place a instruction core)
    (kind : getTypeInArm instruction = .adr2Arm) :
    RunsAsMoved others load place a instruction core := by
  have known := getTypeInArm_matches instruction
  obtain ⟨conditional, plain⟩ : _ ∧ _ := by simpa only [Supported, kind] using here.supported
  simp only [kind] at known
  have decoded := decode_subImmediate (known.weaken (by decide)) conditional
  rw [operand_pc known] at decoded
  refine here.runs_literal (place + 8 - (instruction &&& 0xFFF))
    (by simp only [relocateArm, kind]) ?_
  simp only [moved, intended, kind, decoded, execute_subImmediate_pc, plain, immediate_field]

theorem runs_ldr
    (here : IsMoved others load place a instruction core)
    (kind : getTypeInArm instruction = .ldrArm) :
    RunsAsMoved others load place a instruction core := by
  have known := getTypeInArm_matches instruction
  obtain ⟨conditional, indexed, fixed⟩ : _ ∧ _ ∧ _ := by
    simpa only [Supported, kind] using here.supported
  simp only [kind] at known
  have decoded := decode_ldr (known.weaken (by decide)) conditional
  rw [operand_pc known, indexed, fixed] at decoded
  have written : relocateArm load (place + 8) instruction =
      [(0xE51F0000 : Word) ||| (((instruction &&& 0xF000) >>> 12) <<< 12), 0xE28FF000,
        wordAt core.memory (literalAddress place instruction)] := by
    simp only [relocateArm, kind, literal_value, here.literal kind]
  refine here.runs_literal _ written ?_
  simp only [moved, intended, kind, decoded, execute_ldr_pc, literalAddress]

theorem runs_mov
    (here : IsMoved others load place a instruction core)
    (kind : getTypeInArm instruction = .movArm) :
    RunsAsMoved others load place a instruction core := by
  have known := here.supported
  simp only [Supported, kind] at known
  refine here.runs_literal (place + 8) (by simp only [relocateArm, kind]) ?_
  simp only [moved, intended, kind, known, Instruction.execute, Core.read_pc]

theorem runs_undefine
    (here : IsMoved others load place a instruction core)
    (kind : getTypeInArm instruction = .undefine) :
    RunsAsMoved others load place a instruction core := by
  have anywhere := here.supported
  simp only [Supported, kind] at anywhere
  have does : moved others place (a + 4) instruction core =
      perform others place instruction core := by
    simp only [moved, intended, kind]
  have written : relocateArm load (place + 8) instruction = [instruction] := by
    simp only [relocateArm, kind]
  refine RunsAsMoved.intro written does rfl (fun words => ?_) here
  exact Reaches.arm words.1 (anywhere a place core) (Reaches.refl _)

theorem runs_add
    (here : IsMoved others load place a instruction core)
    (kind : getTypeInArm instruction = .addArm) :
    RunsAsMoved others load place a instruction core := by
  have known := getTypeInArm_matches instruction
  obtain ⟨conditional, rdPlain, rmPlain⟩ : _ ∧ _ ∧ _ := by
    simpa only [Supported, kind] using here.supported
  simp only [kind] at known
  have decoded := decode_add (known.weaken (by decide)) conditional
  rw [operand_pc known] at decoded
  obtain ⟨chosen, notRd, notRm, notSp, notPc⟩ := scratch_spec instruction
  have written : relocateArm load (place + 8) instruction =
      bracket (scratch instruction) (renamed instruction (scratch instruction)) (place + 8) := by
    simp only [relocateArm, kind, chosen]
    rfl
  obtain ⟨sum, flags, direct, inBracket⟩ := perform_in_bracket others place core
    decoded (decode_renamed _ (known.weaken (by decide)) conditional) (condition_renamed _ _)
    rdPlain rmPlain notRd notRm notPc (a + 8)
  have does : moved others place (a + 24) instruction core =
      ({ core.set (instruction.extractLsb' 12 4) sum with
        flags := flags, memory := (core.push (scratch instruction)).memory }, .behind) := by
    simp only [moved, intended, kind, direct, Core.push_memory]
  refine RunsAsMoved.intro written does rfl (fun words => ?_) here
  rw [← restored rdPlain notRd (place + 8)]
  refine reaches_bracket notPc here.aligned words (here.stack kind) inBracket ?_ rfl
  change (((core.push _).set _ _).set _ _).register sp = core.register sp - 4
  rw [Core.set_other rdPlain.1.symm, Core.set_other notSp.symm, Core.push_sp]

/-- The moved words do what the instruction did. -/
theorem runs
    (here : IsMoved others load place a instruction core) :
    RunsAsMoved others load place a instruction core := by
  have known := getTypeInArm_matches instruction
  cases kind : getTypeInArm instruction with
  | blxArm => exact here.runs_blx kind
  | blArm => exact here.runs_bl kind
  | bArm => exact here.runs_b kind
  | bxArm => exact here.runs_bx kind
  | addArm => exact here.runs_add kind
  | adr1Arm => exact here.runs_adr1 kind
  | adr2Arm => exact here.runs_adr2 kind
  | ldrArm => exact here.runs_ldr kind
  | movArm => exact here.runs_mov kind
  | undefine => exact here.runs_undefine kind
  | _ => simp only [kind] at known

end IsMoved
end

/-! ## How the cores differ -/

/-- The core after the moved words, compared with the core after the instruction.  A
call notes the place behind its words, and a word below the stack is lost. -/
structure Mirrors (place after below : Word) (expected final : Core) : Prop where
  flags : final.flags = expected.flags
  register : ∀ r, r ≠ lr -> final.register r = expected.register r
  link : final.register lr = expected.register lr ∨
    expected.register lr = place + 4 ∧ final.register lr = after
  memory : ∀ here, ¬InRange below 4 here -> final.memory here = expected.memory here

section

variable {others : Others} {place after below instruction : Word} {core : Core}

theorem Mirrors.refl (place after below : Word) (core : Core) :
    Mirrors place after below core core :=
  ⟨rfl, fun _ _ => rfl, .inl rfl, fun _ _ => rfl⟩

theorem Mirrors.relink (place after below : Word) (core : Core) :
    Mirrors place after below (core.set lr (place + 4)) (core.set lr after) where
  flags := rfl
  register _ other := (Core.set_other other core after).trans
    (Core.set_other other core (place + 4)).symm
  link := .inr ⟨Core.set_same core lr _, Core.set_same core lr _⟩
  memory _ _ := rfl

theorem Mirrors.store (place after below value : Word) (core : Core) :
    Mirrors place after below core
      { core with memory := storeBytes core.memory below (wordBytes value) } where
  flags := rfl
  register _ _ := rfl
  link := .inl rfl
  memory _ outside := storeBytes_outside outside

variable (place core) in
/-- An addition leaves the memory alone. -/
theorem perform_add_memory
    (kind : getTypeInArm instruction = .addArm) (supported : Supported others instruction) :
    (perform others place instruction core).1.memory = core.memory := by
  have known := getTypeInArm_matches instruction
  obtain ⟨conditional, rdPlain, -⟩ : _ ∧ _ ∧ _ := by
    simpa only [Supported, kind] using supported
  simp only [kind] at known
  rw [perform, decode_add (known.weaken (by decide)) conditional]
  by_cases holds : core.flags.passes (condition instruction) = true
  · simp only [holds, if_true, Instruction.execute, Core.write_of_ne rdPlain.2]
    rfl
  · simp only [holds]
    rfl

variable (place after core) in
theorem moved_mirrors (supported : Supported others instruction) :
    (moved others place after instruction core).2 =
        (intended others place instruction core).2 ∧
      Mirrors place after (core.register sp - 4) (intended others place instruction core).1
        (moved others place after instruction core).1 := by
  have known := getTypeInArm_matches instruction
  cases kind : getTypeInArm instruction with
  | blxArm =>
      simp only [kind] at known
      simp only [moved, intended, kind, decode_blx known, Instruction.execute, Core.set_set]
      exact ⟨trivial, Mirrors.relink _ _ _ _⟩
  | blArm =>
      simp only [kind] at known
      simp only [moved, intended, kind, decode_bl known.1 known.2, Instruction.execute,
        Core.set_set]
      exact ⟨trivial, Mirrors.relink _ _ _ _⟩
  | addArm =>
      have result := perform_add_memory place core kind supported
      have stored := Mirrors.store place after (core.register sp - 4)
        (core.register (scratch instruction)) (perform others place instruction core).1
      rw [result] at stored
      simp only [moved, intended, kind]
      exact ⟨trivial, stored⟩
  | _ =>
      simp only [moved, kind]
      exact ⟨trivial, Mirrors.refl _ _ _ _⟩

/-- The words for the instruction ask for its condition. -/
def KeepsCondition (instruction : Word) : Prop :=
  getTypeInArm instruction = .addArm ∨ getTypeInArm instruction = .undefine

instance (instruction : Word) : Decidable (KeepsCondition instruction) :=
  inferInstanceAs (Decidable (_ ∨ _))

variable (others place) in
theorem intended_eq_perform
    (executed : KeepsCondition instruction ∨ core.flags.passes (condition instruction) = true) :
    intended others place instruction core = perform others place instruction core := by
  by_cases keeps : KeepsCondition instruction
  · obtain kind | kind := keeps <;> simp only [intended, kind]
  · have holds := executed.resolve_left keeps
    simp only [KeepsCondition, not_or] at keeps
    rw [intended, perform]
    split
    · exact absurd ‹_› keeps.1
    · exact absurd ‹_› keeps.2
    · cases decode instruction with
      | some decoded => exact (if_pos holds).symm
      | none => rfl

theorem intended_of_decode
    {decoded : Arm.Instruction} (known : decode instruction = some decoded)
    (dropped : ¬KeepsCondition instruction) :
    intended others place instruction core = decoded.execute place core := by
  simp only [KeepsCondition, not_or] at dropped
  rw [intended]
  split
  · exact absurd ‹_› dropped.1
  · exact absurd ‹_› dropped.2
  · rw [known]

theorem reaches_intended
    {load : Word -> Word} {a : Word}
    (here : IsMoved others load place a instruction core) :
    ∃ final,
      Reaches others ⟨core, a, false⟩
        ((intended others place instruction core).2.follow a
          (movedSize load place instruction) false final) ∧
      Mirrors place (a + movedSize load place instruction) (core.register sp - 4)
        (intended others place instruction core).1 final := by
  have run := here.runs
  obtain ⟨next, mirrors⟩ := moved_mirrors place (a + movedSize load place instruction) core
    here.supported
  refine ⟨_, ?_, mirrors⟩
  rw [← next]
  exact run

/-- A moved instruction goes where the instruction goes at its own place, and leaves the
state that it leaves there. -/
theorem moved_instruction_preserves_meaning
    {load : Word -> Word} {a : Word}
    (here : IsMoved others load place a instruction core)
    (executed : KeepsCondition instruction ∨ core.flags.passes (condition instruction) = true) :
    ∃ final,
      Reaches others ⟨core, a, false⟩
        ((perform others place instruction core).2.follow a
          (movedSize load place instruction) false final) ∧
      Mirrors place (a + movedSize load place instruction) (core.register sp - 4)
        (perform others place instruction core).1 final := by
  rw [← intended_eq_perform others place executed]
  exact reaches_intended here

/-- A call that is moved from one place to another. -/
theorem moved_call_preserves_meaning :
    let others : Others := fun _ _ core => (core, .behind)
    let load : Word -> Word := fun _ => 0
    let core : Core := ⟨fun _ => 0, ⟨false, false, false, false⟩,
      storeWords (fun _ => 0) 0x2000 (relocateArm load (0x1000 + 8) 0xEB000000)⟩
    ∃ final,
      Reaches others ⟨core, 0x2000, false⟩
        ((perform others 0x1000 0xEB000000 core).2.follow 0x2000
          (movedSize load 0x1000 0xEB000000) false final) ∧
      Mirrors 0x1000 (0x2000 + movedSize load 0x1000 0xEB000000) (core.register sp - 4)
        (perform others 0x1000 0xEB000000 core).1 final :=
  moved_instruction_preserves_meaning
    { supported := trivial
      placed := by decide
      aligned := by decide
      code := storeWords_holds _ _ (by decide)
      literal := fun kind => absurd kind (by decide)
      stack := fun kind => absurd kind (by decide) }
    (.inr rfl)

/-- An instruction whose condition fails does nothing at its own place, but its moved
words execute it all the same. -/
theorem moved_instruction_loses_condition
    {load : Word -> Word} {a : Word} {decoded : Arm.Instruction}
    (here : IsMoved others load place a instruction core)
    (known : decode instruction = some decoded) (dropped : ¬KeepsCondition instruction)
    (fails : core.flags.passes (condition instruction) = false) :
    perform others place instruction core = (core, .behind) ∧
      ∃ final,
        Reaches others ⟨core, a, false⟩
          ((decoded.execute place core).2.follow a (movedSize load place instruction) false
            final) ∧
        Mirrors place (a + movedSize load place instruction) (core.register sp - 4)
          (decoded.execute place core).1 final := by
  constructor
  · rw [perform, known]
    simp only [fails]
    rfl
  · rw [← intended_of_decode known dropped]
    exact reaches_intended here

/-- A branch that is not taken, and its moved words. -/
theorem moved_branch_loses_condition :
    let others : Others := fun _ _ core => (core, .behind)
    let load : Word -> Word := fun _ => 0
    let core : Core := ⟨fun _ => 0, ⟨false, false, false, false⟩,
      storeWords (fun _ => 0) 0x2000 (relocateArm load (0x1000 + 8) 0x0A000000)⟩
    perform others 0x1000 0x0A000000 core = (core, .behind) ∧
      ∃ final,
        Reaches others ⟨core, 0x2000, false⟩
          (((Instruction.b 0).execute 0x1000 core).2.follow 0x2000
            (movedSize load 0x1000 0x0A000000) false final) ∧
        Mirrors 0x1000 (0x2000 + movedSize load 0x1000 0x0A000000) (core.register sp - 4)
          ((Instruction.b 0).execute 0x1000 core).1 final :=
  moved_instruction_loses_condition
    { supported := trivial
      placed := by decide
      aligned := by decide
      code := storeWords_holds _ _ (by decide)
      literal := fun kind => absurd kind (by decide)
      stack := fun kind => absurd kind (by decide) }
    (by decide) (by decide) rfl

end

end HookEngine
end UnityLocalization
