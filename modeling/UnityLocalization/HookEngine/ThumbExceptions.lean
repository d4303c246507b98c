import UnityLocalization.HookEngine.ThumbMeaning

/-!
# Thumb instructions that move to another meaning

Some families are moved with a slip: long branches count from the word address below the
program counter, the offset of an address is put together in the wrong order, a change of
the instruction set is lost, and conditions come to lie on a no-operation.
-/

namespace UnityLocalization
namespace HookEngine

open WordMemory Arm

/-- A core with an instruction that was moved to 0x2000. -/
def movedCore (turn : ThumbTurn) (place : Word) : Core :=
  ⟨fun _ => 0, ⟨false, false, false, false⟩,
    storeHalves (fun _ => 0) 0x2000 (turn.moved (fun _ => 0) (place + 4))⟩

section

variable {others : Others} {load : Word -> Word} {place a : Word} {core next : Core}
  {instruction high low : Half} {target : Word}

/-! ## Long branches -/

/-- The long branches whose offset counts from the program counter. -/
def IsLongBranch (instruction : Word) : Prop :=
  match getTypeInThumb32 instruction with
  | .blThumb32 | .b2Thumb32 => True
  | .b1Thumb32 => ¬Matches 0x03800000 0x03800000 instruction
  | _ => False

/-- A long branch is moved as if it stood at the word address. -/
theorem moved_longBranch
    (family : IsLongBranch (high ++ low)) (odd : place.toNat % 4 = 2) :
    (ThumbTurn.wide high low).moved load (place + 4) =
      (ThumbTurn.wide high low).moved load (place - 2 + 4) := by
  have aligned : (place - 2 + 4).toNat % 4 = 0 := by bv_omega
  have between : place + 4 = place - 2 + 4 + 2 := by bv_omega
  have below : alignPc (place + 4) = alignPc (place - 2 + 4) := by
    rw [between]
    exact (align_add_two aligned).trans (align_of_aligned aligned).symm
  rw [IsLongBranch] at family
  cases kind : getTypeInThumb32 (high ++ low) with
  | blThumb32 | b1Thumb32 | b2Thumb32 =>
      simp only [ThumbTurn.moved, relocateInstructionInThumb32, append_eq_shift_or, kind, below]
  | _ => simp only [kind] at family

/-- Two bytes before its place a long branch goes two bytes less far. -/
theorem performMoved_longBranch
    {after : Word} (family : IsLongBranch (high ++ low)) (placed : place.toNat % 2 = 0)
    (even : after.toNat % 2 = 0) (below : Word)
    (branches : (ThumbTurn.wide high low).perform others place core =
      (next, .branch target true)) :
    ∃ final,
      (ThumbTurn.wide high low).performMoved others (place - 2) after core =
        (final, .branch (target - 2) true) ∧
      Mirrors (place + 1) (after + 1) below next final := by
  have short : ∀ offset : Word, place - 2 + 4 + offset = place + 4 + offset - 2 := by
    intro offset
    bv_omega
  have known := getTypeInThumb32_matches (high ++ low)
  rw [IsLongBranch] at family
  rw [ThumbTurn.perform] at branches
  cases kind : getTypeInThumb32 (high ++ low) with
  | blThumb32 =>
      simp only [kind] at known
      rw [thumbPerformWide_of_decode (decode_longCall known)] at branches
      cases branches
      simp only [ThumbTurn.performMoved, kind, thumbPerformWide_of_decode (decode_longCall known),
        Thumb.WideInstruction.execute, Core.set_set, short]
      exact ⟨_, rfl, Mirrors.relinkThumb placed even _ _⟩
  | b2Thumb32 =>
      simp only [kind] at known
      rw [thumbPerformWide_of_decode (decode_longBranch known)] at branches
      cases branches
      simp only [ThumbTurn.performMoved, kind,
        thumbPerformWide_of_decode (decode_longBranch known), Thumb.WideInstruction.execute, short]
      exact ⟨_, rfl, Mirrors.refl _ _ _ _⟩
  | b1Thumb32 =>
      simp only [kind] at known family
      rw [thumbPerformWide_of_decode (decode_longCondition known family),
        Thumb.WideInstruction.execute] at branches
      by_cases passes : core.flags.passes ((high ++ low).extractLsb' 22 4) = true
      · rw [if_pos passes] at branches
        cases branches
        simp only [ThumbTurn.performMoved, kind,
          thumbPerformWide_of_decode (decode_longCondition known family),
          Thumb.WideInstruction.execute, if_pos passes, short]
        exact ⟨_, rfl, Mirrors.refl _ _ _ _⟩
      · rw [if_neg passes] at branches
        cases branches
  | _ => simp only [kind] at family

/-- A branch does not write to memory. -/
theorem perform_longBranch_memory (family : IsLongBranch (high ++ low)) :
    ((ThumbTurn.wide high low).perform others place core).1.memory = core.memory := by
  have known := getTypeInThumb32_matches (high ++ low)
  rw [IsLongBranch] at family
  rw [ThumbTurn.perform]
  cases kind : getTypeInThumb32 (high ++ low) with
  | blThumb32 =>
      simp only [kind] at known
      rw [thumbPerformWide_of_decode (decode_longCall known)]
      rfl
  | b2Thumb32 =>
      simp only [kind] at known
      rw [thumbPerformWide_of_decode (decode_longBranch known)]
      rfl
  | b1Thumb32 =>
      simp only [kind] at known family
      rw [thumbPerformWide_of_decode (decode_longCondition known family)]
      rfl
  | _ => simp only [kind] at family

theorem IsLongBranch.supported
    (family : IsLongBranch (high ++ low)) (placed : place.toNat % 4 = 0) :
    (ThumbTurn.wide high low).Supported others place := by
  rw [IsLongBranch] at family
  rw [ThumbTurn.Supported]
  cases kind : getTypeInThumb32 (high ++ low) with
  | blThumb32 | b2Thumb32 => exact placed
  | b1Thumb32 =>
      simp only [kind] at family
      exact ⟨placed, family⟩
  | _ => simp only [kind] at family

theorem IsLongBranch.not_literal (family : IsLongBranch (high ++ low)) (here : Word) :
    (ThumbTurn.wide high low).literal here = none := by
  rw [IsLongBranch] at family
  refine if_neg fun kind => ?_
  simp only [kind] at family

/-- A long branch that does not begin at a word address goes two bytes short when it is
moved. -/
theorem moved_long_branch_falls_short
    (family : IsLongBranch (high ++ low)) (wide : Thumb.IsWide high)
    (odd : place.toNat % 4 = 2) (aligned : a.toNat % 4 = 0)
    (code : HoldsHalves core.memory a ((ThumbTurn.wide high low).moved load (place + 4)))
    (branches : (ThumbTurn.wide high low).perform others place core =
      (next, .branch target true)) :
    ∃ final,
      Reaches others ⟨core, a, true⟩ ⟨final, target - 2, true⟩ ∧
      Mirrors (place + 1) (a + thumbSize load place (.wide high low) + 1) (core.register sp - 4)
        next final := by
  have moved := @moved_longBranch load place high low family odd
  have sized : thumbSize load (place - 2) (.wide high low) =
      thumbSize load place (.wide high low) := by
    rw [thumbSize, thumbSize, moved]
  have back : (place - 2).toNat % 4 = 0 := by bv_omega
  have here : IsMovedThumb others load (place - 2) a (.wide high low) core :=
    { formed := wide
      supported := family.supported back
      placed := by omega
      aligned := aligned
      code := moved ▸ code
      literal := fun _ found => by
        rw [family.not_literal] at found
        cases found
      stack := fun uses => absurd uses not_false
      kept := fun there _ => congrFun (perform_longBranch_memory family) there }
  have ran := here.runs
  rw [RunsAsMovedThumb, sized] at ran
  obtain ⟨final, does, mirrors⟩ := performMoved_longBranch family (by omega)
    (even_thumbSize load place (.wide high low) aligned) (core.register sp - 4) branches
  rw [does] at ran
  exact ⟨final, ran, mirrors⟩

end

/-- A branch from a halfword that is not at a word address. -/
theorem moved_branch_at_halfword_falls_short :
    let others : Others := fun _ _ core => (core, .behind)
    let turn : ThumbTurn := .wide 0xF000 0xB800
    let core := movedCore turn 0x1002
    ∃ final,
      Reaches others ⟨core, 0x2000, true⟩ ⟨final, 0x1006 - 2, true⟩ ∧
      Mirrors (0x1002 + 1) (0x2000 + thumbSize (fun _ => 0) 0x1002 turn + 1)
        (core.register sp - 4) core final := by
  have kind : getTypeInThumb32 ((0xF000 : Half) ++ (0xB800 : Half)) = .b2Thumb32 := by decide
  have family : IsLongBranch ((0xF000 : Half) ++ (0xB800 : Half)) := by
    rw [IsLongBranch, kind]
    trivial
  exact moved_long_branch_falls_short family (by decide) (by decide) (by decide)
    (storeHalves_holds _ _ (by decide)) rfl

/-! ## Addresses -/

/-- What the source takes for the offset of a long address. -/
def misplacedOffset (i : BitVec 1) (imm3 : BitVec 3) (imm8 : BitVec 8) : Word :=
  (i.setWidth 32 <<< 31) ||| (imm3.setWidth 32 <<< 30) ||| (imm8.setWidth 32 <<< 27)

theorem misplacedOffset_low (i : BitVec 1) (imm3 : BitVec 3) (imm8 : BitVec 8) :
    (misplacedOffset i imm3 imm8).toNat % 2 ^ 27 = 0 := by
  have shifted : misplacedOffset i imm3 imm8 =
      ((i.setWidth 32 <<< 4) ||| (imm3.setWidth 32 <<< 3) ||| imm8.setWidth 32 : Word) <<< 27 := by
    rw [BitVec.shiftLeft_or_distrib, BitVec.shiftLeft_or_distrib, ← BitVec.shiftLeft_add,
      ← BitVec.shiftLeft_add]
    rfl
  rw [shifted, BitVec.toNat_shiftLeft, Nat.shiftLeft_eq]
  omega

theorem misplacedOffset_of_zero
    {i : BitVec 1} {imm3 : BitVec 3} {imm8 : BitVec 8} (zero : i ++ imm3 ++ imm8 = 0) :
    misplacedOffset i imm3 imm8 = 0 := by
  have lowest : imm8 = 0 := by
    rw [← @BitVec.setWidth_append_eq_right (1 + 3) 8 (i ++ imm3) imm8, zero]
    rfl
  have highest : i ++ imm3 = 0 := by
    rw [← @BitVec.extractLsb'_append_eq_left (1 + 3) 8 (i ++ imm3) imm8, zero]
    rfl
  have middle : imm3 = 0 := by
    rw [← @BitVec.setWidth_append_eq_right 1 3 i imm3, highest]
    rfl
  have first : i = 0 := by
    rw [← @BitVec.extractLsb'_append_eq_left 1 3 i imm3, highest]
    rfl
  rw [lowest, middle, first]
  rfl

/-- Only an offset of zero is taken for the right one. -/
theorem misplacedOffset_eq_iff
    {i : BitVec 1} {imm3 : BitVec 3} {imm8 : BitVec 8} (up : Bool) (base : Word) :
    (if up then base - misplacedOffset i imm3 imm8 else base + misplacedOffset i imm3 imm8) =
        offsetAddress up base (i ++ imm3 ++ imm8) ↔ i ++ imm3 ++ imm8 = 0 := by
  have low := misplacedOffset_low i imm3 imm8
  have small : ((i ++ imm3 ++ imm8).setWidth 32 : Word).toNat < 4096 := by
    rw [BitVec.toNat_setWidth_of_le (by decide)]
    exact (i ++ imm3 ++ imm8).isLt
  constructor
  · intro same
    have sum : misplacedOffset i imm3 imm8 + (i ++ imm3 ++ imm8).setWidth 32 = 0 := by
      rw [offsetAddress] at same
      generalize misplacedOffset i imm3 imm8 = misplaced at same ⊢
      generalize (i ++ imm3 ++ imm8).setWidth 32 = offset at same ⊢
      cases up with
      | true =>
          rw [if_pos rfl, if_pos rfl] at same
          bv_omega
      | false =>
          rw [if_neg Bool.false_ne_true, if_neg Bool.false_ne_true] at same
          bv_omega
    have zero : ((i ++ imm3 ++ imm8).setWidth 32 : Word).toNat = 0 := by
      generalize misplacedOffset i imm3 imm8 = misplaced at sum low
      generalize ((i ++ imm3 ++ imm8).setWidth 32 : Word) = offset at sum small ⊢
      bv_omega
    rw [BitVec.toNat_setWidth_of_le (by decide)] at zero
    exact BitVec.eq_of_toNat_eq zero
  · intro zero
    rw [misplacedOffset_of_zero zero, offsetAddress, zero]
    cases up with
    | true => exact (BitVec.sub_zero base).trans (BitVec.add_zero base).symm
    | false => exact (BitVec.add_zero base).trans (BitVec.sub_zero base).symm

theorem shifted_sum_eq_iff (address offset : Word) :
    (address + offset) <<< 2 = address + offset <<< 2 ↔ address = 0 := by
  have quadruple : ∀ number : Word, number <<< 2 = number * 4 :=
    fun number => BitVec.shiftLeft_eq_mul_twoPow number 2
  rw [quadruple, quadruple, BitVec.add_mul]
  have four : address * 4 = address * 3 + address := by
    rw [← BitVec.mul_one address, BitVec.mul_assoc, BitVec.mul_assoc, ← BitVec.mul_add]
    rfl
  constructor
  · intro same
    have thrice : address * 3 = 0 := by
      rw [four] at same
      exact BitVec.add_left_eq_self.mp ((BitVec.add_left_inj _).mp same)
    -- three has an inverse
    calc
      address = address * (3 * 0xAAAAAAAB) := (BitVec.mul_one address).symm
      _ = 0 * 0xAAAAAAAB := by rw [← BitVec.mul_assoc, thrice]
      _ = 0 := BitVec.zero_mul
  · rintro rfl
    exact congrArg (· + offset * 4) BitVec.zero_mul

section

variable {others : Others} {load : Word -> Word} {place a : Word} {core : Core}
  {instruction high low : Half}

/-- A short address is right only if its base is zero. -/
theorem moved_adr_iff
    (kind : getTypeInThumb16 instruction = .adrThumb16) (aligned : a.toNat % 4 = 0)
    (code : HoldsHalves core.memory a ((ThumbTurn.narrow instruction).moved load (place + 4))) :
    ∃ final,
      Reaches others ⟨core, a, true⟩ ⟨final, a + 8, true⟩ ∧
      (Thumb.perform others place instruction core = (final, .behind) ↔
        alignPc (place + 4) = 0) := by
  have known := getTypeInThumb16_matches instruction
  simp only [kind] at known
  have masked : instruction.setWidth 32 &&& (0xFF : Word) =
      (instruction.extractLsb' 0 8).setWidth 32 :=
    half_mask instruction 8
  let value := (alignPc (place + 4) + (instruction.extractLsb' 0 8).setWidth 32) <<< 2
  have writes : (ThumbTurn.narrow instruction).moved load (place + 4) =
      ((0x4800 : Half) ||| ((instruction.extractLsb' 8 3).setWidth 16 <<< 8)) :: 0xE001 ::
        halves value := by
    simp only [ThumbTurn.moved, relocateInstructionInThumb16, kind, masked, register_low]
    rfl
  refine ⟨_, reaches_thumbLiteral aligned (writes ▸ code), ?_⟩
  rw [thumbPerform_of_decode (decode_thumbAdr known), Thumb.Instruction.execute, Prod.mk_inj,
    and_iff_left rfl, Core.set_inj, ← shiftLeft_field, eq_comm]
  exact shifted_sum_eq_iff _ _

/-- A long address is right only if it is the base itself. -/
theorem moved_long_adr_iff
    {up : Bool}
    (kind : getTypeInThumb32 (high ++ low) = if up then .adr2Thumb32 else .adr1Thumb32)
    (plain : (high ++ low : Word).extractLsb' 8 4 ≠ pc) (aligned : a.toNat % 4 = 0)
    (code : HoldsHalves core.memory a ((ThumbTurn.wide high low).moved load (place + 4))) :
    ∃ final,
      Reaches others ⟨core, a, true⟩ ⟨final, a + 12, true⟩ ∧
      (Thumb.performWide others place (high ++ low) core = (final, .behind) ↔
        (high ++ low : Word).extractLsb' 26 1 ++ (high ++ low : Word).extractLsb' 12 3 ++
          (high ++ low : Word).extractLsb' 0 8 = 0) := by
  have known := getTypeInThumb32_matches (high ++ low)
  have i : (high.setWidth 32 &&& (0x400 : Word)) >>> 10 =
      ((high ++ low : Word).extractLsb' 26 1).setWidth 32 := by
    rw [field_s, ← high_field high low 10 1]
  have imm3 : (low.setWidth 32 &&& (0x7000 : Word)) >>> 12 =
      ((high ++ low : Word).extractLsb' 12 3).setWidth 32 := by
    rw [← @low_field high low 12 3 (by decide)]
    exact @half_field low 12 3 (by decide)
  have imm8 : (high ++ low : Word) &&& (0xFF : Word) =
      ((high ++ low : Word).extractLsb' 0 8).setWidth 32 :=
    and_mask (high ++ low : Word) 8
  have register : (low &&& (0xF00 : Half)) >>> 8 =
      ((high ++ low : Word).extractLsb' 8 4).setWidth 16 := by
    rw [← @low_field high low 8 4 (by decide)]
    exact @lowered_field 16 low 8 4 (by decide)
  let misplaced := misplacedOffset ((high ++ low : Word).extractLsb' 26 1)
    ((high ++ low : Word).extractLsb' 12 3) ((high ++ low : Word).extractLsb' 0 8)
  let value := if up then alignPc (place + 4) - misplaced else alignPc (place + 4) + misplaced
  have writes : (ThumbTurn.wide high low).moved load (place + 4) =
      (0xF8DF : Half) :: ((((high ++ low : Word).extractLsb' 8 4).setWidth 16 <<< 12) |||
        (4 : Half)) :: 0xBF00 :: 0xE001 :: halves value := by
    cases up with
    | true =>
        simp only [if_true] at kind
        simp only [ThumbTurn.moved, relocateInstructionInThumb32, append_eq_shift_or, kind, i,
          imm3, imm8, register]
        rfl
    | false =>
        simp only [Bool.false_eq_true, if_false] at kind
        simp only [ThumbTurn.moved, relocateInstructionInThumb32, append_eq_shift_or, kind, i,
          imm3, imm8, register]
        rfl
  have decoded : Thumb.decodeWide (high ++ low) =
      some (.adr up ((high ++ low : Word).extractLsb' 8 4)
        ((high ++ low : Word).extractLsb' 26 1 ++ (high ++ low : Word).extractLsb' 12 3 ++
          (high ++ low : Word).extractLsb' 0 8)) := by
    cases up with
    | true =>
        simp only [kind, if_true] at known
        exact decodeWide_adr2 known
    | false =>
        simp only [kind, Bool.false_eq_true, if_false] at known
        exact decodeWide_adr1 known
  have ran := @reaches_wideLiteral others core a value _ aligned (writes ▸ code)
  rw [Core.write_of_ne plain] at ran
  refine ⟨_, ran, ?_⟩
  rw [thumbPerformWide_of_decode decoded, Thumb.WideInstruction.execute, Prod.mk_inj,
    and_iff_left rfl, Core.set_inj, eq_comm]
  exact misplacedOffset_eq_iff up _

end

/-- The address of the word behind 0x1000. -/
theorem moved_adr_of_next_word :
    let others : Others := fun _ _ core => (core, .behind)
    let core := movedCore (.narrow 0xA000) 0x1000
    ∃ final,
      Reaches others ⟨core, 0x2000, true⟩ ⟨final, 0x2000 + 8, true⟩ ∧
      (Thumb.perform others 0x1000 0xA000 core = (final, .behind) ↔ alignPc (0x1000 + 4) = 0) :=
  moved_adr_iff (by decide) (by decide) (storeHalves_holds _ _ (by decide))

theorem moved_long_adr_of_next_word :
    let others : Others := fun _ _ core => (core, .behind)
    let core := movedCore (.wide 0xF20F 0x0004) 0x1000
    let instruction : Word := (0xF20F : Half) ++ (0x0004 : Half)
    ∃ final,
      Reaches others ⟨core, 0x2000, true⟩ ⟨final, 0x2000 + 12, true⟩ ∧
      (Thumb.performWide others 0x1000 instruction core = (final, .behind) ↔
        instruction.extractLsb' 26 1 ++ instruction.extractLsb' 12 3 ++
          instruction.extractLsb' 0 8 = 0) :=
  @moved_long_adr_iff _ (fun _ => 0) 0x1000 0x2000 _ 0xF20F 0x0004 true (by decide) (by decide)
    (by decide) (storeHalves_holds _ _ (by decide))

/-! ## Conditions on the next instructions -/

/-- A moved `IT` is not supported: the first halfword under its conditions is the
no-operation that is written behind it. -/
theorem moved_it (conditions : Thumb.ConditionsNext instruction) :
    (ThumbTurn.narrow instruction).moved load (place + 4) = [instruction, 0xBF00] ∧
      ¬(ThumbTurn.narrow instruction).Supported others place := by
  have known := conditions.1
  have kind : getTypeInThumb16 instruction = .undefine := by
    have family := getTypeInThumb16_matches instruction
    cases kind : getTypeInThumb16 instruction with
    | undefine => rfl
    | b1Thumb16 | b2Thumb16 | bxThumb16 | addThumb16 | movThumb16 | adrThumb16 | ldrThumb16
    | cbThumb16 =>
        simp only [kind] at family
        exact absurd family (known.excludes (by decide))
    | _ => simp only [kind] at family
  constructor
  · simp only [ThumbTurn.moved, relocateInstructionInThumb16, kind]
  · simp only [ThumbTurn.Supported, kind]
    exact fun supported => supported.1 conditions

/-! ## A change of the instruction set -/

section

variable {others : Others} {load : Word -> Word} {place a : Word} {core : Core}

/-- `BX PC` leads to ARM instructions behind it, and once it is moved into the same place in
Thumb state. -/
theorem moved_bx_stays_in_thumb
    (placed : place.toNat % 4 = 0) (aligned : a.toNat % 4 = 0)
    (code : HoldsHalves core.memory a ((ThumbTurn.narrow 0x4778).moved load (place + 4))) :
    Thumb.perform others place 0x4778 core = (core, .branch (place + 4) false) ∧
      Reaches others ⟨core, a, true⟩ ⟨core, place + 4, true⟩ := by
  have kind : getTypeInThumb16 0x4778 = .bxThumb16 := by decide
  have decoded : Thumb.decode 0x4778 = some (.bx pc) := by decide
  have even : (place + 4).toNat % 2 = 0 := by bv_omega
  have writes : (ThumbTurn.narrow 0x4778).moved load (place + 4) =
      longJump ((place + 4) ||| 1) := by
    simp only [ThumbTurn.moved, relocateInstructionInThumb16, kind]
  constructor
  · rw [thumbPerform_of_decode decoded, Thumb.Instruction.execute, Core.read_pc,
      exchange_even even]
  · have jumped := @reaches_longJump others core a _ aligned (writes ▸ code)
    rwa [exchange_odd even] at jumped

end

theorem moved_bx_at_word_stays_in_thumb :
    let others : Others := fun _ _ core => (core, .behind)
    let core := movedCore (.narrow 0x4778) 0x1000
    Thumb.perform others 0x1000 0x4778 core = (core, .branch (0x1000 + 4) false) ∧
      Reaches others ⟨core, 0x2000, true⟩ ⟨core, 0x1000 + 4, true⟩ :=
  @moved_bx_stays_in_thumb _ (fun _ => 0) 0x1000 0x2000 (movedCore (.narrow 0x4778) 0x1000)
    (by decide) (by decide) (storeHalves_holds _ _ (by decide))

end HookEngine
end UnityLocalization
