import UnityLocalization.HookEngine.ArmMeaning
import UnityLocalization.HookEngine.ThumbDecoding
import UnityLocalization.HookEngine.ThumbTrampoline

/-!
# What moved Thumb instructions do

The halfwords that stand for a moved Thumb instruction do what the instruction did at its
own place.  Only the return address of a call and a word below the stack differ.
The exception is `IT`: the halfword that is written behind it comes under its conditions.
-/

namespace UnityLocalization
namespace HookEngine

open WordMemory Arm

/-- The register that the halfwords for a moved addition use. -/
def lowScratch (instruction : Half) : BitVec 3 :=
  (freeLowRegister [((instruction &&& 0x80) >>> 4) ||| (instruction &&& 0x7)] 7).setWidth 3

theorem lowScratch_spec (instruction : Half) :
    freeLowRegister [((instruction &&& 0x80) >>> 4) ||| (instruction &&& 0x7)] 7 =
        (lowScratch instruction).setWidth 16 ∧
      Thumb.lowRegister (lowScratch instruction) ≠
        instruction.extractLsb' 7 1 ++ instruction.extractLsb' 0 3 := by
  have free : ∀ rdn : Register,
      freeLowRegister [rdn.setWidth 16] 7 =
          ((freeLowRegister [rdn.setWidth 16] 7).setWidth 3).setWidth 16 ∧
        Thumb.lowRegister ((freeLowRegister [rdn.setWidth 16] 7).setWidth 3) ≠ rdn := by
    decide
  have top : (instruction &&& 0x80) >>> 4 =
      (instruction.extractLsb' 7 1).setWidth 16 <<< 3 :=
    @masked_field 16 instruction 3 4 1 (by decide)
  have low : instruction &&& 0x7 = (instruction.extractLsb' 0 3).setWidth 16 :=
    and_mask instruction 3
  have joined : ((instruction &&& 0x80) >>> 4) ||| (instruction &&& 0x7) =
      (instruction.extractLsb' 7 1 ++ instruction.extractLsb' 0 3).setWidth 16 := by
    rw [top, low, BitVec.setWidth_append_eq_shiftLeft_setWidth_or]
  rw [lowScratch, joined]
  exact free _

namespace ThumbTurn

/-- What an instruction does at its place.  One that was not saved as a whole is not
executed. -/
def perform (others : Others) (place : Word) (core : Core) : ThumbTurn -> Core × Next
  | narrow instruction => Thumb.perform others place instruction core
  | wide high low => Thumb.performWide others place (high ++ low) core
  | cut _ => (core, .behind)

/-- What the moved halfwords do if `after` is the place behind them. -/
def performMoved (others : Others) (place after : Word) (core : Core) :
    ThumbTurn -> Core × Next
  | narrow instruction =>
      let (final, next) := Thumb.perform others place instruction core
      match getTypeInThumb16 instruction with
      | .addThumb16 =>
          ({ final with
            memory := storeBytes core.memory (core.register sp - 4)
              (wordBytes (core.register (Thumb.lowRegister (lowScratch instruction)))) }, next)
      | _ => (final, next)
  | wide high low =>
      let (final, next) := Thumb.performWide others place (high ++ low) core
      match getTypeInThumb32 (high ++ low) with
      | .blxThumb32 | .blThumb32 => (final.set lr (after ||| 1), next)
      | _ => (final, next)
  | cut _ => (core, .behind)

/-- The halfwords were read as the processor reads them. -/
def Formed : ThumbTurn -> Prop
  | narrow instruction => ¬Thumb.IsWide instruction
  | wide high _ => Thumb.IsWide high
  | cut _ => True

/-- The instructions that are moved from the place without a change of meaning. -/
def Supported (others : Others) (place : Word) : ThumbTurn -> Prop
  | narrow instruction =>
      match getTypeInThumb16 instruction with
      | .b1Thumb16 => ¬Matches 0x0E00 0x0E00 instruction
      | .bxThumb16 => False
      | .addThumb16 => IsPlain (instruction.extractLsb' 7 1 ++ instruction.extractLsb' 0 3)
      | .movThumb16 => instruction.extractLsb' 7 1 = 0
      | .adrThumb16 =>
          -- the sum is shifted, not only the offset
          (Thumb.align (place + 4) + (instruction.extractLsb' 0 8).setWidth 32) <<< 2 =
            Thumb.align (place + 4) + (instruction.extractLsb' 0 8 ++ 0#2).setWidth 32
      | .undefine =>
          -- a second halfword would come under the conditions
          ¬Thumb.ConditionsNext instruction ∧ ∀ here other core,
            Thumb.perform others here instruction core =
              Thumb.perform others other instruction core
      | _ => True
  | wide high low =>
      match getTypeInThumb32 (high ++ low) with
      | .blxThumb32 => Matches 0xF800D001 0xF000C000 (high ++ low : Word)
      | .b1Thumb32 =>
          place.toNat % 4 = 0 ∧ ¬Matches 0x03800000 0x03800000 (high ++ low : Word)
      -- the offset is added to the word address below
      | .blThumb32 | .b2Thumb32 => place.toNat % 4 = 0
      | .ldrThumb32 => True
      | .undefine => ∀ here other core,
          Thumb.performWide others here (high ++ low) core =
            Thumb.performWide others other (high ++ low) core
      | _ => False
  | cut _ => True

/-- The address of the word that a load relative to the place reads. -/
def literal (place : Word) : ThumbTurn -> Option Word
  | narrow instruction =>
      if getTypeInThumb16 instruction = .ldrThumb16 then
        some (Thumb.align (place + 4) + (instruction.extractLsb' 0 8 ++ 0#2).setWidth 32)
      else none
  | wide high low =>
      if getTypeInThumb32 (high ++ low) = .ldrThumb32 then
        some (offsetAddress ((high ++ low : Word).getLsbD 23) (Thumb.align (place + 4))
          ((high ++ low : Word).extractLsb' 0 12))
      else none
  | cut _ => none

/-- The halfwords save a register below the stack. -/
def UsesStack : ThumbTurn -> Prop
  | narrow instruction => getTypeInThumb16 instruction = .addThumb16
  | _ => False

end ThumbTurn

/-- The halfwords for the instruction from `place` stand at `a`, and nothing they use has
changed or changes. -/
structure IsMovedThumb
    (others : Others) (load : Word -> Word) (place a : Word) (turn : ThumbTurn) (core : Core) :
    Prop where
  formed : turn.Formed
  supported : turn.Supported others place
  placed : place.toNat % 2 = 0
  aligned : a.toNat % 4 = 0
  code : HoldsHalves core.memory a (turn.moved load (place + 4))
  literal : ∀ address, turn.literal place = some address ->
    load address = wordAt core.memory address
  stack : turn.UsesStack -> Apart a 16 (core.register sp - 4) 4
  kept : ∀ here, InRange a (2 * (turn.moved load (place + 4)).length) here ->
    (turn.perform others place core).1.memory here = core.memory here

/-- The size of the halfwords for an instruction. -/
def thumbSize (load : Word -> Word) (place : Word) (turn : ThumbTurn) : Word :=
  BitVec.ofNat 32 (2 * (turn.moved load (place + 4)).length)

/-- Execution of the moved halfwords does what `performMoved` says. -/
def RunsAsMovedThumb
    (others : Others) (load : Word -> Word) (place a : Word) (turn : ThumbTurn) (core : Core) :
    Prop :=
  let size := thumbSize load place turn
  let result := turn.performMoved others place (a + size) core
  Reaches others ⟨core, a, true⟩ (result.2.follow a size true result.1)

section

variable {others : Others} {load : Word -> Word} {place a : Word} {core : Core}
  {turn : ThumbTurn} {instruction high low : Half}

theorem RunsAsMovedThumb.intro
    {written : List Half} {size : Word} {result : Core × Next}
    (writes : turn.moved load (place + 4) = written)
    (does : turn.performMoved others place (a + size) core = result)
    (sized : BitVec.ofNat 32 (2 * written.length) = size)
    (run : HoldsHalves core.memory a written ->
      Reaches others ⟨core, a, true⟩ (result.2.follow a size true result.1))
    (here : IsMovedThumb others load place a turn core) :
    RunsAsMovedThumb others load place a turn core := by
  have measured : thumbSize load place turn = size := by
    rw [thumbSize, writes, sized]
  rw [RunsAsMovedThumb, measured, does]
  exact run (writes ▸ here.code)

/-- A branch that is taken or not, and the long jump that stands for it. -/
theorem follow_choice
    {target : Word} (even : target.toNat % 2 = 0) (taken : Bool) :
    (if taken then Next.branch target true else .behind).follow a 12 true core =
      if taken then (exchange (target ||| 1)).follow a 12 true core
      else ⟨core, a + 12, true⟩ := by
  cases taken with
  | true => rw [if_pos rfl, if_pos rfl, exchange_odd even]
  | false => rfl

theorem register_low (instruction : Half) :
    (instruction &&& 0x700) >>> 8 = (instruction.extractLsb' 8 3).setWidth 16 :=
  @lowered_field 16 instruction 8 3 (by decide)

theorem even_behind (placed : place.toNat % 2 = 0) : (place + 4).toNat % 2 = 0 := by
  bv_omega

theorem even_halfOffset {size : Nat} (placed : place.toNat % 2 = 0) (imm : BitVec size) :
    (place + 4 + Thumb.halfOffset imm).toNat % 2 = 0 :=
  even_add (even_behind placed) (append_zeros_low imm 0)

namespace IsMovedThumb

/-! ## Instructions of one halfword -/

theorem runs_b1
    (here : IsMovedThumb others load place a (.narrow instruction) core)
    (kind : getTypeInThumb16 instruction = .b1Thumb16) :
    RunsAsMovedThumb others load place a (.narrow instruction) core := by
  have known := getTypeInThumb16_matches instruction
  have real := here.supported
  simp only [ThumbTurn.Supported, kind] at known real
  let target := place + 4 + Thumb.halfOffset (instruction.extractLsb' 0 8)
  have even : target.toNat % 2 = 0 := even_halfOffset here.placed _
  have writes : (ThumbTurn.narrow instruction).moved load (place + 4) =
      (instruction &&& 0xFF00) :: 0xE003 :: longJump (target ||| 1) := by
    simp only [ThumbTurn.moved, relocateInstructionInThumb16, kind, condition_offset, target]
  have does : (ThumbTurn.narrow instruction).performMoved others place (a + 12) core =
      (core, if core.flags.passes (instruction.extractLsb' 8 4) then .branch target true
        else .behind) := by
    simp only [ThumbTurn.performMoved, kind,
      thumbPerform_of_decode (decode_condition known real), Thumb.Instruction.execute, target]
  refine RunsAsMovedThumb.intro writes does rfl (fun halves => ?_) here
  rw [follow_choice even]
  refine reaches_choice here.aligned halves (not_isWide
    ((matches_masked_iff (by decide)).mpr known) (by decide)) ?_
  rw [thumbPerform_of_decode (decode_condition_cleared known real), Thumb.Instruction.execute]
  have next : a + 4 + Thumb.halfOffset (0 : BitVec 8) = a + 4 := BitVec.add_zero _
  rw [next]

theorem runs_b2
    (here : IsMovedThumb others load place a (.narrow instruction) core)
    (kind : getTypeInThumb16 instruction = .b2Thumb16) :
    RunsAsMovedThumb others load place a (.narrow instruction) core := by
  have known := getTypeInThumb16_matches instruction
  simp only [kind] at known
  let target := place + 4 + Thumb.halfOffset (instruction.extractLsb' 0 11)
  have even : target.toNat % 2 = 0 := even_halfOffset here.placed _
  have writes : (ThumbTurn.narrow instruction).moved load (place + 4) =
      longJump (target ||| 1) := by
    simp only [ThumbTurn.moved, relocateInstructionInThumb16, kind, near_offset, target]
  have does : (ThumbTurn.narrow instruction).performMoved others place (a + 8) core =
      (core, .branch target true) := by
    simp only [ThumbTurn.performMoved, kind,
      thumbPerform_of_decode (decode_near known), Thumb.Instruction.execute, target]
  refine RunsAsMovedThumb.intro writes does rfl (fun halves => ?_) here
  have jumped := @reaches_longJump others core a _ here.aligned halves
  rwa [exchange_odd even] at jumped

/-- The families that load a low register with a value known when they are moved. -/
theorem runs_thumbLiteral
    (here : IsMovedThumb others load place a (.narrow instruction) core)
    (r : BitVec 3) (value : Word)
    (writes : (ThumbTurn.narrow instruction).moved load (place + 4) =
      ((0x4800 : Half) ||| (r.setWidth 16 <<< 8)) :: 0xE001 :: halves value)
    (does : (ThumbTurn.narrow instruction).performMoved others place (a + 8) core =
      (core.set (Thumb.lowRegister r) value, .behind)) :
    RunsAsMovedThumb others load place a (.narrow instruction) core := by
  refine RunsAsMovedThumb.intro writes does rfl (fun halves => ?_) here
  exact reaches_thumbLiteral here.aligned halves

theorem runs_mov
    (here : IsMovedThumb others load place a (.narrow instruction) core)
    (kind : getTypeInThumb16 instruction = .movThumb16) :
    RunsAsMovedThumb others load place a (.narrow instruction) core := by
  have known := getTypeInThumb16_matches instruction
  have low := here.supported
  simp only [ThumbTurn.Supported, kind] at known low
  have field : instruction &&& 0x7 = (instruction.extractLsb' 0 3).setWidth 16 :=
    and_mask instruction 3
  have register : ∀ r : BitVec 3, (0 : BitVec 1) ++ r = Thumb.lowRegister r ∧
      Thumb.lowRegister r ≠ pc := by
    decide
  obtain ⟨same, notPc⟩ := register (instruction.extractLsb' 0 3)
  have decoded := decode_thumbMov (known.weaken (by decide))
  rw [operand_thumbPc known (by decide) (by decide), low, same] at decoded
  refine here.runs_thumbLiteral (instruction.extractLsb' 0 3) (place + 4)
    (by simp only [ThumbTurn.moved, relocateInstructionInThumb16, kind, field]; rfl) ?_
  simp only [ThumbTurn.performMoved, kind, thumbPerform_of_decode decoded,
    Thumb.Instruction.execute, Core.read_pc, Thumb.writeBranching, if_neg notPc]

theorem runs_adr
    (here : IsMovedThumb others load place a (.narrow instruction) core)
    (kind : getTypeInThumb16 instruction = .adrThumb16) :
    RunsAsMovedThumb others load place a (.narrow instruction) core := by
  have known := getTypeInThumb16_matches instruction
  have plain := here.supported
  simp only [ThumbTurn.Supported, kind] at known plain
  have masked : instruction.setWidth 32 &&& (0xFF : Word) =
      (instruction.extractLsb' 0 8).setWidth 32 :=
    half_mask instruction 8
  refine here.runs_thumbLiteral (instruction.extractLsb' 8 3)
    ((Thumb.align (place + 4) + (instruction.extractLsb' 0 8).setWidth 32) <<< 2) ?_ ?_
  · simp only [ThumbTurn.moved, relocateInstructionInThumb16, kind, masked, register_low]
    rfl
  · simp only [ThumbTurn.performMoved, kind, thumbPerform_of_decode (decode_thumbAdr known),
      Thumb.Instruction.execute, plain]

theorem runs_ldr
    (here : IsMovedThumb others load place a (.narrow instruction) core)
    (kind : getTypeInThumb16 instruction = .ldrThumb16) :
    RunsAsMovedThumb others load place a (.narrow instruction) core := by
  have known := getTypeInThumb16_matches instruction
  simp only [kind] at known
  have same := here.literal _ (if_pos kind)
  refine here.runs_thumbLiteral (instruction.extractLsb' 8 3) (load (Thumb.align (place + 4) +
    (instruction.extractLsb' 0 8 ++ 0#2).setWidth 32)) ?_ ?_
  · simp only [ThumbTurn.moved, relocateInstructionInThumb16, kind, literal_offset, register_low]
    rfl
  · simp only [ThumbTurn.performMoved, kind, thumbPerform_of_decode (decode_thumbLdr known),
      Thumb.Instruction.execute, same]

theorem runs_cb
    (here : IsMovedThumb others load place a (.narrow instruction) core)
    (kind : getTypeInThumb16 instruction = .cbThumb16) :
    RunsAsMovedThumb others load place a (.narrow instruction) core := by
  have known := getTypeInThumb16_matches instruction
  simp only [kind] at known
  let target := place + 4 +
    (instruction.extractLsb' 9 1 ++ instruction.extractLsb' 3 5 ++ 0#1).setWidth 32
  have even : target.toNat % 2 = 0 := by
    refine even_add (even_behind here.placed) ?_
    rw [BitVec.getLsbD_setWidth, BitVec.getLsbD_append, if_pos Nat.one_pos]
    simp
  have writes : (ThumbTurn.narrow instruction).moved load (place + 4) =
      (instruction &&& 0xFD07) :: 0xE003 :: longJump (target ||| 1) := by
    simp only [ThumbTurn.moved, relocateInstructionInThumb16, kind, zero_offset]
    rw [add_one_of_even even]
  have does : (ThumbTurn.narrow instruction).performMoved others place (a + 12) core =
      (core, if (core.register (Thumb.lowRegister (instruction.extractLsb' 0 3)) == 0) !=
        instruction.getLsbD 11 then .branch target true else .behind) := by
    simp only [ThumbTurn.performMoved, kind, thumbPerform_of_decode (decode_zero known),
      Thumb.Instruction.execute, target]
  refine RunsAsMovedThumb.intro writes does rfl (fun halves => ?_) here
  rw [follow_choice even]
  refine reaches_choice here.aligned halves (not_isWide
    ((matches_masked_iff (by decide)).mpr known) (by decide)) ?_
  rw [thumbPerform_of_decode (decode_zero_cleared known), Thumb.Instruction.execute]
  have next : a + 4 + ((0 : BitVec 6) ++ 0#1).setWidth 32 = a + 4 := BitVec.add_zero _
  rw [next]

theorem runs_undefine
    (here : IsMovedThumb others load place a (.narrow instruction) core)
    (kind : getTypeInThumb16 instruction = .undefine) :
    RunsAsMovedThumb others load place a (.narrow instruction) core := by
  have supported := here.supported
  simp only [ThumbTurn.Supported, kind] at supported
  have does : (ThumbTurn.narrow instruction).performMoved others place (a + 4) core =
      Thumb.perform others place instruction core := by
    simp only [ThumbTurn.performMoved, kind]
  have writes : (ThumbTurn.narrow instruction).moved load (place + 4) =
      [instruction, 0xBF00] := by
    simp only [ThumbTurn.moved, relocateInstructionInThumb16, kind]
  have kept := here.kept
  rw [writes] at kept
  refine RunsAsMovedThumb.intro writes does rfl (fun halves => ?_) here
  obtain ⟨first, nop, -⟩ := halves
  refine Reaches.thumb first here.formed (supported.2 a place core) ?_
  cases next : (Thumb.perform others place instruction core).2 with
  | branch address thumb => exact Reaches.refl _
  | behind =>
      -- the instruction leaves the halfword behind it alone
      have still : halfAt (Thumb.perform others place instruction core).1.memory (a + 2) =
          0xBF00 := by
        rw [← nop]
        exact halfAt_congr fun there inside => kept there (InRange.of_behind inside)
      have last : a + 2 + 2 = a + 4 := by bv_omega
      exact reaches_nop still (last ▸ Reaches.refl _)

theorem runs_add
    (here : IsMovedThumb others load place a (.narrow instruction) core)
    (kind : getTypeInThumb16 instruction = .addThumb16) :
    RunsAsMovedThumb others load place a (.narrow instruction) core := by
  have known := getTypeInThumb16_matches instruction
  have plain := here.supported
  simp only [ThumbTurn.Supported, kind] at known plain
  obtain ⟨chosen, notRd⟩ := lowScratch_spec instruction
  obtain ⟨notSp, notPc⟩ := lowRegister_plain (lowScratch instruction)
  have decoded := decode_thumbAdd (known.weaken (by decide))
  rw [operand_thumbPc known (by decide) (by decide)] at decoded
  have renamed := decode_thumbRenamed (lowScratch instruction) (known.weaken (by decide))
  have writes : (ThumbTurn.narrow instruction).moved load (place + 4) =
      thumbBracket (lowScratch instruction) (thumbRenamed instruction (lowScratch instruction))
        (place + 4) := by
    simp only [ThumbTurn.moved, relocateInstructionInThumb16, kind, chosen]
    rfl
  let rd : Register := instruction.extractLsb' 7 1 ++ instruction.extractLsb' 0 3
  let sum := core.register rd + (place + 4)
  have direct : Thumb.perform others place instruction core = (core.set rd sum, .behind) := by
    simp only [thumbPerform_of_decode decoded, Thumb.Instruction.execute, Core.read_pc,
      Core.read_of_ne plain.2, Thumb.writeBranching, if_neg plain.2, rd, sum]
  let used := Thumb.lowRegister (lowScratch instruction)
  have inBracket : Thumb.perform others (a + 4)
      (thumbRenamed instruction (lowScratch instruction)) ((core.push used).set used (place + 4)) =
        (((core.push used).set used (place + 4)).set rd sum, .behind) := by
    simp only [thumbPerform_of_decode renamed, Thumb.Instruction.execute,
      Core.read_of_ne plain.2, Core.read_of_ne notPc, Core.set_same, Core.set_other notRd.symm,
      Core.push_other plain.1, Thumb.writeBranching, if_neg plain.2, rd, sum, used]
  have does : (ThumbTurn.narrow instruction).performMoved others place (a + 16) core =
      ({ core.set rd sum with memory := (core.push used).memory }, .behind) := by
    simp only [ThumbTurn.performMoved, kind, direct, Core.push_memory]
    rfl
  have narrow : ¬Thumb.IsWide (thumbRenamed instruction (lowScratch instruction)) :=
    not_isWide (matches_thumbRenamed _ (known.weaken (by decide))) (by decide)
  refine RunsAsMovedThumb.intro writes does rfl (fun halves => ?_) here
  have stack : (((core.push used).set used (place + 4)).set rd sum).register sp =
      core.register sp - 4 := by
    rw [Core.set_other plain.1.symm, Core.set_other notSp.symm, Core.push_sp]
  have restores := @restored core rd used plain notRd (place + 4) sum core.flags
  have ran := reaches_thumbBracket here.aligned halves (here.stack kind) narrow inBracket stack rfl
  rw [Next.follow_behind]
  exact restores ▸ ran

/-! ## Instructions of two halfwords -/

theorem even_align (address : Word) : (Thumb.align address).toNat % 2 = 0 := by
  have low : (Thumb.align address).getLsbD 0 = false := by
    rw [Thumb.align, BitVec.getLsbD_and]
    exact Bool.and_false _
  rw [getLsbD_zero_eq, decide_eq_false_iff_not] at low
  omega

theorem align_behind (placed : place.toNat % 4 = 0) : alignPc (place + 4) = place + 4 := by
  have aligned : (place + 4).toNat % 4 = 0 := by bv_omega
  exact align_of_aligned aligned

theorem runs_blx
    (here : IsMovedThumb others load place a (.wide high low) core)
    (kind : getTypeInThumb32 (high ++ low) = .blxThumb32) :
    RunsAsMovedThumb others load place a (.wide high low) core := by
  have known := here.supported
  simp only [ThumbTurn.Supported, kind] at known
  let target := Thumb.align (place + 4) + (exchangeImmediate high low ++ 0#2).signExtend 32
  have even : target.toNat % 2 = 0 :=
    even_add (even_align _) (append_zeros_low (exchangeImmediate high low) 1)
  have writes : (ThumbTurn.wide high low).moved load (place + 4) =
      0xF20F :: 0x0E09 :: longJump target := by
    simp only [ThumbTurn.moved, relocateInstructionInThumb32, append_eq_shift_or, kind, field_s,
      field_j1, field_j2, field_imm10, field_imm10L, combined_bit, exchange_long_offset]
    rfl
  have does : (ThumbTurn.wide high low).performMoved others place (a + 12) core =
      (core.set lr ((a + 12) ||| 1), .branch target false) := by
    simp only [ThumbTurn.performMoved, kind,
      thumbPerformWide_of_decode (decode_longExchange known), Thumb.WideInstruction.execute,
      Core.set_set, target]
  refine RunsAsMovedThumb.intro writes does rfl (fun halves => ?_) here
  have called := @reaches_thumbCall others core a _ here.aligned halves
  rwa [exchange_even even] at called

theorem runs_bl
    (here : IsMovedThumb others load place a (.wide high low) core)
    (kind : getTypeInThumb32 (high ++ low) = .blThumb32) :
    RunsAsMovedThumb others load place a (.wide high low) core := by
  have known := getTypeInThumb32_matches (high ++ low)
  have placed := here.supported
  simp only [ThumbTurn.Supported, kind] at known placed
  let target := place + 4 + Thumb.halfOffset (longImmediate high low)
  have even : target.toNat % 2 = 0 := even_halfOffset here.placed _
  have writes : (ThumbTurn.wide high low).moved load (place + 4) =
      0xF20F :: 0x0E09 :: longJump (target ||| 1) := by
    simp only [ThumbTurn.moved, relocateInstructionInThumb32, append_eq_shift_or, kind, field_s,
      field_j1, field_j2, field_imm10, field_imm11, combined_bit, long_offset,
      align_behind placed]
    rw [← add_one_of_even even]
    rfl
  have does : (ThumbTurn.wide high low).performMoved others place (a + 12) core =
      (core.set lr ((a + 12) ||| 1), .branch target true) := by
    simp only [ThumbTurn.performMoved, kind,
      thumbPerformWide_of_decode (decode_longCall known), Thumb.WideInstruction.execute,
      Core.set_set, target]
  refine RunsAsMovedThumb.intro writes does rfl (fun halves => ?_) here
  have called := @reaches_thumbCall others core a _ here.aligned halves
  rwa [exchange_odd even] at called

theorem runs_longB1
    (here : IsMovedThumb others load place a (.wide high low) core)
    (kind : getTypeInThumb32 (high ++ low) = .b1Thumb32) :
    RunsAsMovedThumb others load place a (.wide high low) core := by
  have known := getTypeInThumb32_matches (high ++ low)
  obtain ⟨placed, real⟩ : _ ∧ _ := by
    simpa only [ThumbTurn.Supported, kind] using here.supported
  simp only [kind] at known
  let target := place + 4 + Thumb.halfOffset (conditionImmediate high low)
  have even : target.toNat % 2 = 0 := even_halfOffset here.placed _
  have writes : (ThumbTurn.wide high low).moved load (place + 4) =
      ((0xD000 : Half) ||| ((high &&& 0x3C0) <<< 2)) :: 0xE003 :: longJump (target ||| 1) := by
    simp only [ThumbTurn.moved, relocateInstructionInThumb32, append_eq_shift_or, kind, field_s,
      field_j1, field_j2, field_imm6, field_imm11, condition_long_offset, align_behind placed]
    rw [← add_one_of_even even]
    rfl
  have does : (ThumbTurn.wide high low).performMoved others place (a + 12) core =
      (core, if core.flags.passes ((high ++ low).extractLsb' 22 4) then .branch target true
        else .behind) := by
    simp only [ThumbTurn.performMoved, kind,
      thumbPerformWide_of_decode (decode_longCondition known real),
      Thumb.WideInstruction.execute, target]
  obtain ⟨decoded, narrow⟩ := decode_shortened high low real
  refine RunsAsMovedThumb.intro writes does rfl (fun halves => ?_) here
  rw [follow_choice even]
  refine reaches_choice here.aligned halves narrow ?_
  rw [thumbPerform_of_decode decoded, Thumb.Instruction.execute]
  have next : a + 4 + Thumb.halfOffset (0 : BitVec 8) = a + 4 := BitVec.add_zero _
  rw [next]

theorem runs_longB2
    (here : IsMovedThumb others load place a (.wide high low) core)
    (kind : getTypeInThumb32 (high ++ low) = .b2Thumb32) :
    RunsAsMovedThumb others load place a (.wide high low) core := by
  have known := getTypeInThumb32_matches (high ++ low)
  have placed := here.supported
  simp only [ThumbTurn.Supported, kind] at known placed
  let target := place + 4 + Thumb.halfOffset (longImmediate high low)
  have even : target.toNat % 2 = 0 := even_halfOffset here.placed _
  have writes : (ThumbTurn.wide high low).moved load (place + 4) = longJump (target ||| 1) := by
    simp only [ThumbTurn.moved, relocateInstructionInThumb32, append_eq_shift_or, kind, field_s,
      field_j1, field_j2, field_imm10, field_imm11, combined_bit, long_offset,
      align_behind placed]
    rw [← add_one_of_even even]
    rfl
  have does : (ThumbTurn.wide high low).performMoved others place (a + 8) core =
      (core, .branch target true) := by
    simp only [ThumbTurn.performMoved, kind,
      thumbPerformWide_of_decode (decode_longBranch known), Thumb.WideInstruction.execute, target]
  refine RunsAsMovedThumb.intro writes does rfl (fun halves => ?_) here
  have jumped := @reaches_longJump others core a _ here.aligned halves
  rwa [exchange_odd even] at jumped

theorem runs_longLdr
    (here : IsMovedThumb others load place a (.wide high low) core)
    (kind : getTypeInThumb32 (high ++ low) = .ldrThumb32) :
    RunsAsMovedThumb others load place a (.wide high low) core := by
  have known := getTypeInThumb32_matches (high ++ low)
  simp only [kind] at known
  have same := here.literal _ (if_pos kind)
  have offset : low.setWidth 32 &&& (0xFFF : Word) =
      ((high ++ low).extractLsb' 0 12).setWidth 32 := by
    rw [← @low_field high low 0 12 (by decide)]
    exact half_mask low 12
  have register : low >>> 12 = ((high ++ low).extractLsb' 12 4).setWidth 16 := by
    rw [← @low_field high low 12 4 (by decide)]
    ext index inside
    by_cases inField : index < 4
    · simp [inField]
    · simpa [inField] using BitVec.getLsbD_of_ge low (12 + index) (by omega)
  have up : (high &&& (0x80 : Half)) >>> 7 ≠ 0 ↔ (high ++ low : Word).getLsbD 23 = true := by
    have single : ∀ bit : BitVec 1, bit.setWidth 16 ≠ (0 : Half) ↔ bit.getLsbD 0 = true := by
      decide
    have field : (high &&& (0x80 : Half)) >>> 7 = (high.extractLsb' 7 1).setWidth 16 :=
      @lowered_field 16 high 7 1 (by decide)
    rw [field, single, high_field high low, BitVec.getLsbD_extractLsb']
    rfl
  have value : (if (high &&& (0x80 : Half)) >>> 7 ≠ 0 then
        load (alignPc (place + 4) + ((high ++ low).extractLsb' 0 12).setWidth 32)
      else load (alignPc (place + 4) - ((high ++ low).extractLsb' 0 12).setWidth 32)) =
      load (offsetAddress ((high ++ low : Word).getLsbD 23) (Thumb.align (place + 4))
        ((high ++ low : Word).extractLsb' 0 12)) := by
    simp only [up, offsetAddress]
    cases (high ++ low : Word).getLsbD 23 <;> rfl
  have writes : (ThumbTurn.wide high low).moved load (place + 4) =
      (0xF8DF : Half) :: ((((high ++ low).extractLsb' 12 4).setWidth 16 <<< 12) ||| (4 : Half)) ::
        0xBF00 :: 0xE001 :: halves (load (offsetAddress ((high ++ low : Word).getLsbD 23)
          (Thumb.align (place + 4)) ((high ++ low : Word).extractLsb' 0 12))) := by
    simp only [ThumbTurn.moved, relocateInstructionInThumb32, append_eq_shift_or, kind, offset,
      register, value]
    rfl
  have does : (ThumbTurn.wide high low).performMoved others place (a + 12) core =
      core.write ((high ++ low).extractLsb' 12 4)
        (load (offsetAddress ((high ++ low : Word).getLsbD 23) (Thumb.align (place + 4))
          ((high ++ low : Word).extractLsb' 0 12))) := by
    simp only [ThumbTurn.performMoved, kind, thumbPerformWide_of_decode (decodeWide_ldr known),
      Thumb.WideInstruction.execute, same]
  refine RunsAsMovedThumb.intro writes does rfl (fun halves => ?_) here
  exact reaches_wideLiteral here.aligned halves

theorem runs_longUndefine
    (here : IsMovedThumb others load place a (.wide high low) core)
    (kind : getTypeInThumb32 (high ++ low) = .undefine) :
    RunsAsMovedThumb others load place a (.wide high low) core := by
  have anywhere := here.supported
  simp only [ThumbTurn.Supported, kind] at anywhere
  have does : (ThumbTurn.wide high low).performMoved others place (a + 4) core =
      Thumb.performWide others place (high ++ low) core := by
    simp only [ThumbTurn.performMoved, kind]
  have writes : (ThumbTurn.wide high low).moved load (place + 4) = [high, low] := by
    simp only [ThumbTurn.moved, relocateInstructionInThumb32, append_eq_shift_or, kind]
  refine RunsAsMovedThumb.intro writes does rfl (fun halves => ?_) here
  exact Reaches.thumbWide halves.1 here.formed halves.2.1 (anywhere a place core) (Reaches.refl _)

/-- The moved halfwords do what the instruction did. -/
theorem runs
    (here : IsMovedThumb others load place a turn core) :
    RunsAsMovedThumb others load place a turn core := by
  have supported := here.supported
  cases turn with
  | cut high =>
      have home : a + BitVec.ofNat 32 0 = a := BitVec.add_zero a
      change Reaches others ⟨core, a, true⟩ ⟨core, a + BitVec.ofNat 32 0, true⟩
      rw [home]
      exact Reaches.refl _
  | narrow instruction =>
      have known := getTypeInThumb16_matches instruction
      simp only [ThumbTurn.Supported] at supported
      cases kind : getTypeInThumb16 instruction with
      | b1Thumb16 => exact here.runs_b1 kind
      | b2Thumb16 => exact here.runs_b2 kind
      | addThumb16 => exact here.runs_add kind
      | movThumb16 => exact here.runs_mov kind
      | adrThumb16 => exact here.runs_adr kind
      | ldrThumb16 => exact here.runs_ldr kind
      | cbThumb16 => exact here.runs_cb kind
      | undefine => exact here.runs_undefine kind
      | _ => simp only [kind] at known supported
  | wide high low =>
      have known := getTypeInThumb32_matches (high ++ low)
      simp only [ThumbTurn.Supported] at supported
      cases kind : getTypeInThumb32 (high ++ low) with
      | blxThumb32 => exact here.runs_blx kind
      | blThumb32 => exact here.runs_bl kind
      | b1Thumb32 => exact here.runs_longB1 kind
      | b2Thumb32 => exact here.runs_longB2 kind
      | ldrThumb32 => exact here.runs_longLdr kind
      | undefine => exact here.runs_longUndefine kind
      | _ => simp only [kind] at known supported

end IsMovedThumb

/-! ## How the cores differ -/

theorem even_thumbSize
    (load : Word -> Word) (place : Word) (turn : ThumbTurn) (aligned : a.toNat % 4 = 0) :
    (a + thumbSize load place turn).toNat % 2 = 0 := by
  rw [thumbSize, BitVec.toNat_add, BitVec.toNat_ofNat]
  omega

/-- The lowest bit of a return address is set. -/
theorem Mirrors.relinkThumb
    {after : Word} (placed : place.toNat % 2 = 0) (even : after.toNat % 2 = 0)
    (below : Word) (core : Core) :
    Mirrors (place + 1) (after + 1) below (core.set lr ((place + 4) ||| 1))
      (core.set lr (after ||| 1)) := by
  have next : (place + 4) ||| 1 = place + 1 + 4 := by
    rw [← add_one_of_even (even_behind placed), BitVec.add_assoc, BitVec.add_assoc,
      BitVec.add_comm 4]
  rw [next, ← add_one_of_even even]
  exact Mirrors.relink _ _ _ _

/-- An addition to a register leaves the memory alone. -/
theorem thumbPerform_add_memory
    (kind : getTypeInThumb16 instruction = .addThumb16)
    (plain : IsPlain (instruction.extractLsb' 7 1 ++ instruction.extractLsb' 0 3)) :
    (Thumb.perform others place instruction core).1.memory = core.memory := by
  have known := getTypeInThumb16_matches instruction
  simp only [kind] at known
  rw [thumbPerform_of_decode (decode_thumbAdd (known.weaken (by decide))),
    Thumb.Instruction.execute, Thumb.writeBranching, if_neg plain.2]
  rfl

theorem performMoved_mirrors
    {after : Word} (placed : place.toNat % 2 = 0) (even : after.toNat % 2 = 0)
    (supported : turn.Supported others place) :
    (turn.performMoved others place after core).2 = (turn.perform others place core).2 ∧
      Mirrors (place + 1) (after + 1) (core.register sp - 4)
        (turn.perform others place core).1 (turn.performMoved others place after core).1 := by
  cases turn with
  | cut high => exact ⟨rfl, Mirrors.refl _ _ _ _⟩
  | narrow instruction =>
      simp only [ThumbTurn.Supported] at supported
      simp only [ThumbTurn.performMoved, ThumbTurn.perform]
      cases kind : getTypeInThumb16 instruction with
      | addThumb16 =>
          simp only [kind] at supported
          have result : (Thumb.perform others place instruction core).1.memory = core.memory :=
            thumbPerform_add_memory kind supported
          have stored := Mirrors.store (place + 1) (after + 1) (core.register sp - 4)
            (core.register (Thumb.lowRegister (lowScratch instruction)))
            (Thumb.perform others place instruction core).1
          rw [result] at stored
          exact ⟨rfl, stored⟩
      | _ => exact ⟨rfl, Mirrors.refl _ _ _ _⟩
  | wide high low =>
      have known := getTypeInThumb32_matches (high ++ low)
      simp only [ThumbTurn.Supported] at supported
      simp only [ThumbTurn.performMoved, ThumbTurn.perform]
      cases kind : getTypeInThumb32 (high ++ low) with
      | blxThumb32 =>
          simp only [kind] at supported
          simp only [thumbPerformWide_of_decode (decode_longExchange supported),
            Thumb.WideInstruction.execute, Core.set_set]
          exact ⟨trivial, Mirrors.relinkThumb placed even _ _⟩
      | blThumb32 =>
          simp only [kind] at known
          simp only [thumbPerformWide_of_decode (decode_longCall known),
            Thumb.WideInstruction.execute, Core.set_set]
          exact ⟨trivial, Mirrors.relinkThumb placed even _ _⟩
      | _ => exact ⟨rfl, Mirrors.refl _ _ _ _⟩

/-- A moved instruction goes where the instruction goes at its own place, and leaves the
state that it leaves there. -/
theorem moved_thumb_instruction_preserves_meaning
    (here : IsMovedThumb others load place a turn core) :
    ∃ final,
      Reaches others ⟨core, a, true⟩
        ((turn.perform others place core).2.follow a (thumbSize load place turn) true final) ∧
      Mirrors (place + 1) (a + thumbSize load place turn + 1) (core.register sp - 4)
        (turn.perform others place core).1 final := by
  obtain ⟨goes, mirrors⟩ := @performMoved_mirrors others place core turn _ here.placed
    (even_thumbSize load place turn here.aligned) here.supported
  have ran := here.runs
  simp only [RunsAsMovedThumb] at ran
  rw [goes] at ran
  exact ⟨_, ran, mirrors⟩

end

/-- A call that is moved from one place to another. -/
theorem moved_thumb_call_preserves_meaning :
    let others : Others := fun _ _ core => (core, .behind)
    let load : Word -> Word := fun _ => 0
    let turn : ThumbTurn := .wide 0xF000 0xF800
    let core : Core := ⟨fun _ => 0, ⟨false, false, false, false⟩,
      storeHalves (fun _ => 0) 0x2000 (turn.moved load (0x1000 + 4))⟩
    ∃ final,
      Reaches others ⟨core, 0x2000, true⟩
        ((turn.perform others 0x1000 core).2.follow 0x2000 (thumbSize load 0x1000 turn) true
          final) ∧
      Mirrors (0x1000 + 1) (0x2000 + thumbSize load 0x1000 turn + 1) (core.register sp - 4)
        (turn.perform others 0x1000 core).1 final := by
  intro others load turn core
  have kind : getTypeInThumb32 ((0xF000 : Half) ++ (0xF800 : Half)) = .blThumb32 := by decide
  exact moved_thumb_instruction_preserves_meaning
    { formed := (by decide : Thumb.IsWide 0xF000)
      supported := by
        simp only [turn, ThumbTurn.Supported, kind]
        decide
      placed := by decide
      aligned := by decide
      code := storeHalves_holds _ _ (by decide)
      literal := fun _ found => by
        rw [ThumbTurn.literal, kind] at found
        cases found
      stack := fun uses => absurd uses not_false
      kept := fun _ _ => rfl }

end HookEngine
end UnityLocalization
