import UnityLocalization.HookEngine.ArmRelocation
import UnityLocalization.Library.SignedField

/-!
# The words of an ARM trampoline

What the words mean that `relocateInstructionInArm` reads and writes, and what a run of
the written ones does.
-/

namespace UnityLocalization
namespace HookEngine

open WordMemory Arm

/-! ## Reading the words of a program -/

/-- The bits that are known of a word when `getTypeInArm` has named its family. -/
theorem getTypeInArm_matches (instruction : Word) :
    match getTypeInArm instruction with
    | .blxArm => Matches 0xFE000000 0xFA000000 instruction
    | .blArm =>
        Matches 0x0F000000 0x0B000000 instruction ∧
          ¬Matches 0xFE000000 0xFA000000 instruction
    | .bArm =>
        Matches 0x0F000000 0x0A000000 instruction ∧
          ¬Matches 0xFE000000 0xFA000000 instruction
    | .addArm => Matches 0x0FEF0010 0x008F0000 instruction
    | .adr1Arm => Matches 0x0FFF0000 0x028F0000 instruction
    | .adr2Arm => Matches 0x0FFF0000 0x024F0000 instruction
    | .ldrArm => Matches 0x0E5F0000 0x041F0000 instruction
    | .bxArm | .movArm | .undefine => True
    | _ => False := by
  rw [getTypeInArm]
  split_ifs with blx bl b bx add adr1 adr2 ldr mov
  · exact blx
  · exact ⟨bl, blx⟩
  · exact ⟨b, blx⟩
  · trivial
  · exact add
  · exact adr1
  · exact adr2
  · exact ldr
  · trivial
  · trivial

/-- The word is not one of the unconditional instructions. -/
def Conditional (instruction : Word) : Prop := ¬Matches 0xF0000000 0xF0000000 instruction

instance (instruction : Word) : Decidable (Conditional instruction) :=
  inferInstanceAs (Decidable (¬_))

/-- `BLX` with an offset has no condition, so it is told apart first. -/
theorem decode_blx
    {instruction : Word} (known : Matches 0xFE000000 0xFA000000 instruction) :
    decode instruction =
      some (.blx (instruction.extractLsb' 24 1) (instruction.extractLsb' 0 24)) := by
  rw [decode, if_pos known]

/-- A call.  Without a condition the same bits are `BLX`. -/
theorem decode_bl
    {instruction : Word} (known : Matches 0x0F000000 0x0B000000 instruction)
    (noBlx : ¬Matches 0xFE000000 0xFA000000 instruction) :
    decode instruction = some (.bl (instruction.extractLsb' 0 24)) := by
  have conditional : Conditional instruction := fun unconditional =>
    noBlx ((unconditional.join known).weaken (by decide))
  rw [decode, if_neg noBlx, if_neg conditional, if_neg (known.excludes (by decide)),
    if_pos known]

theorem decode_b
    {instruction : Word} (known : Matches 0x0F000000 0x0A000000 instruction)
    (noBlx : ¬Matches 0xFE000000 0xFA000000 instruction) :
    decode instruction = some (.b (instruction.extractLsb' 0 24)) := by
  have conditional : Conditional instruction := fun unconditional =>
    noBlx ((unconditional.join known).weaken (by decide))
  rw [decode, if_neg noBlx, if_neg conditional, if_pos known]

/-- An addition of two registers, the second one shifted by a constant. -/
theorem decode_add
    {instruction : Word} (known : Matches 0x0FE00010 0x00800000 instruction)
    (conditional : Conditional instruction) :
    decode instruction =
      some (.add (instruction.getLsbD 20) (instruction.extractLsb' 12 4)
        (instruction.extractLsb' 16 4) (instruction.extractLsb' 0 4)
        (instruction.extractLsb' 5 2) (instruction.extractLsb' 7 5)) := by
  rw [decode, if_neg (known.excludes (by decide)), if_neg conditional,
    if_neg (known.excludes (by decide)), if_neg (known.excludes (by decide)),
    if_neg (known.excludes (by decide)), if_pos known]

/-- An addition of a rotated constant: `ADR` of a later address, if it reads register 15. -/
theorem decode_addImmediate
    {instruction : Word} (known : Matches 0x0FF00000 0x02800000 instruction)
    (conditional : Conditional instruction) :
    decode instruction =
      some (.addImmediate (instruction.extractLsb' 12 4) (instruction.extractLsb' 16 4)
        (instruction.extractLsb' 0 12)) := by
  rw [decode, if_neg (known.excludes (by decide)), if_neg conditional,
    if_neg (known.excludes (by decide)), if_neg (known.excludes (by decide)),
    if_neg (known.excludes (by decide)), if_neg (known.excludes (by decide)), if_pos known]

/-- A subtraction of a rotated constant: `ADR` of an earlier address, if it reads register 15. -/
theorem decode_subImmediate
    {instruction : Word} (known : Matches 0x0FF00000 0x02400000 instruction)
    (conditional : Conditional instruction) :
    decode instruction =
      some (.subImmediate (instruction.extractLsb' 12 4) (instruction.extractLsb' 16 4)
        (instruction.extractLsb' 0 12)) := by
  rw [decode, if_neg (known.excludes (by decide)), if_neg conditional,
    if_neg (known.excludes (by decide)), if_neg (known.excludes (by decide)),
    if_neg (known.excludes (by decide)), if_neg (known.excludes (by decide)),
    if_neg (known.excludes (by decide)), if_pos known]

/-- A load with a constant offset.  Bits 24, 23 and 21 say how the address is formed. -/
theorem decode_ldr
    {instruction : Word} (known : Matches 0x0E500000 0x04100000 instruction)
    (conditional : Conditional instruction) :
    decode instruction =
      some (.ldr (instruction.getLsbD 24) (instruction.getLsbD 23)
        (instruction.getLsbD 21) (instruction.extractLsb' 12 4)
        (instruction.extractLsb' 16 4) (instruction.extractLsb' 0 12)) := by
  rw [decode, if_neg (known.excludes (by decide)), if_neg conditional,
    if_neg (known.excludes (by decide)), if_neg (known.excludes (by decide)),
    if_neg (known.excludes (by decide)), if_neg (known.excludes (by decide)),
    if_neg (known.excludes (by decide)), if_neg (known.excludes (by decide)),
    if_neg (known.excludes (by decide)), if_pos known]

/-! ## The words of the trampoline -/

/-- `LDR PC, [PC, #-4]`: every long jump is this word and its destination. -/
theorem decode_jump : decode 0xE51FF004 = some (.ldr true false false pc pc 4) := by decide

/-- `ADD LR, PC, #4` -/
theorem decode_linkNext : decode 0xE28FE004 = some (.addImmediate lr pc 4) := by decide

/-- `ADD PC, PC, #0` -/
theorem decode_skipWord : decode 0xE28FF000 = some (.addImmediate pc pc 0) := by decide

/-- `LDR r, [PC, #-0]`: the word behind the next one. -/
theorem decode_literal : ∀ r : Register,
    decode ((0xE51F0000 : Word) ||| (r.setWidth 32 <<< 12)) =
      some (.ldr true false false r pc 0) := by
  decide

/-- `STR r, [SP, #-4]!` -/
theorem decode_push : ∀ r : Register,
    decode ((0xE52D0004 : Word) ||| (r.setWidth 32 <<< 12)) =
      some (.str true false true r sp 4) := by
  decide

/-- `LDR r, [PC, #8]`: the last word of a bracket. -/
theorem decode_literalBehind : ∀ r : Register,
    decode ((0xE59F0008 : Word) ||| (r.setWidth 32 <<< 12)) =
      some (.ldr true true false r pc 8) := by
  decide

/-- `LDR r, [SP], #4` -/
theorem decode_pop : ∀ r : Register,
    decode ((0xE49D0004 : Word) ||| (r.setWidth 32 <<< 12)) =
      some (.ldr false true false r sp 4) := by
  decide

/-- The words are executed whatever the flags are. -/
theorem condition_always : ∀ r : Register,
    condition ((0xE51F0000 : Word) ||| (r.setWidth 32 <<< 12)) = 14 ∧
      condition ((0xE52D0004 : Word) ||| (r.setWidth 32 <<< 12)) = 14 ∧
      condition ((0xE59F0008 : Word) ||| (r.setWidth 32 <<< 12)) = 14 ∧
      condition ((0xE49D0004 : Word) ||| (r.setWidth 32 <<< 12)) = 14 := by
  decide

/-- Under the condition 14 an instruction is executed whatever the flags are. -/
theorem perform_always
    {others : Others} {place word : Word} {core : Core} {instruction : Arm.Instruction}
    (decoded : decode word = some instruction) (always : condition word = 14) :
    perform others place word core = instruction.execute place core :=
  perform_of_decode decoded (by rw [always]; rfl)

section

variable {others : Others} {core : Core} {a value : Word}

/-- `LDR PC, [PC, #-4]` goes where the next word says. -/
theorem reaches_jump (code : HoldsWords core.memory a [0xE51FF004, value]) :
    Reaches others ⟨core, a, false⟩ ((exchange value).follow a 8 false core) := by
  obtain ⟨jump, word, -⟩ := code
  have address : offsetAddress false (a + 8) 4 = a + 4 := by
    change a + 8 - 4 = a + 4
    bv_omega
  have loaded : perform others a 0xE51FF004 core = (core, exchange value) := by
    rw [perform_always decode_jump (by decide), execute_ldr_pc, address, word, Core.write_pc]
  refine Reaches.arm jump loaded ?_
  rw [follow_exchange value a 4 a 8 false false core]
  exact Reaches.refl _

/-- `ADD LR, PC, #4` before the jump notes the place behind its word. -/
theorem reaches_call (code : HoldsWords core.memory a [0xE28FE004, 0xE51FF004, value]) :
    Reaches others ⟨core, a, false⟩
      ((exchange value).follow a 12 false (core.set lr (a + 12))) := by
  obtain ⟨link, code⟩ := code
  have linked : perform others a 0xE28FE004 core = (core.set lr (a + 12), .behind) := by
    rw [perform_always decode_linkNext (by decide), execute_addImmediate_pc,
      Core.write_of_ne (by decide), show expandImmediate 4 = 4 by decide, BitVec.add_assoc]
    rfl
  refine Reaches.arm link linked ?_
  have jumped := @reaches_jump others (core.set lr (a + 12)) (a + 4) value code
  rwa [follow_exchange value (a + 4) 8 a 12 false false] at jumped

/-- `ADD PC, PC, #0` skips the next word. -/
theorem reaches_skip
    {final : Machine} (aligned : a.toNat % 4 = 0) (code : wordAt core.memory a = 0xE28FF000)
    (later : Reaches others ⟨core, a + 8, false⟩ final) :
    Reaches others ⟨core, a, false⟩ final := by
  have even : (a + 8).toNat % 2 = 0 := by bv_omega
  have skipped : perform others a 0xE28FF000 core = (core, .branch (a + 8) false) := by
    rw [perform_always decode_skipWord (by decide), execute_addImmediate_pc, Core.write_pc,
      show expandImmediate 0 = 0 by decide, show a + 8 + (0 : Word) = a + 8 from
        BitVec.add_zero _, exchange_even even]
  exact Reaches.arm code skipped later

/-- Loading a register with a word that stands in the code. -/
theorem reaches_literal
    {r : Register} (aligned : a.toNat % 4 = 0)
    (code : HoldsWords core.memory a
      [(0xE51F0000 : Word) ||| (r.setWidth 32 <<< 12), 0xE28FF000, value]) :
    Reaches others ⟨core, a, false⟩
      ((core.write r value).2.follow a 12 false (core.write r value).1) := by
  obtain ⟨load, skip, word, -⟩ := code
  have address : offsetAddress false (a + 8) 0 = a + 4 + 4 := by
    change a + 8 - 0 = a + 4 + 4
    bv_omega
  have loaded : perform others a ((0xE51F0000 : Word) ||| (r.setWidth 32 <<< 12)) core =
      core.write r value := by
    rw [perform_always (decode_literal r) (condition_always r).1, execute_ldr_pc, address,
      word]
  refine Reaches.arm load loaded ?_
  by_cases isPc : r = pc
  · rw [isPc, Core.write_pc, follow_exchange value a 4 a 12 false false core]
    exact Reaches.refl _
  · rw [Core.write_of_ne isPc]
    have behind : a + 4 + 8 = a + 12 := by bv_omega
    have aligned4 : (a + 4).toNat % 4 = 0 := by bv_omega
    refine @reaches_skip others (core.set r value) (a + 4) _ aligned4 skip ?_
    rw [behind]
    exact Reaches.refl _

end

/-! ## Fields of a word as the source takes them out -/

/-- The destination register, which the source shifts down. -/
theorem register_field (instruction : Word) :
    (instruction &&& 0xF000) >>> 12 = (instruction.extractLsb' 12 4).setWidth 32 := by
  rw [BitVec.ushiftRight_and_distrib]
  exact shiftRight_and_mask instruction 12 4

theorem extendOffset_eq (field : BitVec 26) :
    extendOffset (field.setWidth 32) = field.signExtend 32 :=
  SignedField.extend_eq_signExtend field (by decide)

/-- The offset of a branch, which the source shifts up and extends. -/
theorem branch_offset (instruction : Word) :
    extendOffset ((instruction &&& 0xFFFFFF) <<< 2) =
      wordOffset (instruction.extractLsb' 0 24) := by
  have masked : instruction &&& 0xFFFFFF = (instruction.extractLsb' 0 24).setWidth 32 :=
    and_mask instruction 24
  rw [masked, shiftLeft_field]
  exact extendOffset_eq _

/-- The offset of BLX has one more bit, which stands elsewhere in the word. -/
theorem exchange_offset (instruction : Word) :
    extendOffset (((instruction &&& 0xFFFFFF) <<< 2) ||| ((instruction &&& 0x1000000) >>> 23)) =
      (instruction.extractLsb' 0 24 ++ instruction.extractLsb' 24 1 ++ 0#1).signExtend 32 := by
  have masked : instruction &&& 0xFFFFFF = (instruction.extractLsb' 0 24).setWidth 32 :=
    and_mask instruction 24
  have half : (instruction &&& 0x1000000) >>> 23 =
      (instruction.extractLsb' 24 1).setWidth 32 <<< 1 := by
    have power : (0x1000000 : Word) = BitVec.twoPow 32 24 := by decide
    rw [power, BitVec.and_twoPow, setWidth_bit]
    split <;> decide
  have joined : (instruction.extractLsb' 0 24).setWidth 32 <<< 2 |||
      (instruction.extractLsb' 24 1).setWidth 32 <<< 1 =
        (instruction.extractLsb' 0 24 ++ instruction.extractLsb' 24 1 ++ 0#1).setWidth 32 := by
    rw [BitVec.setWidth_append_append_eq_shiftLeft_setWidth_or, BitVec.setWidth_zero]
    exact BitVec.or_zero.symm
  rw [masked, half, joined]
  exact extendOffset_eq _

/-- The register that is taken for an addition is neither one of its operands nor a register
with a purpose of its own. -/
theorem freeRegister_spec : ∀ rd rm : Register, ∃ r : Register,
    freeRegister (rd.setWidth 32) (rm.setWidth 32) 12 = r.setWidth 32 ∧
      r ≠ rd ∧ r ≠ rm ∧ r ≠ sp ∧ r ≠ lr ∧ r ≠ pc := by
  decide

/-! ## An addition with another register in the place of register 15 -/

/-- The word with another register as its first operand. -/
def renamed (instruction : Word) (r : Register) : Word :=
  (instruction &&& (0xFFF0FFFF : Word)) ||| (r.setWidth 32 <<< 16)

/-- Only bits 16 to 19 are replaced. -/
theorem renamed_getLsbD (instruction : Word) (r : Register) (index : Nat) :
    (renamed instruction r).getLsbD index =
      if 16 ≤ index ∧ index < 20 then r.getLsbD (index - 16)
      else instruction.getLsbD index := by
  by_cases inside : index < 32
  · have mask : (0xFFF0FFFF : Word).getLsbD index = !decide (16 ≤ index ∧ index < 20) := by
      revert index
      decide
    rw [renamed, BitVec.getLsbD_or, BitVec.getLsbD_and, mask, BitVec.getLsbD_shiftLeft,
      BitVec.getLsbD_setWidth]
    by_cases field : 16 ≤ index ∧ index < 20
    · have room : index - 16 < 32 := by omega
      simp [field, inside, room]
    · have beyond : 16 ≤ index -> r.getLsbD (index - 16) = false := fun above =>
        BitVec.getLsbD_of_ge r (index - 16) (by omega)
      rw [if_neg field, decide_eq_false field]
      by_cases above : 16 ≤ index
      · simp [beyond above]
      · simp [Nat.lt_of_not_le above]
  · rw [BitVec.getLsbD_of_ge _ index (by omega), BitVec.getLsbD_of_ge _ index (by omega),
      if_neg (by omega)]

theorem renamed_field
    (instruction : Word) (r : Register) {low size : Nat}
    (outside : low + size ≤ 16 ∨ 20 ≤ low) :
    (renamed instruction r).extractLsb' low size = instruction.extractLsb' low size := by
  ext index inside
  simp only [BitVec.getElem_extractLsb', renamed_getLsbD]
  rw [if_neg (by omega)]

theorem renamed_register (instruction : Word) (r : Register) :
    (renamed instruction r).extractLsb' 16 4 = r := by
  ext index inside
  simp only [BitVec.getElem_extractLsb', renamed_getLsbD]
  rw [if_pos (by omega), Nat.add_sub_cancel_left]
  rfl

/-- The word is still an addition of two registers. -/
theorem renamed_add
    {instruction : Word} (r : Register) (known : Matches 0x0FE00010 0x00800000 instruction) :
    Matches 0x0FE00010 0x00800000 (renamed instruction r) := by
  apply known.congr
  intro index asked
  rw [renamed_getLsbD, if_neg]
  rintro ⟨above, below⟩
  revert asked
  interval_cases index <;> decide

/-- The addition reads the other register in the place of register 15, and is the same
otherwise. -/
theorem decode_renamed
    {instruction : Word} (r : Register) (known : Matches 0x0FE00010 0x00800000 instruction)
    (conditional : Conditional instruction) :
    decode (renamed instruction r) =
      some (.add (instruction.getLsbD 20) (instruction.extractLsb' 12 4) r
        (instruction.extractLsb' 0 4) (instruction.extractLsb' 5 2)
        (instruction.extractLsb' 7 5)) := by
  have still : Conditional (renamed instruction r) := by
    intro unconditional
    apply conditional
    apply unconditional.congr
    intro index asked
    rw [renamed_getLsbD, if_neg]
    rintro ⟨above, below⟩
    revert asked
    interval_cases index <;> decide
  rw [decode_add (renamed_add r known) still, renamed_getLsbD, if_neg (by decide),
    renamed_register, renamed_field instruction r (by decide),
    renamed_field instruction r (by decide), renamed_field instruction r (by decide),
    renamed_field instruction r (by decide)]

theorem condition_renamed (instruction : Word) (r : Register) :
    condition (renamed instruction r) = condition instruction :=
  renamed_field instruction r (by decide)

/-- A word between saving a register, loading it with the last word and taking it back. -/
def bracket (r : Register) (word value : Word) : List Word :=
  [(0xE52D0004 : Word) ||| (r.setWidth 32 <<< 12),
    (0xE59F0008 : Word) ||| (r.setWidth 32 <<< 12), word,
    (0xE49D0004 : Word) ||| (r.setWidth 32 <<< 12), 0xE28FF000, value]

section

variable {others : Others} {core : Core} {a value word : Word} {r : Register}

/-- The word is executed with the value in the register.  Afterwards the register and the stack
pointer are what they were. -/
theorem reaches_bracket
    {middle : Core} (notPc : r ≠ pc) (aligned : a.toNat % 4 = 0)
    (code : HoldsWords core.memory a (bracket r word value))
    (apart : Apart a 24 (core.register sp - 4) 4)
    (performed : perform others (a + 8) word ((core.push r).set r value) = (middle, .behind))
    (stack : middle.register sp = core.register sp - 4)
    (memory : middle.memory = (core.push r).memory) :
    Reaches others ⟨core, a, false⟩
      ⟨(middle.set sp (core.register sp)).set r (core.register r), a + 24, false⟩ := by
  have push : wordAt core.memory a = _ := code.1
  have kept : HoldsWords (core.push r).memory a (bracket r word value) := by
    rw [Core.push_memory]
    exact code.storeBytes (by simp [bracket]) apart
  obtain ⟨-, load, body, pop, skip, literal, -⟩ := kept
  have eight : a + 4 + 4 = a + 8 := by bv_omega
  rw [eight] at body pop skip literal
  have pushes : perform others a ((0xE52D0004 : Word) ||| (r.setWidth 32 <<< 12)) core =
      (core.push r, .behind) := by
    rw [perform_always (decode_push r) (condition_always r).2.1, execute_push a core notPc]
  have loads : perform others (a + 4) ((0xE59F0008 : Word) ||| (r.setWidth 32 <<< 12))
      (core.push r) = ((core.push r).set r value, .behind) := by
    have address : offsetAddress true (a + 4 + 8) 8 = a + 8 + 4 + 4 + 4 := by
      change a + 4 + 8 + 8 = a + 8 + 4 + 4 + 4
      bv_omega
    rw [perform_always (decode_literalBehind r) (condition_always r).2.2.1, execute_ldr_pc,
      address, literal, Core.write_of_ne notPc]
  have pops : perform others (a + 8 + 4) ((0xE49D0004 : Word) ||| (r.setWidth 32 <<< 12))
      middle = (middle.pop r, .behind) := by
    rw [perform_always (decode_pop r) (condition_always r).2.2.2, execute_pop _ _ notPc]
  rw [← Core.pop_of_push stack memory]
  refine Reaches.arm push pushes (Reaches.arm load loads ?_)
  rw [Next.follow_behind, eight]
  refine Reaches.arm body performed (Reaches.arm (memory ▸ pop) pops ?_)
  have aligned16 : (a + 8 + 4 + 4).toNat % 4 = 0 := by bv_omega
  refine reaches_skip aligned16 (memory ▸ skip) ?_
  have behind : a + 8 + 4 + 4 + 8 = a + 24 := by bv_omega
  rw [behind]
  exact Reaches.refl _

end

end HookEngine
end UnityLocalization
