import UnityLocalization.HookEngine.ThumbWords

/-!
# Reading the halfwords of a program

What the Thumb instructions are that `getTypeInThumb16` and `getTypeInThumb32` tell apart,
and what is left of a halfword when it is moved.
-/

namespace UnityLocalization
namespace HookEngine

open WordMemory Arm

/-! ## Instructions of one halfword -/

/-- The bits that are known of a halfword when `getTypeInThumb16` has named its family. -/
theorem getTypeInThumb16_matches (instruction : Half) :
    match getTypeInThumb16 instruction with
    | .b1Thumb16 => Matches 0xF000 0xD000 instruction
    | .b2Thumb16 => Matches 0xF800 0xE000 instruction
    | .bxThumb16 => Matches 0xFFF8 0x4778 instruction
    | .addThumb16 => Matches 0xFF78 0x4478 instruction
    | .movThumb16 => Matches 0xFF78 0x4678 instruction
    | .adrThumb16 => Matches 0xF800 0xA000 instruction
    | .ldrThumb16 => Matches 0xF800 0x4800 instruction
    | .cbThumb16 => Matches 0xF500 0xB100 instruction
    | .undefine => True
    | _ => False := by
  rw [getTypeInThumb16]
  split_ifs with b1 b2 bx add mov adr ldr cb
  · exact b1
  · exact b2
  · exact bx
  · exact add
  · exact mov
  · exact adr
  · exact ldr
  · exact cb
  · trivial

section

variable {half : Half}

/-- An instruction of 32 bits begins with three ones. -/
theorem matches_of_isWide (wide : Thumb.IsWide half) : Matches 0xE000 0xE000 half := by
  have five : ∀ field : BitVec 5, 0x1D ≤ field.toNat -> field.extractLsb' 2 3 = 7 := by decide
  have value : (half >>> 11).toNat = (half.extractLsb' 11 5).toNat := by
    rw [BitVec.toNat_ushiftRight, BitVec.extractLsb'_toNat, Nat.mod_eq_of_lt]
    rw [Nat.shiftRight_eq_div_pow]
    omega
  have top : half.extractLsb' 13 3 = 7 := by
    have field := five (half.extractLsb' 11 5) (value ▸ wide)
    rwa [extractLsb'_extractLsb' half (by decide)] at field
  have masked : half &&& (0xE000 : Half) = (half.extractLsb' 13 3).setWidth 16 <<< 13 := by
    have field := @masked_field 16 half 13 0 3 (by decide)
    rwa [BitVec.ushiftRight_zero] at field
  rw [Matches, masked, top]
  rfl

/-- A halfword with a zero among its first three bits is an instruction of its own. -/
theorem not_isWide
    {mask value : Half} (known : Matches mask value half)
    (conflict : value &&& 0xE000 ≠ 0xE000 &&& mask) : ¬Thumb.IsWide half :=
  fun wide => known.excludes conflict (matches_of_isWide wide)

/-- A branch with a condition.  The last two conditions stand for other instructions, which
`getTypeInThumb16` does not tell apart. -/
theorem decode_condition
    (known : Matches 0xF000 0xD000 half) (real : ¬Matches 0x0E00 0x0E00 half) :
    Thumb.decode half =
      some (.bCondition (half.extractLsb' 8 4) (half.extractLsb' 0 8)) := by
  rw [Thumb.decode, if_pos known, if_neg real]

/-- Without its offset, a branch with a condition leads behind the next halfword. -/
theorem decode_condition_cleared
    (known : Matches 0xF000 0xD000 half) (real : ¬Matches 0x0E00 0x0E00 half) :
    Thumb.decode (half &&& 0xFF00) = some (.bCondition (half.extractLsb' 8 4) 0) := by
  rw [decode_condition ((matches_masked_iff (by decide)).mpr known)
    fun still => real ((matches_masked_iff (by decide)).mp still),
    field_kept half (by decide), field_cleared half (by decide)]

theorem decode_near (known : Matches 0xF800 0xE000 half) :
    Thumb.decode half = some (.b (half.extractLsb' 0 11)) := by
  rw [Thumb.decode, if_neg (known.excludes (by decide)), if_pos known]

/-- An addition of any two registers.  The top bit of the first one stands apart. -/
theorem decode_thumbAdd (known : Matches 0xFF00 0x4400 half) :
    Thumb.decode half =
      some (.add (half.extractLsb' 7 1 ++ half.extractLsb' 0 3) (half.extractLsb' 3 4)) := by
  rw [Thumb.decode, if_neg (known.excludes (by decide)), if_neg (known.excludes (by decide)),
    if_neg (known.excludes (by decide)), if_pos known]

theorem decode_thumbMov (known : Matches 0xFF00 0x4600 half) :
    Thumb.decode half =
      some (.mov (half.extractLsb' 7 1 ++ half.extractLsb' 0 3) (half.extractLsb' 3 4)) := by
  rw [Thumb.decode, if_neg (known.excludes (by decide)), if_neg (known.excludes (by decide)),
    if_neg (known.excludes (by decide)), if_neg (known.excludes (by decide)), if_pos known]

/-- An address behind the instruction, counted in words. -/
theorem decode_thumbAdr (known : Matches 0xF800 0xA000 half) :
    Thumb.decode half =
      some (.adr (Thumb.lowRegister (half.extractLsb' 8 3)) (half.extractLsb' 0 8)) := by
  rw [Thumb.decode, if_neg (known.excludes (by decide)), if_neg (known.excludes (by decide)),
    if_neg (known.excludes (by decide)), if_neg (known.excludes (by decide)),
    if_neg (known.excludes (by decide)), if_pos known]

/-- A load of a word behind the instruction. -/
theorem decode_thumbLdr (known : Matches 0xF800 0x4800 half) :
    Thumb.decode half =
      some (.ldrLiteral (Thumb.lowRegister (half.extractLsb' 8 3)) (half.extractLsb' 0 8)) := by
  rw [Thumb.decode, if_neg (known.excludes (by decide)), if_neg (known.excludes (by decide)),
    if_neg (known.excludes (by decide)), if_neg (known.excludes (by decide)),
    if_neg (known.excludes (by decide)), if_neg (known.excludes (by decide)), if_pos known]

/-- `CBZ` and `CBNZ` only go forwards, so their offset has no sign. -/
theorem decode_zero (known : Matches 0xF500 0xB100 half) :
    Thumb.decode half =
      some (.cb (half.getLsbD 11) (Thumb.lowRegister (half.extractLsb' 0 3))
        (half.extractLsb' 9 1 ++ half.extractLsb' 3 5)) := by
  rw [Thumb.decode, if_neg (known.excludes (by decide)), if_neg (known.excludes (by decide)),
    if_neg (known.excludes (by decide)), if_neg (known.excludes (by decide)),
    if_neg (known.excludes (by decide)), if_neg (known.excludes (by decide)),
    if_neg (known.excludes (by decide)), if_pos known]

/-- Without its offset, a comparison with zero leads behind the next halfword. -/
theorem decode_zero_cleared (known : Matches 0xF500 0xB100 half) :
    Thumb.decode (half &&& 0xFD07) =
      some (.cb (half.getLsbD 11) (Thumb.lowRegister (half.extractLsb' 0 3)) 0) := by
  have bit : (half &&& 0xFD07).getLsbD 11 = half.getLsbD 11 := by
    rw [BitVec.getLsbD_and, show (0xFD07 : Half).getLsbD 11 = true by decide, Bool.and_true]
  rw [decode_zero ((matches_masked_iff (by decide)).mpr known), bit,
    field_kept half (by decide), field_cleared half (by decide), field_cleared half (by decide)]
  rfl

/-- The halfword of an addition with another register as its second operand. -/
def thumbRenamed (half : Half) (r : BitVec 3) : Half :=
  (half &&& (0xFF87 : Half)) ||| (r.setWidth 16 <<< 3)

/-- The halfword is still an addition. -/
theorem matches_thumbRenamed (r : BitVec 3) (known : Matches 0xFF00 0x4400 half) :
    Matches 0xFF00 0x4400 (thumbRenamed half r) := by
  have outside : ∀ r : BitVec 3, (r.setWidth 16 <<< 3 : Half) &&& 0xFF00 = 0 := by decide
  have masked : Matches 0xFF00 0x4400 (half &&& 0xFF87) :=
    (matches_masked_iff (by decide)).mpr known
  rw [Matches] at masked ⊢
  rw [thumbRenamed, BitVec.and_comm, BitVec.and_or_distrib_left, BitVec.and_comm, masked,
    BitVec.and_comm, outside]
  rfl

/-- The addition reads the other register in the place of its second operand. -/
theorem decode_thumbRenamed (r : BitVec 3) (known : Matches 0xFF00 0x4400 half) :
    Thumb.decode (thumbRenamed half r) =
      some (.add (half.extractLsb' 7 1 ++ half.extractLsb' 0 3) (Thumb.lowRegister r)) := by
  have apart : ∀ r : BitVec 3,
      (r.setWidth 16 <<< 3 : Half).extractLsb' 7 1 = 0 ∧
      (r.setWidth 16 <<< 3 : Half).extractLsb' 0 3 = 0 ∧
      (r.setWidth 16 <<< 3 : Half).extractLsb' 3 4 = Thumb.lowRegister r := by
    decide
  obtain ⟨top, low, field⟩ := apart r
  rw [decode_thumbAdd (matches_thumbRenamed r known), thumbRenamed]
  simp only [BitVec.extractLsb'_or, top, low, field]
  rw [field_kept half (by decide), field_kept half (by decide), field_cleared half (by decide)]
  congr 2
  · exact congrArg₂ _ BitVec.or_zero BitVec.or_zero
  · exact BitVec.zero_or

/-- Register 15 as the second operand. -/
theorem operand_thumbPc
    {mask value : Half} (known : Matches mask value half) (asked : mask &&& 0x78 = 0x78)
    (given : value &&& 0x78 = 0x78) : half.extractLsb' 3 4 = pc := by
  have all : ∀ field : BitVec 4, (field.setWidth 16 <<< 3 : Half) = 0x78 -> field = pc := by
    decide
  have masked : half &&& (0x78 : Half) = (half.extractLsb' 3 4).setWidth 16 <<< 3 := by
    have field := @masked_field 16 half 3 0 4 (by decide)
    rwa [BitVec.ushiftRight_zero] at field
  have weak := known.weaken asked
  rw [given, Matches, masked] at weak
  exact all _ weak

end

/-! ## Instructions of two halfwords -/

/-- The bits that are known of a word when `getTypeInThumb32` has named its family. -/
theorem getTypeInThumb32_matches (instruction : Word) :
    match getTypeInThumb32 instruction with
    | .blxThumb32 => Matches 0xF800D000 0xF000C000 instruction
    | .blThumb32 => Matches 0xF800D000 0xF000D000 instruction
    | .b1Thumb32 => Matches 0xF800D000 0xF0008000 instruction
    | .b2Thumb32 => Matches 0xF800D000 0xF0009000 instruction
    | .adr1Thumb32 => Matches 0xFBFF8000 0xF2AF0000 instruction
    | .adr2Thumb32 => Matches 0xFBFF8000 0xF20F0000 instruction
    | .ldrThumb32 => Matches 0xFF7F0000 0xF85F0000 instruction
    | .tbbThumb32 | .tbhThumb32 | .undefine => True
    | _ => False := by
  rw [getTypeInThumb32]
  split_ifs with special blx bl b1 b2 adr1 adr2 ldr tbb tbh
  · trivial
  · exact blx
  · exact bl
  · exact b1
  · exact b2
  · exact adr1
  · exact adr2
  · exact ldr
  · trivial
  · trivial
  · trivial

section

variable {word : Word}

theorem decodeWide_bl (known : Matches 0xF800D000 0xF000D000 word) :
    Thumb.decodeWide word =
      some (.bl (Thumb.branchTop word ++ word.extractLsb' 16 10 ++ word.extractLsb' 0 11)) := by
  rw [Thumb.decodeWide, if_pos known]

/-- `BLX`, which asks for one zero more than the source looks at. -/
theorem decodeWide_blx (known : Matches 0xF800D001 0xF000C000 word) :
    Thumb.decodeWide word =
      some (.blx (Thumb.branchTop word ++ word.extractLsb' 16 10 ++ word.extractLsb' 1 10)) := by
  rw [Thumb.decodeWide, if_neg (known.excludes (by decide)), if_pos known]

theorem decodeWide_b (known : Matches 0xF800D000 0xF0009000 word) :
    Thumb.decodeWide word =
      some (.b (Thumb.branchTop word ++ word.extractLsb' 16 10 ++ word.extractLsb' 0 11)) := by
  rw [Thumb.decodeWide, if_neg (known.excludes (by decide)), if_neg (known.excludes (by decide)),
    if_pos known]

/-- A long branch with a condition.  Its offset has no combined bits. -/
theorem decodeWide_condition
    (known : Matches 0xF800D000 0xF0008000 word)
    (real : ¬Matches 0x03800000 0x03800000 word) :
    Thumb.decodeWide word =
      some (.bCondition (word.extractLsb' 22 4)
        (word.extractLsb' 26 1 ++ word.extractLsb' 11 1 ++ word.extractLsb' 13 1 ++
          word.extractLsb' 16 6 ++ word.extractLsb' 0 11)) := by
  rw [Thumb.decodeWide, if_neg (known.excludes (by decide)), if_neg (known.excludes (by decide)),
    if_neg (known.excludes (by decide)), if_pos known, if_neg real]

/-- An address behind the instruction.  Its offset stands in three pieces. -/
theorem decodeWide_adr2 (known : Matches 0xFBFF8000 0xF20F0000 word) :
    Thumb.decodeWide word =
      some (.adr true (word.extractLsb' 8 4)
        (word.extractLsb' 26 1 ++ word.extractLsb' 12 3 ++ word.extractLsb' 0 8)) := by
  rw [Thumb.decodeWide, if_neg (known.excludes (by decide)), if_neg (known.excludes (by decide)),
    if_neg (known.excludes (by decide)), if_neg (known.excludes (by decide)), if_pos known]

/-- An address before the instruction. -/
theorem decodeWide_adr1 (known : Matches 0xFBFF8000 0xF2AF0000 word) :
    Thumb.decodeWide word =
      some (.adr false (word.extractLsb' 8 4)
        (word.extractLsb' 26 1 ++ word.extractLsb' 12 3 ++ word.extractLsb' 0 8)) := by
  rw [Thumb.decodeWide, if_neg (known.excludes (by decide)), if_neg (known.excludes (by decide)),
    if_neg (known.excludes (by decide)), if_neg (known.excludes (by decide)),
    if_neg (known.excludes (by decide)), if_pos known]

/-- A load relative to the place, with the direction in bit 23. -/
theorem decodeWide_ldr (known : Matches 0xFF7F0000 0xF85F0000 word) :
    Thumb.decodeWide word =
      some (.ldrLiteral (word.getLsbD 23) (word.extractLsb' 12 4) (word.extractLsb' 0 12)) := by
  rw [Thumb.decodeWide, if_neg (known.excludes (by decide)), if_neg (known.excludes (by decide)),
    if_neg (known.excludes (by decide)), if_neg (known.excludes (by decide)),
    if_neg (known.excludes (by decide)), if_neg (known.excludes (by decide)), if_pos known]

/-! ## Long branches as the source reads them -/

section

variable (high low : Half)

/-- The sign of a long branch. -/
theorem field_s :
    (high.setWidth 32 &&& (0x400 : Word)) >>> 10 = (high.extractLsb' 10 1).setWidth 32 :=
  @half_field high 10 1 (by decide)

/-- The first of the two bits that are combined with the sign. -/
theorem field_j1 :
    (low.setWidth 32 &&& (0x2000 : Word)) >>> 13 = (low.extractLsb' 13 1).setWidth 32 :=
  @half_field low 13 1 (by decide)

/-- The second of the two bits that are combined with the sign. -/
theorem field_j2 :
    (low.setWidth 32 &&& (0x800 : Word)) >>> 11 = (low.extractLsb' 11 1).setWidth 32 :=
  @half_field low 11 1 (by decide)

theorem field_imm10 :
    high.setWidth 32 &&& (0x3FF : Word) = (high.extractLsb' 0 10).setWidth 32 :=
  half_mask high 10

theorem field_imm6 :
    high.setWidth 32 &&& (0x3F : Word) = (high.extractLsb' 0 6).setWidth 32 :=
  half_mask high 6

theorem field_imm11 :
    low.setWidth 32 &&& (0x7FF : Word) = (low.extractLsb' 0 11).setWidth 32 :=
  half_mask low 11

/-- The lower part of the offset of `BLX`, which counts words. -/
theorem field_imm10L :
    (low.setWidth 32 &&& (0x7FE : Word)) <<< 1 = (low.extractLsb' 1 10).setWidth 32 <<< 2 := by
  have masked := @masked_field 32 (low.setWidth 32) 1 0 10 (by decide)
  rw [BitVec.ushiftRight_zero, extractLsb'_setWidth low _ _ (by decide)] at masked
  change low.setWidth 32 &&& (0x7FE : Word) = _ at masked
  rw [masked, ← BitVec.shiftLeft_add]

/-- The top bits of the offset of a long branch, from its two halfwords. -/
def topBits : BitVec 3 :=
  high.extractLsb' 10 1 ++ ~~~(low.extractLsb' 13 1 ^^^ high.extractLsb' 10 1) ++
    ~~~(low.extractLsb' 11 1 ^^^ high.extractLsb' 10 1)

/-- The top bits of the word are those of its halfwords. -/
theorem branchTop_append : Thumb.branchTop (high ++ low) = topBits high low := by
  simp only [Thumb.branchTop, topBits, high_field high low 10 1,
    @low_field high low 13 1 (by decide), @low_field high low 11 1 (by decide)]

/-- The constant of BL and of B without a condition. -/
def longImmediate : BitVec 24 :=
  topBits high low ++ high.extractLsb' 0 10 ++ low.extractLsb' 0 11

/-- The constant of BLX. -/
def exchangeImmediate : BitVec 23 :=
  topBits high low ++ high.extractLsb' 0 10 ++ low.extractLsb' 1 10

/-- The constant of a long branch with a condition. -/
def conditionImmediate : BitVec 20 :=
  high.extractLsb' 10 1 ++ low.extractLsb' 11 1 ++ low.extractLsb' 13 1 ++
    high.extractLsb' 0 6 ++ low.extractLsb' 0 11

variable {high low}

/-- A long call, by the halfwords that the source reads. -/
theorem decode_longCall (known : Matches 0xF800D000 0xF000D000 (high ++ low : Word)) :
    Thumb.decodeWide (high ++ low) = some (.bl (longImmediate high low)) := by
  rw [decodeWide_bl known, branchTop_append, longImmediate, high_field high low 0 10,
    @low_field high low 0 11 (by decide)]

theorem decode_longExchange (known : Matches 0xF800D001 0xF000C000 (high ++ low : Word)) :
    Thumb.decodeWide (high ++ low) = some (.blx (exchangeImmediate high low)) := by
  rw [decodeWide_blx known, branchTop_append, exchangeImmediate, high_field high low 0 10,
    @low_field high low 1 10 (by decide)]

theorem decode_longBranch (known : Matches 0xF800D000 0xF0009000 (high ++ low : Word)) :
    Thumb.decodeWide (high ++ low) = some (.b (longImmediate high low)) := by
  rw [decodeWide_b known, branchTop_append, longImmediate, high_field high low 0 10,
    @low_field high low 0 11 (by decide)]

/-- A long branch with a condition, by the halfwords that the source reads. -/
theorem decode_longCondition
    (known : Matches 0xF800D000 0xF0008000 (high ++ low : Word))
    (real : ¬Matches 0x03800000 0x03800000 (high ++ low : Word)) :
    Thumb.decodeWide (high ++ low) =
      some (.bCondition ((high ++ low).extractLsb' 22 4) (conditionImmediate high low)) := by
  rw [decodeWide_condition known real, conditionImmediate, high_field high low 10 1,
    high_field high low 0 6, @low_field high low 0 11 (by decide),
    @low_field high low 11 1 (by decide), @low_field high low 13 1 (by decide)]

end

/-- The short branch that stands for a long one with a condition. -/
theorem decode_shortened
    (high low : Half) (real : ¬Matches 0x03800000 0x03800000 (high ++ low)) :
    Thumb.decode ((0xD000 : Half) ||| ((high &&& 0x3C0) <<< 2)) =
        some (.bCondition ((high ++ low).extractLsb' 22 4) 0) ∧
      ¬Thumb.IsWide ((0xD000 : Half) ||| ((high &&& 0x3C0) <<< 2)) := by
  have short : ∀ condition : BitVec 4, condition.extractLsb' 1 3 ≠ 7 ->
      Thumb.decode ((0xD000 : Half) ||| (condition.setWidth 16 <<< 8)) =
          some (.bCondition condition 0) ∧
        ¬Thumb.IsWide ((0xD000 : Half) ||| (condition.setWidth 16 <<< 8)) := by
    decide
  have field : (high &&& 0x3C0) <<< 2 = ((high ++ low).extractLsb' 22 4).setWidth 16 <<< 8 := by
    have masked := @masked_field 16 high 6 0 4 (by decide)
    rw [BitVec.ushiftRight_zero, high_field high low] at masked
    change high &&& 0x3C0 = _ at masked
    rw [masked, ← BitVec.shiftLeft_add]
  have top : (high ++ low).extractLsb' 23 3 ≠ 7 := by
    intro all
    apply real
    have masked := @masked_field 32 (high ++ low) 23 0 3 (by decide)
    rw [BitVec.ushiftRight_zero] at masked
    change (high ++ low : Word) &&& (0x03800000 : Word) =
      ((high ++ low).extractLsb' 23 3).setWidth 32 <<< 23 at masked
    rw [Matches, masked, all]
    rfl
  rw [field]
  apply short
  rwa [extractLsb'_extractLsb' _ (by decide)]

end

end HookEngine
end UnityLocalization
