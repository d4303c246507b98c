import UnityLocalization.HookEngine.ThumbRelocation
import UnityLocalization.HookEngine.ArmWords

/-!
# The halfwords of a Thumb trampoline

What a run of the halfwords does that `relocateInstructionInThumb` and `doInlineHook`
write.
-/

namespace UnityLocalization
namespace HookEngine

open WordMemory Arm

/-! ## Reading the halfwords -/

theorem decodeWide_longJump :
    Thumb.decodeWide ((0xF8DF : Half) ++ (0xF000 : Half)) = some (.ldrLiteral true pc 0) := by
  decide

theorem decodeWide_literal : ∀ r : Register,
    Thumb.decodeWide ((0xF8DF : Half) ++ ((r.setWidth 16 <<< 12) ||| (4 : Half))) =
      some (.ldrLiteral true r 4) := by
  decide

theorem decodeWide_linkNext :
    Thumb.decodeWide ((0xF20F : Half) ++ (0x0E09 : Half)) = some (.adr true lr 9) := by
  decide

theorem decode_over6 : Thumb.decode 0xE003 = some (.b 3) := by decide
theorem decode_over4 : Thumb.decode 0xE002 = some (.b 2) := by decide
theorem decode_over2 : Thumb.decode 0xE001 = some (.b 1) := by decide

theorem decode_thumbLiteral : ∀ r : BitVec 3,
    Thumb.decode ((0x4800 : Half) ||| (r.setWidth 16 <<< 8)) =
      some (.ldrLiteral (Thumb.lowRegister r) 0) := by
  decide

theorem decode_thumbPush : ∀ r : BitVec 3,
    Thumb.decode ((0xB400 : Half) ||| ((1 : Half) <<< (r.setWidth 16 : Half))) =
      some (.push (Thumb.lowRegister r)) := by
  decide

theorem decode_thumbLiteralBehind : ∀ r : BitVec 3,
    Thumb.decode ((0x4802 : Half) ||| (r.setWidth 16 <<< 8)) =
      some (.ldrLiteral (Thumb.lowRegister r) 2) := by
  decide

theorem decode_thumbPop : ∀ r : BitVec 3,
    Thumb.decode ((0xBC00 : Half) ||| ((1 : Half) <<< (r.setWidth 16 : Half))) =
      some (.pop (Thumb.lowRegister r)) := by
  decide

theorem narrow_thumbWords : ∀ r : BitVec 3,
    ¬Thumb.IsWide ((0x4800 : Half) ||| (r.setWidth 16 <<< 8)) ∧
      ¬Thumb.IsWide ((0xB400 : Half) ||| ((1 : Half) <<< (r.setWidth 16 : Half))) ∧
      ¬Thumb.IsWide ((0x4802 : Half) ||| (r.setWidth 16 <<< 8)) ∧
      ¬Thumb.IsWide ((0xBC00 : Half) ||| ((1 : Half) <<< (r.setWidth 16 : Half))) := by
  decide

theorem lowRegister_plain : ∀ r : BitVec 3,
    Thumb.lowRegister r ≠ sp ∧ Thumb.lowRegister r ≠ pc := by
  decide

theorem append_halves (value : Word) :
    (value >>> 16).setWidth 16 ++ value.setWidth 16 = value := by
  have low : value.setWidth 16 = value.extractLsb' 0 16 :=
    BitVec.setWidth_eq_extractLsb' (by decide)
  have high : (value >>> 16).setWidth 16 = value.extractLsb' 16 16 := by
    ext index inside
    simp
  rw [low, high, BitVec.extractLsb'_append_extractLsb'_eq_extractLsb' (by decide)]
  exact BitVec.extractLsb'_eq_self

/-- A word whose halfwords stand in the code. -/
theorem wordAt_of_halves
    {memory : Memory} {a value : Word} (code : HoldsHalves memory a (halves value)) :
    wordAt memory a = value := by
  obtain ⟨low, high, -⟩ := code
  rw [wordAt_eq_halves, low, high]
  exact append_halves value

/-! ## Running the halfwords -/

section

variable {others : Others} {core : Core} {a value : Word} {final : Machine}

/-- `LDR.W PC, [PC]` goes where the next word says. -/
theorem reaches_longJump
    (aligned : a.toNat % 4 = 0) (code : HoldsHalves core.memory a (longJump value)) :
    Reaches others ⟨core, a, true⟩ ((exchange value).follow a 8 true core) := by
  obtain ⟨high, low, word⟩ := code
  have next : a + 2 + 2 = a + 4 := by bv_omega
  rw [next] at word
  have aligned4 : (a + 4).toNat % 4 = 0 := by bv_omega
  have address : offsetAddress true (Thumb.align (a + 4)) 0 = a + 4 := by
    rw [align_of_aligned aligned4]
    exact BitVec.add_zero _
  have loaded : Thumb.performWide others a ((0xF8DF : Half) ++ (0xF000 : Half)) core =
      (core, exchange value) := by
    rw [thumbPerformWide_of_decode decodeWide_longJump]
    change core.write pc (wordAt core.memory (offsetAddress true (Thumb.align (a + 4)) 0)) = _
    rw [address, wordAt_of_halves word, Core.write_pc]
  refine Reaches.thumbWide high (by decide) low loaded ?_
  rw [follow_exchange value a 4 a 8 true true core]
  exact Reaches.refl _

/-- `NOP` -/
theorem reaches_nop
    (code : halfAt core.memory a = 0xBF00)
    (later : Reaches others ⟨core, a + 2, true⟩ final) :
    Reaches others ⟨core, a, true⟩ final :=
  Reaches.thumb code (by decide) (thumbPerform_of_decode (show Thumb.decode 0xBF00 = some .nop by
    decide)) later

/-- A branch to a place behind it. -/
theorem reaches_over
    {half : Half} {imm11 : BitVec 11} {target : Word}
    (code : halfAt core.memory a = half) (decoded : Thumb.decode half = some (.b imm11))
    (narrow : ¬Thumb.IsWide half) (past : a + 4 + Thumb.halfOffset imm11 = target)
    (later : Reaches others ⟨core, target, true⟩ final) :
    Reaches others ⟨core, a, true⟩ final := by
  refine Reaches.thumb code narrow (thumbPerform_of_decode decoded) ?_
  simp only [Thumb.Instruction.execute, Next.follow_branch, past]
  exact later

/-- A branch that leads to a long jump if it is taken and past it otherwise. -/
theorem reaches_choice
    {half : Half} {taken : Bool} (aligned : a.toNat % 4 = 0)
    (code : HoldsHalves core.memory a (half :: 0xE003 :: longJump value))
    (narrow : ¬Thumb.IsWide half)
    (performed : Thumb.perform others a half core =
      (core, if taken then .branch (a + 4) true else .behind)) :
    Reaches others ⟨core, a, true⟩
      (if taken then (exchange value).follow a 12 true core else ⟨core, a + 12, true⟩) := by
  obtain ⟨branch, past, jump⟩ := code
  refine Reaches.thumb branch narrow performed ?_
  cases taken with
  | true =>
      have next : a + 2 + 2 = a + 4 := by bv_omega
      have aligned4 : (a + 4).toNat % 4 = 0 := by bv_omega
      have jumped := @reaches_longJump others core (a + 4) value aligned4 (next ▸ jump)
      rwa [follow_exchange value (a + 4) 8 a 12 true true core] at jumped
  | false =>
      have target : a + 2 + 4 + Thumb.halfOffset (3 : BitVec 11) = a + 12 := by
        change a + 2 + 4 + 6 = a + 12
        bv_omega
      exact reaches_over past decode_over6 (by decide) target (Reaches.refl _)

/-- `ADD.W LR, PC, #9` before the jump notes the place behind its word. -/
theorem reaches_thumbCall
    (aligned : a.toNat % 4 = 0)
    (code : HoldsHalves core.memory a (0xF20F :: 0x0E09 :: longJump value)) :
    Reaches others ⟨core, a, true⟩
      ((exchange value).follow a 12 true (core.set lr ((a + 12) ||| 1))) := by
  obtain ⟨high, low, jump⟩ := code
  have aligned4 : (a + 4).toNat % 4 = 0 := by bv_omega
  have even : (a + 12).toNat % 2 = 0 := by bv_omega
  have address : offsetAddress true (Thumb.align (a + 4)) 9 = (a + 12) ||| 1 := by
    rw [align_of_aligned aligned4, ← add_one_of_even even]
    change a + 4 + 9 = a + 12 + 1
    bv_omega
  have linked : Thumb.performWide others a ((0xF20F : Half) ++ (0x0E09 : Half)) core =
      (core.set lr ((a + 12) ||| 1), .behind) := by
    rw [thumbPerformWide_of_decode decodeWide_linkNext]
    simp only [Thumb.WideInstruction.execute, address]
  refine Reaches.thumbWide high (by decide) low linked ?_
  have next : a + 2 + 2 = a + 4 := by bv_omega
  have jumped := @reaches_longJump others (core.set lr ((a + 12) ||| 1)) (a + 4) value aligned4
    (next ▸ jump)
  rwa [follow_exchange value (a + 4) 8 a 12 true true] at jumped

/-- Loading a register with a word that stands in the code. -/
theorem reaches_thumbLiteral
    {r : BitVec 3} (aligned : a.toNat % 4 = 0)
    (code : HoldsHalves core.memory a
      (((0x4800 : Half) ||| (r.setWidth 16 <<< 8)) :: 0xE001 :: halves value)) :
    Reaches others ⟨core, a, true⟩
      ⟨core.set (Thumb.lowRegister r) value, a + 8, true⟩ := by
  obtain ⟨load, past, word⟩ := code
  have next : a + 2 + 2 = a + 4 := by bv_omega
  rw [next] at word
  have aligned4 : (a + 4).toNat % 4 = 0 := by bv_omega
  have address : Thumb.align (a + 4) + ((0 : BitVec 8) ++ 0#2).setWidth 32 = a + 4 := by
    rw [align_of_aligned aligned4]
    exact BitVec.add_zero _
  have loaded : Thumb.perform others a ((0x4800 : Half) ||| (r.setWidth 16 <<< 8)) core =
      (core.set (Thumb.lowRegister r) value, .behind) := by
    rw [thumbPerform_of_decode (decode_thumbLiteral r)]
    simp only [Thumb.Instruction.execute, address, wordAt_of_halves word]
  refine Reaches.thumb load (narrow_thumbWords r).1 loaded ?_
  have target : a + 2 + 4 + Thumb.halfOffset (1 : BitVec 11) = a + 8 := by
    change a + 2 + 4 + 2 = a + 8
    bv_omega
  exact reaches_over past decode_over2 (by decide) target (Reaches.refl _)

theorem reaches_wideLiteral
    {r : Register} (aligned : a.toNat % 4 = 0)
    (code : HoldsHalves core.memory a
      (0xF8DF :: ((r.setWidth 16 <<< 12) ||| (4 : Half)) :: 0xBF00 :: 0xE001 :: halves value)) :
    Reaches others ⟨core, a, true⟩
      ((core.write r value).2.follow a 12 true (core.write r value).1) := by
  obtain ⟨high, low, nop, past, word⟩ := code
  have next : a + 2 + 2 = a + 4 := by bv_omega
  have last : a + 4 + 2 + 2 = a + 8 := by bv_omega
  rw [next] at nop past word
  rw [last] at word
  have aligned4 : (a + 4).toNat % 4 = 0 := by bv_omega
  have address : offsetAddress true (Thumb.align (a + 4)) 4 = a + 8 := by
    rw [align_of_aligned aligned4]
    change a + 4 + 4 = a + 8
    bv_omega
  have loaded : Thumb.performWide others a
      ((0xF8DF : Half) ++ ((r.setWidth 16 <<< 12) ||| (4 : Half))) core = core.write r value := by
    rw [thumbPerformWide_of_decode (decodeWide_literal r)]
    simp only [Thumb.WideInstruction.execute, address, wordAt_of_halves word]
  refine Reaches.thumbWide high (by decide) low loaded ?_
  by_cases isPc : r = pc
  · rw [isPc, Core.write_pc, follow_exchange value a 4 a 12 true true core]
    exact Reaches.refl _
  · rw [Core.write_of_ne isPc]
    have target : a + 4 + 2 + 4 + Thumb.halfOffset (1 : BitVec 11) = a + 12 := by
      change a + 4 + 2 + 4 + 2 = a + 12
      bv_omega
    refine @reaches_nop others (core.set r value) (a + 4) _ nop ?_
    exact reaches_over past decode_over2 (by decide) target (Reaches.refl _)

/-- A halfword between saving a register, loading it with the last word and taking it
back. -/
def thumbBracket (r : BitVec 3) (half : Half) (value : Word) : List Half :=
  [(0xB400 : Half) ||| ((1 : Half) <<< (r.setWidth 16 : Half)),
    (0x4802 : Half) ||| (r.setWidth 16 <<< 8), half,
    (0xBC00 : Half) ||| ((1 : Half) <<< (r.setWidth 16 : Half)), 0xE002, 0xBF00] ++ halves value

theorem reaches_thumbBracket
    {r : BitVec 3} {half : Half} {middle : Core} (aligned : a.toNat % 4 = 0)
    (code : HoldsHalves core.memory a (thumbBracket r half value))
    (apart : Apart a 16 (core.register sp - 4) 4) (narrow : ¬Thumb.IsWide half)
    (performed : Thumb.perform others (a + 4) half
      ((core.push (Thumb.lowRegister r)).set (Thumb.lowRegister r) value) = (middle, .behind))
    (stack : middle.register sp = core.register sp - 4)
    (memory : middle.memory = (core.push (Thumb.lowRegister r)).memory) :
    Reaches others ⟨core, a, true⟩
      ⟨(middle.set sp (core.register sp)).set (Thumb.lowRegister r)
        (core.register (Thumb.lowRegister r)), a + 16, true⟩ := by
  have push : halfAt core.memory a = _ := code.1
  have kept : HoldsHalves (core.push (Thumb.lowRegister r)).memory a
      (thumbBracket r half value) := by
    rw [Core.push_memory]
    exact HoldsHalves.storeBytes code (by simp [thumbBracket, halves]) apart
  obtain ⟨-, load, body, pop, past, -, literal⟩ := kept
  have four : a + 2 + 2 = a + 4 := by bv_omega
  rw [four] at body pop past literal
  obtain ⟨notSp, notPc⟩ := lowRegister_plain r
  obtain ⟨-, narrowPush, narrowLoad, narrowPop⟩ := narrow_thumbWords r
  have pushes : Thumb.perform others a _ core = (core.push (Thumb.lowRegister r), .behind) :=
    thumbPerform_of_decode (decode_thumbPush r)
  have loads : Thumb.perform others (a + 2) ((0x4802 : Half) ||| (r.setWidth 16 <<< 8))
      (core.push (Thumb.lowRegister r)) =
        ((core.push (Thumb.lowRegister r)).set (Thumb.lowRegister r) value, .behind) := by
    have address : Thumb.align (a + 2 + 4) + ((2 : BitVec 8) ++ 0#2).setWidth 32 =
        a + 4 + 2 + 2 + 2 + 2 := by
      have aligned4 : (a + 4).toNat % 4 = 0 := by bv_omega
      have half : a + 2 + 4 = a + 4 + 2 := by bv_omega
      rw [half, align_add_two aligned4]
      change a + 4 + 8 = a + 4 + 2 + 2 + 2 + 2
      bv_omega
    rw [thumbPerform_of_decode (decode_thumbLiteralBehind r)]
    simp only [Thumb.Instruction.execute, address, wordAt_of_halves literal]
  have pops : Thumb.perform others (a + 4 + 2) _ middle =
      (middle.pop (Thumb.lowRegister r), .behind) :=
    thumbPerform_of_decode (decode_thumbPop r)
  rw [← Core.pop_of_push stack memory]
  refine Reaches.thumb push narrowPush pushes (Reaches.thumb load narrowLoad loads ?_)
  rw [Next.follow_behind, four]
  refine Reaches.thumb body narrow performed (Reaches.thumb (memory ▸ pop) narrowPop pops ?_)
  have target : a + 4 + 2 + 2 + 4 + Thumb.halfOffset (2 : BitVec 11) = a + 16 := by
    change a + 4 + 2 + 2 + 4 + 4 = a + 16
    bv_omega
  exact reaches_over (memory ▸ past) decode_over4 (by decide) target (Reaches.refl _)

end

/-! ## Fields as the source takes them out -/

theorem half_mask (half : Half) (size : Nat) :
    half.setWidth 32 &&& (BitVec.allOnes size).setWidth 32 =
      (half.extractLsb' 0 size).setWidth 32 := by
  rw [and_mask, extractLsb'_setWidth half 0 size (by decide)]

theorem half_field (half : Half) {low size : Nat} (fits : low + size ≤ 32) :
    (half.setWidth 32 &&& (BitVec.allOnes size).setWidth 32 <<< low) >>> low =
      (half.extractLsb' low size).setWidth 32 := by
  rw [lowered_field _ fits, extractLsb'_setWidth half low size (by decide)]

theorem extendFrom_eq {size : Nat} (field : BitVec (size + 1)) (fits : size + 1 ≤ 32) :
    extendFrom size (field.setWidth 32) = field.signExtend 32 :=
  SignedField.extendFrom_eq_signExtend field fits

theorem condition_offset (half : Half) :
    extendFrom 8 ((half.setWidth 32 &&& 0xFF) <<< 1) =
      Thumb.halfOffset (half.extractLsb' 0 8) := by
  have masked : half.setWidth 32 &&& (0xFF : Word) = (half.extractLsb' 0 8).setWidth 32 :=
    half_mask half 8
  rw [masked, shiftLeft_field]
  exact extendFrom_eq _ (by decide)

theorem near_offset (half : Half) :
    extendFrom 11 ((half.setWidth 32 &&& 0x7FF) <<< 1) =
      Thumb.halfOffset (half.extractLsb' 0 11) := by
  have masked : half.setWidth 32 &&& (0x7FF : Word) = (half.extractLsb' 0 11).setWidth 32 :=
    half_mask half 11
  rw [masked, shiftLeft_field]
  exact extendFrom_eq _ (by decide)

theorem literal_offset (half : Half) :
    (half.setWidth 32 &&& (0xFF : Word)) <<< 2 = (half.extractLsb' 0 8 ++ 0#2).setWidth 32 := by
  have masked : half.setWidth 32 &&& (0xFF : Word) = (half.extractLsb' 0 8).setWidth 32 :=
    half_mask half 8
  rw [masked, shiftLeft_field]

/-- The offset of CBZ and CBNZ stands in two places. -/
theorem zero_offset (half : Half) :
    ((half.setWidth 32 &&& (0x200 : Word)) >>> 3) ||| ((half.setWidth 32 &&& (0xF8 : Word)) >>> 2) =
      (half.extractLsb' 9 1 ++ half.extractLsb' 3 5 ++ 0#1).setWidth 32 := by
  have top : (half.setWidth 32 &&& (0x200 : Word)) >>> 3 =
      ((half.setWidth 32).extractLsb' 9 1).setWidth 32 <<< 6 :=
    @masked_field 32 (half.setWidth 32) 6 3 1 (by decide)
  have low : (half.setWidth 32 &&& (0xF8 : Word)) >>> 2 =
      ((half.setWidth 32).extractLsb' 3 5).setWidth 32 <<< 1 :=
    @masked_field 32 (half.setWidth 32) 1 2 5 (by decide)
  rw [top, low, extractLsb'_setWidth half 9 1 (by decide),
    extractLsb'_setWidth half 3 5 (by decide),
    BitVec.setWidth_append_append_eq_shiftLeft_setWidth_or, BitVec.setWidth_zero]
  exact BitVec.or_zero.symm

theorem high_field (high low : Half) (start size : Nat) :
    high.extractLsb' start size = (high ++ low).extractLsb' (16 + start) size := by
  rw [BitVec.extractLsb'_append_eq_of_le (by omega), Nat.add_sub_cancel_left]

theorem low_field (high low : Half) {start size : Nat} (fits : start + size ≤ 16) :
    low.extractLsb' start size = (high ++ low).extractLsb' start size :=
  (BitVec.extractLsb'_append_eq_of_add_le fits).symm

theorem append_eq_shift_or (high low : Half) :
    ((high.setWidth 32 : Word) <<< 16) ||| low.setWidth 32 = high ++ low := by
  rw [← BitVec.setWidth_append_eq_shiftLeft_setWidth_or]
  exact BitVec.setWidth_eq _

/-- Filling the bits above a field if its first bit is set. -/
theorem extendSigned_eq
    {size : Nat} {s : BitVec 1} {field : BitVec size} (sign : field.msb = true ↔ s = 1) :
    extendSigned (s.setWidth 32) size (field.setWidth 32) = field.signExtend 32 := by
  have isSet : ∀ s : BitVec 1, s.setWidth 32 ≠ (0 : Word) ↔ s = 1 := by decide
  exact SignedField.fill_eq_signExtend ((isSet s).trans sign.symm)

/-- The bit that is kept combined with the sign. -/
theorem combined_bit : ∀ s j : BitVec 1,
    (if j.setWidth 32 ^^^ s.setWidth 32 = (0 : Word) then (1 : Word) else 0) =
      (~~~(j ^^^ s)).setWidth 32 := by
  decide

/-- An offset that is put together from five fields and signed by the first one. -/
theorem offset_of_fields
    {second third fourth fifth : Nat} (s : BitVec 1) (a : BitVec second) (b : BitVec third)
    (c : BitVec fourth) (d : BitVec fifth) (zeros : Nat) :
    extendSigned (s.setWidth 32) (1 + second + third + fourth + fifth + zeros)
      ((s.setWidth 32 <<< (second + third + fourth + fifth + zeros)) |||
        (a.setWidth 32 <<< (third + fourth + fifth + zeros)) |||
        (b.setWidth 32 <<< (fourth + fifth + zeros)) ||| (c.setWidth 32 <<< (fifth + zeros)) |||
        (d.setWidth 32 <<< zeros)) =
      (s ++ a ++ b ++ c ++ d ++ BitVec.ofNat zeros 0).signExtend 32 := by
  have joined : (s.setWidth 32 <<< (second + third + fourth + fifth + zeros)) |||
        (a.setWidth 32 <<< (third + fourth + fifth + zeros)) |||
        (b.setWidth 32 <<< (fourth + fifth + zeros)) ||| (c.setWidth 32 <<< (fifth + zeros)) |||
        (d.setWidth 32 <<< zeros) =
      (s ++ a ++ b ++ c ++ d ++ BitVec.ofNat zeros 0).setWidth 32 := by
    simp only [BitVec.setWidth_append_eq_shiftLeft_setWidth_or, BitVec.shiftLeft_or_distrib,
      ← BitVec.shiftLeft_add, BitVec.setWidth_zero, BitVec.or_zero]
  have sign : (s ++ a ++ b ++ c ++ d ++ BitVec.ofNat zeros 0).msb = s.msb := by
    simp [BitVec.msb_append]
  have single : ∀ s : BitVec 1, s.msb = true ↔ s = 1 := by decide
  rw [joined, extendSigned_eq]
  rw [sign]
  exact single s

/-- The offset of a long branch as the source puts it together. -/
theorem long_offset (s i1 i2 : BitVec 1) (imm10 : BitVec 10) (imm11 : BitVec 11) :
    extendSigned (s.setWidth 32) 25
      ((s.setWidth 32 <<< 24) ||| (i1.setWidth 32 <<< 23) ||| (i2.setWidth 32 <<< 22) |||
        (imm10.setWidth 32 <<< 12) ||| (imm11.setWidth 32 <<< 1)) =
      Thumb.halfOffset (s ++ i1 ++ i2 ++ imm10 ++ imm11) :=
  offset_of_fields s i1 i2 imm10 imm11 1

/-- The offset of BLX counts words. -/
theorem exchange_long_offset (s i1 i2 : BitVec 1) (imm10H imm10L : BitVec 10) :
    extendSigned (s.setWidth 32) 25
      ((s.setWidth 32 <<< 24) ||| (i1.setWidth 32 <<< 23) ||| (i2.setWidth 32 <<< 22) |||
        (imm10H.setWidth 32 <<< 12) ||| (imm10L.setWidth 32 <<< 2)) =
      (s ++ i1 ++ i2 ++ imm10H ++ imm10L ++ 0#2).signExtend 32 :=
  offset_of_fields s i1 i2 imm10H imm10L 2

/-- The offset of a long branch with a condition. -/
theorem condition_long_offset (s j1 j2 : BitVec 1) (imm6 : BitVec 6) (imm11 : BitVec 11) :
    extendSigned (s.setWidth 32) 21
      ((s.setWidth 32 <<< 20) ||| (j2.setWidth 32 <<< 19) ||| (j1.setWidth 32 <<< 18) |||
        (imm6.setWidth 32 <<< 12) ||| (imm11.setWidth 32 <<< 1)) =
      Thumb.halfOffset (s ++ j2 ++ j1 ++ imm6 ++ imm11) :=
  offset_of_fields s j2 j1 imm6 imm11 1

end HookEngine
end UnityLocalization
