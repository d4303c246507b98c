import Mathlib.Data.BitVec
import Mathlib.Tactic.Ring
import Mathlib.Tactic.Positivity

/-!
# Signed fields at the end of a word

A shift to the left and an arithmetic shift back extend the sign of a field.  A
signed field holds a multiple of a power of two without its zero bits.
-/

namespace SignedField

variable {width low size : Nat}

/-- The two shifts sign-extend what the first one leaves of the word. -/
theorem sshiftRight_shiftLeft (low size : Nat) (word : BitVec (low + size)) :
    (word <<< low).sshiftRight low = (word.setWidth size).signExtend (low + size) := by
  ext index inside
  rw [BitVec.getElem_sshiftRight, BitVec.getElem_signExtend]
  by_cases inField : index < size
  · have shifted : low + index < low + size := by omega
    have behind : ¬low + index < low := by omega
    simp [inField, shifted, behind, BitVec.getLsbD_eq_getElem inside]
  · have outside : ¬low + index < low + size := by omega
    rw [dif_neg outside, dif_neg inField, BitVec.msb_eq_getLsbD_last,
      BitVec.msb_eq_getLsbD_last, BitVec.getLsbD_shiftLeft, BitVec.getLsbD_setWidth]
    rcases Nat.eq_zero_or_pos size with empty | positive
    · have noBit : ¬low + size - 1 < low + size ∨ low + size - 1 < low := by omega
      rcases noBit with noBit | noBit <;> simp [empty]
    · have top : low + size - 1 < low + size := by omega
      have behind : ¬low + size - 1 < low := by omega
      have last : size - 1 < size := by omega
      simp [top, behind, last, show low + size - 1 - low = size - 1 by omega]

/-- A number and its word differ by a multiple of the modulus. -/
theorem exists_toNat_eq (word : BitVec width) :
    ∃ carry : Int, (word.toNat : Int) = word.toInt + carry * 2 ^ width := by
  rw [BitVec.toInt_eq_toNat_cond]
  split
  · exact ⟨0, by simp⟩
  · exact ⟨1, by simp⟩

/-- The field above the low bits of a multiple holds the factor, if it has room for
it. -/
theorem toInt_extractLsb'_of_multiple
    {word : BitVec width} {factor : Int} (fits : low + size ≤ width)
    (multiple : word.toInt = factor * 2 ^ low)
    (lower : -(2 : Int) ^ size ≤ factor * 2) (upper : factor * 2 < (2 : Int) ^ size) :
    (word.extractLsb' low size).toInt = factor := by
  obtain ⟨carry, value⟩ := exists_toNat_eq word
  obtain ⟨more, rfl⟩ := Nat.exists_eq_add_of_le fits
  have quotient : ((word.toNat >>> low : Nat) : Int) =
      factor + carry * 2 ^ more * (2 ^ size : Nat) := by
    have product : factor * 2 ^ low + carry * 2 ^ (low + size + more) =
        (factor + carry * 2 ^ more * (2 ^ size : Nat)) * 2 ^ low := by
      push_cast
      ring
    rw [Nat.shiftRight_eq_div_pow, Int.natCast_ediv, value, multiple, product]
    push_cast
    exact Int.mul_ediv_cancel _ (by positivity)
  rw [BitVec.toInt_extractLsb', quotient, Int.add_mul_bmod_self_right]
  apply Int.bmod_eq_of_le_mul_two
  · push_cast
    exact lower
  · push_cast
    exact upper

/-- The sign of a field is its last bit. -/
theorem shiftRight_ne_zero_iff (field : BitVec (size + 1)) (fits : size + 1 ≤ width) :
    field.setWidth width >>> size ≠ 0 ↔ field.msb = true := by
  have value : (field.setWidth width >>> size).toNat = field.toNat / 2 ^ size := by
    have below : field.toNat < 2 ^ width :=
      Nat.lt_of_lt_of_le field.isLt (Nat.pow_le_pow_right (by decide) fits)
    rw [BitVec.toNat_ushiftRight, BitVec.toNat_setWidth, Nat.mod_eq_of_lt below,
      Nat.shiftRight_eq_div_pow]
  rw [BitVec.msb_eq_decide, decide_eq_true_eq, ← not_lt, not_iff_not,
    ← BitVec.toNat_inj, value]
  simp [Nat.div_eq_zero_iff]

/-- A field with its sign set is extended by ones. -/
theorem signExtend_of_msb {field : BitVec size} (negative : field.msb = true) :
    field.signExtend width = field.setWidth width ||| BitVec.allOnes width <<< size := by
  ext index inside
  by_cases inField : index < size <;> simp [BitVec.getElem_signExtend, negative, inField]

/-- Filling the bits above a field with ones if its sign is set. -/
theorem fill_eq_signExtend
    {field : BitVec size} {negative : Prop} [Decidable negative]
    (sign : negative ↔ field.msb = true) :
    (if negative then field.setWidth width ||| BitVec.allOnes width <<< size
      else field.setWidth width) = field.signExtend width := by
  by_cases isNegative : negative
  · rw [if_pos isNegative, signExtend_of_msb (sign.mp isNegative)]
  · rw [if_neg isNegative, BitVec.signExtend_eq_setWidth_of_msb_false]
    exact Bool.eq_false_of_not_eq_true fun set => isNegative (sign.mpr set)

theorem extend_eq_signExtend (field : BitVec (size + 1)) (fits : size + 1 ≤ width) :
    (if field.setWidth width >>> size ≠ 0 then
        field.setWidth width ||| BitVec.allOnes width <<< (size + 1)
      else field.setWidth width) = field.signExtend width :=
  fill_eq_signExtend (shiftRight_ne_zero_iff field fits)

/-- The bit of the sign may be filled along with those above it. -/
theorem signExtend_of_msb_from {field : BitVec (size + 1)} (negative : field.msb = true) :
    field.signExtend width = field.setWidth width ||| BitVec.allOnes width <<< size := by
  ext index inside
  rw [signExtend_of_msb negative]
  by_cases inField : index < size
  · simp [inField, Nat.lt_succ_of_lt inField]
  · by_cases isSign : index = size
    · rw [BitVec.msb_eq_getLsbD_last, Nat.add_sub_cancel] at negative
      simp [isSign, negative]
    · simp [show ¬index < size + 1 by omega, inField]

theorem extendFrom_eq_signExtend (field : BitVec (size + 1)) (fits : size + 1 ≤ width) :
    (if field.setWidth width >>> size ≠ 0 then
        field.setWidth width ||| BitVec.allOnes width <<< size
      else field.setWidth width) = field.signExtend width := by
  rw [← extend_eq_signExtend field fits]
  refine ite_congr rfl (fun filled => ?_) fun _ => rfl
  have negative := (shiftRight_ne_zero_iff field fits).mp filled
  rw [← signExtend_of_msb_from negative, signExtend_of_msb negative]

end SignedField
