import UnityLocalization.Library.Unicode
import UnityLocalization.Tools.Utf8

/-!
# The converter on well-formed UTF-8

On the UTF-8 bytes of any text the decoder accepts every character and reads
its scalar value back.  The store keeps the low sixteen bits of it, so the
output is UTF-16LE exactly for texts of the basic multilingual plane.
-/

namespace UnityLocalization
namespace Tools

open CMemory Utf16 Unicode

/-! ## Joining the bit groups -/

/-- A bit group shifted to its place. -/
theorem ofNat_shiftLeft
    (group bits : Nat) (bound : bits < 32) :
    UInt32.ofNat group <<< UInt32.ofNat bits = UInt32.ofNat (group * 2 ^ bits) := by
  apply UInt32.toNat_inj.mp
  rw [UInt32.toNat_shiftLeft, UInt32.toNat_ofNat', UInt32.toNat_ofNat',
    UInt32.toNat_ofNat', Nat.mod_eq_of_lt (by omega : bits < 2 ^ 32),
    Nat.mod_eq_of_lt bound, Nat.shiftLeft_eq]
  exact Nat.mod_mul_mod group (2 ^ bits) (2 ^ 32)

/-- Disjoint bit groups are joined by addition. -/
theorem ofNat_or_ofNat
    {high low : Nat} (bits : Nat)
    (aligned : high % 2 ^ bits = 0)
    (below : low < 2 ^ bits) :
    UInt32.ofNat high ||| UInt32.ofNat low = UInt32.ofNat (high + low) := by
  obtain ⟨group, rfl⟩ := Nat.dvd_of_mod_eq_zero aligned
  rw [Nat.two_pow_add_eq_or_of_lt below]
  apply UInt32.toNat_inj.mp
  simp only [UInt32.toNat_or, UInt32.toNat_ofNat', Nat.or_mod_two_pow]

theorem twoByte_lead : ∀ group : Fin 32,
    (UInt8.ofNat (group.val + 0xC0) &&& 0x80 == 0) = false ∧
    (UInt8.ofNat (group.val + 0xC0) &&& 0xE0 == 0xC0) = true ∧
    (UInt8.ofNat (group.val + 0xC0)).toUInt32 &&& 0x1F = UInt32.ofNat group.val := by
  decide

theorem threeByte_lead : ∀ group : Fin 16,
    (UInt8.ofNat (group.val + 0xE0) &&& 0x80 == 0) = false ∧
    (UInt8.ofNat (group.val + 0xE0) &&& 0xE0 == 0xC0) = false ∧
    (UInt8.ofNat (group.val + 0xE0) &&& 0xF0 == 0xE0) = true ∧
    (UInt8.ofNat (group.val + 0xE0)).toUInt32 &&& 0x0F = UInt32.ofNat group.val := by
  decide

theorem fourByte_lead : ∀ group : Fin 8,
    (UInt8.ofNat (group.val + 0xF0) &&& 0x80 == 0) = false ∧
    (UInt8.ofNat (group.val + 0xF0) &&& 0xE0 == 0xC0) = false ∧
    (UInt8.ofNat (group.val + 0xF0) &&& 0xF0 == 0xE0) = false ∧
    (UInt8.ofNat (group.val + 0xF0) &&& 0xF0 == 0xF0) = true ∧
    (UInt8.ofNat (group.val + 0xF0)).toUInt32 &&& 0x07 = UInt32.ofNat group.val := by
  decide

theorem continuation_sextet : ∀ group : Fin 64,
    isContinuation (UInt8.ofNat (group.val + 0x80)) = true ∧
    (UInt8.ofNat (group.val + 0x80)).toUInt32 &&& 0x3F = UInt32.ofNat group.val := by
  decide

theorem single_byte : ∀ value : Fin 128,
    (UInt8.ofNat value.val &&& 0x80 == 0) = true ∧
    (UInt8.ofNat value.val).toUInt32 = UInt32.ofNat value.val := by
  decide

/-- Two groups joined as the converter joins them. -/
theorem joined_two (first : Nat) {second : Nat} (below : second < 64) :
    UInt32.ofNat first <<< 6 ||| UInt32.ofNat second =
      UInt32.ofNat (first * 64 + second) := by
  have shifted : UInt32.ofNat first <<< 6 = UInt32.ofNat (first * 64) :=
    ofNat_shiftLeft first 6 (by omega)
  rw [shifted, ofNat_or_ofNat 6 (by omega) (by omega)]

theorem joined_three
    (first : Nat) {second third : Nat}
    (secondBelow : second < 64) (thirdBelow : third < 64) :
    UInt32.ofNat first <<< 12 ||| UInt32.ofNat second <<< 6 ||| UInt32.ofNat third =
      UInt32.ofNat (first * 4096 + second * 64 + third) := by
  have shifted : UInt32.ofNat first <<< 12 = UInt32.ofNat (first * 4096) :=
    ofNat_shiftLeft first 12 (by omega)
  have next : UInt32.ofNat second <<< 6 = UInt32.ofNat (second * 64) :=
    ofNat_shiftLeft second 6 (by omega)
  rw [shifted, next, ofNat_or_ofNat 12 (by omega) (by omega),
    ofNat_or_ofNat 6 (by omega) (by omega)]

theorem joined_four
    (first : Nat) {second third fourth : Nat}
    (secondBelow : second < 64) (thirdBelow : third < 64) (fourthBelow : fourth < 64) :
    UInt32.ofNat first <<< 18 ||| UInt32.ofNat second <<< 12 |||
        UInt32.ofNat third <<< 6 ||| UInt32.ofNat fourth =
      UInt32.ofNat (first * 262144 + second * 4096 + third * 64 + fourth) := by
  have shifted : UInt32.ofNat first <<< 18 = UInt32.ofNat (first * 262144) :=
    ofNat_shiftLeft first 18 (by omega)
  have next : UInt32.ofNat second <<< 12 = UInt32.ofNat (second * 4096) :=
    ofNat_shiftLeft second 12 (by omega)
  have last : UInt32.ofNat third <<< 6 = UInt32.ofNat (third * 64) :=
    ofNat_shiftLeft third 6 (by omega)
  rw [shifted, next, last, ofNat_or_ofNat 18 (by omega) (by omega),
    ofNat_or_ofNat 12 (by omega) (by omega), ofNat_or_ofNat 6 (by omega) (by omega)]

/-! ## Decoding one character -/

/-- The decoder reads a character back from its UTF-8 bytes. -/
theorem sequenceAt_utf8EncodeChar (char : Char) (rest : Bytes) :
    sequenceAt (String.utf8EncodeChar char ++ rest) =
      some ((String.utf8EncodeChar char).length, char.val) := by
  have range : char.val.toNat < 0x110000 := by
    rcases char.valid with low | ⟨-, high⟩
    · omega
    · exact high
  have value : char.val = UInt32.ofNat char.val.toNat := (UInt32.ofNat_toNat).symm
  rw [value]
  simp only [String.utf8EncodeChar]
  generalize char.val.toNat = scalar at range
  split
  case isTrue one =>
    obtain ⟨single, same⟩ := single_byte ⟨scalar, by omega⟩
    simp only [sequenceAt, byteAt, List.cons_append, List.getD_cons_zero, single, same]
    rfl
  case isFalse notOne =>
    obtain ⟨last, lastBits⟩ := continuation_sextet ⟨scalar % 64, by omega⟩
    split
    case isTrue two =>
      obtain ⟨notSingle, double, leadBits⟩ := twoByte_lead ⟨scalar / 64 % 32, by omega⟩
      have joined := joined_two (scalar / 64 % 32)
        (by omega : scalar % 64 < 64)
      have total : scalar / 64 % 32 * 64 + scalar % 64 = scalar := by omega
      simp only [sequenceAt, byteAt, List.cons_append, List.getD_cons_zero,
        List.getD_cons_succ, notSingle, double, last, twoByteCode, leadBits,
        lastBits, joined, total]
      rfl
    case isFalse notTwo =>
      obtain ⟨middle, middleBits⟩ := continuation_sextet ⟨scalar / 64 % 64, by omega⟩
      split
      case isTrue three =>
        obtain ⟨notSingle, notDouble, triple, leadBits⟩ :=
          threeByte_lead ⟨scalar / 4096 % 16, by omega⟩
        have joined := joined_three (scalar / 4096 % 16)
          (by omega : scalar / 64 % 64 < 64) (by omega : scalar % 64 < 64)
        have total : scalar / 4096 % 16 * 4096 + scalar / 64 % 64 * 64 + scalar % 64 =
            scalar := by
          omega
        simp only [sequenceAt, byteAt, List.cons_append, List.getD_cons_zero,
          List.getD_cons_succ, notSingle, notDouble, triple, middle, last,
          threeByteCode, leadBits, middleBits, lastBits, joined, total]
        rfl
      case isFalse notThree =>
        obtain ⟨second, secondBits⟩ :=
          continuation_sextet ⟨scalar / 4096 % 64, by omega⟩
        obtain ⟨notSingle, notDouble, notTriple, quadruple, leadBits⟩ :=
          fourByte_lead ⟨scalar / 262144 % 8, by omega⟩
        have joined := joined_four (scalar / 262144 % 8)
          (by omega : scalar / 4096 % 64 < 64) (by omega : scalar / 64 % 64 < 64)
          (by omega : scalar % 64 < 64)
        have total : scalar / 262144 % 8 * 262144 + scalar / 4096 % 64 * 4096 +
            scalar / 64 % 64 * 64 + scalar % 64 = scalar := by
          omega
        simp only [sequenceAt, byteAt, List.cons_append, List.getD_cons_zero,
          List.getD_cons_succ, notSingle, notDouble, notTriple, quadruple, second,
          middle, last, fourByteCode, leadBits, secondBits, middleBits, lastBits,
          joined, total]
        rfl

/-- The units stored for a text are its scalar values cut to sixteen bits. -/
theorem codeUnits_utf8 (text : List Char) :
    codeUnits (utf8 text) = text.map truncated := by
  induction text with
  | nil => exact codeUnits_nil
  | cons char text inductionHypothesis =>
      have nonempty : utf8 (char :: text) ≠ [] := by
        simp [String.utf8EncodeChar_ne_nil]
      have accepted := sequenceAt_utf8EncodeChar char (utf8 text)
      rw [codeUnits_of_accepted nonempty accepted, utf8_cons, List.drop_left,
        inductionHypothesis, List.map_cons]
      have unit : char.val.toUInt16 = truncated char := by
        apply UInt16.toNat_inj.mp
        simp [truncated]
      rw [unit]

/-! ## The output -/

/-- Exact output: UTF-16LE with its length, if and only if no character lies
outside the basic multilingual plane. -/
theorem utf8ToUnicode_encodes_iff
    (text : List Char)
    (rest dst : Bytes)
    (nonzero : ∀ char ∈ text, char.toNat ≠ 0)
    (fits : (encode (utf16 text)).length < dst.length) :
    utf8ToUnicode dst (utf8 text ++ 0 :: rest) =
        .ok (encode (utf16 text) ++ 0 :: dst.drop ((encode (utf16 text)).length + 1),
          (encode (utf16 text)).length) ↔
      ∀ char ∈ text, ¬Supplementary char := by
  have units := codeUnits_utf8 text
  have longer := length_le_utf16 text
  have terminated := zero_not_mem_utf8 nonzero
  rw [length_encode] at fits
  have converted := utf8ToUnicode_terminated dst (utf8 text) rest terminated
    (by rw [units, List.length_map]; omega)
  rw [units, List.length_map] at converted
  rw [converted, length_encode]
  constructor
  · intro equal
    have returned : 2 * text.length = 2 * (utf16 text).length :=
      congrArg Prod.snd (Except.ok.inj equal)
    exact (length_utf16_eq_iff text).mp (by omega)
  · intro basic
    rw [utf16_of_basic basic, List.length_map]

theorem utf8ToUnicode_encodes_word :
    utf8ToUnicode (List.replicate 8 0xFF) (utf8 ['A', 'é', '本'] ++ 0 :: []) =
        .ok (encode (utf16 ['A', 'é', '本']) ++ 0 ::
          (List.replicate 8 0xFF).drop ((encode (utf16 ['A', 'é', '本'])).length + 1),
          (encode (utf16 ['A', 'é', '本'])).length) :=
  (utf8ToUnicode_encodes_iff ['A', 'é', '本'] [] (List.replicate 8 0xFF)
    (by simp) (by decide)).mpr (by simp [Supplementary])

/-- A character of a supplementary plane is stored as one unit. -/
theorem utf8ToUnicode_supplementary :
    utf8ToUnicode (List.replicate 8 0) (utf8 ['😀'] ++ 0 :: []) =
        .ok ([0x00, 0xF6, 0, 0, 0, 0, 0, 0], 2) ∧
      utf8ToUnicode (List.replicate 8 0) (utf8 ['😀'] ++ 0 :: []) ≠
        .ok (encode (utf16 ['😀']) ++
            0 :: (List.replicate 8 0).drop ((encode (utf16 ['😀'])).length + 1),
          (encode (utf16 ['😀'])).length) := by
  have units := codeUnits_utf8 ['😀']
  have converted := utf8ToUnicode_terminated (List.replicate 8 0) (utf8 ['😀']) []
    (by decide) (by rw [units]; decide)
  rw [units] at converted
  rw [converted]
  exact ⟨by decide, by decide⟩

end Tools
end UnityLocalization
