import UnityLocalization.Library.PrefixCode
import UnityLocalization.Library.Utf16

/-!
# Unicode texts

A text is a list of scalar values.  `utf8` is its byte encoding and `utf16` its
sequence of code units, with a surrogate pair for each character outside the
basic multilingual plane.
-/

namespace Unicode

open PrefixCode

/-- The character lies outside the basic multilingual plane. -/
def Supplementary (char : Char) : Prop := 0x10000 ≤ char.toNat

instance (char : Char) : Decidable (Supplementary char) :=
  inferInstanceAs (Decidable (_ ≤ _))

/-- The UTF-8 bytes of a text. -/
def utf8 (text : List Char) : List UInt8 := text.flatMap String.utf8EncodeChar

/-- The code units of one character. -/
def utf16Units (char : Char) : List UInt16 :=
  if Supplementary char then
    [UInt16.ofNat (0xD800 + (char.toNat - 0x10000) / 0x400),
      UInt16.ofNat (0xDC00 + (char.toNat - 0x10000) % 0x400)]
  else [UInt16.ofNat char.toNat]

/-- The code units of a text. -/
def utf16 (text : List Char) : List UInt16 := text.flatMap utf16Units

/-- The scalar value cut down to sixteen bits. -/
def truncated (char : Char) : UInt16 := UInt16.ofNat char.toNat

@[simp] theorem utf8_cons (char : Char) (text : List Char) :
    utf8 (char :: text) = String.utf8EncodeChar char ++ utf8 text := rfl

@[simp] theorem utf16_cons (char : Char) (text : List Char) :
    utf16 (char :: text) = utf16Units char ++ utf16 text := rfl

theorem utf16Units_of_supplementary
    {char : Char} (supplementary : Supplementary char) :
    (utf16Units char).length = 2 := by
  rw [utf16Units, if_pos supplementary]
  rfl

theorem utf16Units_of_basic
    {char : Char} (basic : ¬Supplementary char) :
    utf16Units char = [truncated char] := by
  rw [utf16Units, if_neg basic]
  rfl

/-- Every character has at least one code unit. -/
theorem length_le_utf16 (text : List Char) : text.length ≤ (utf16 text).length := by
  induction text with
  | nil => exact Nat.le_refl 0
  | cons char text inductionHypothesis =>
      have units : 1 ≤ (utf16Units char).length := by
        by_cases supplementary : Supplementary char
        · rw [utf16Units_of_supplementary supplementary]
          omega
        · rw [utf16Units_of_basic supplementary]
          exact Nat.le_refl 1
      simp only [utf16_cons, List.length_cons, List.length_append]
      omega

/-- One unit a character is enough exactly for texts of the basic plane. -/
theorem length_utf16_eq_iff (text : List Char) :
    (utf16 text).length = text.length ↔ ∀ char ∈ text, ¬Supplementary char := by
  induction text with
  | nil => simp [utf16]
  | cons char text inductionHypothesis =>
      have longer := length_le_utf16 text
      simp only [utf16_cons, List.length_append, List.length_cons,
        List.forall_mem_cons]
      rw [← inductionHypothesis]
      by_cases supplementary : Supplementary char
      · rw [utf16Units_of_supplementary supplementary]
        constructor
        · intro equal
          omega
        · intro both
          exact absurd supplementary both.1
      · rw [utf16Units_of_basic supplementary]
        simp only [supplementary, not_false_eq_true, true_and, List.length_singleton]
        omega

/-- On the basic plane the code units are the scalar values. -/
theorem utf16_of_basic
    {text : List Char} (basic : ∀ char ∈ text, ¬Supplementary char) :
    utf16 text = text.map truncated := by
  induction text with
  | nil => rfl
  | cons char text inductionHypothesis =>
      rw [List.forall_mem_cons] at basic
      rw [utf16_cons, utf16Units_of_basic basic.1, inductionHypothesis basic.2]
      rfl

/-- Only the null character is spelled with a zero byte. -/
theorem zero_not_mem_utf8EncodeChar
    {char : Char} (nonzero : char.toNat ≠ 0) :
    0 ∉ String.utf8EncodeChar char := by
  have value : char.val.toNat ≠ 0 := nonzero
  intro present
  have spelled : (0 : UInt8).toNat ∈ (String.utf8EncodeChar char).map UInt8.toNat :=
    List.mem_map_of_mem present
  simp only [String.utf8EncodeChar] at spelled
  generalize char.val.toNat = scalar at value spelled
  split at spelled
  · simp at spelled
    omega
  · split at spelled
    · simp at spelled
      omega
    · split at spelled
      · simp at spelled
        omega
      · simp at spelled
        omega

theorem zero_not_mem_utf8
    {text : List Char} (nonzero : ∀ char ∈ text, char.toNat ≠ 0) :
    0 ∉ utf8 text := by
  intro present
  obtain ⟨char, member, spelled⟩ := List.mem_flatMap.mp present
  exact zero_not_mem_utf8EncodeChar (nonzero char member) spelled

/-! ## The byte patterns of an encoded character -/

/-- A tail byte `10xxxxxx`. -/
def Tail (byte : UInt8) : Prop := 0x80 ≤ byte ∧ byte < 0xC0

/-- The lead and tail patterns of UTF-8, without the restrictions on the value
they spell: overlong forms, surrogates and values up to `1FFFFF` fit as well. -/
inductive BitPattern : List UInt8 -> Prop
  | one {lead : UInt8} (below : lead < 0x80) : BitPattern [lead]
  | two {lead second : UInt8}
      (above : 0xC0 ≤ lead) (below : lead < 0xE0)
      (secondTail : Tail second) : BitPattern [lead, second]
  | three {lead second third : UInt8}
      (above : 0xE0 ≤ lead) (below : lead < 0xF0)
      (secondTail : Tail second) (thirdTail : Tail third) :
      BitPattern [lead, second, third]
  | four {lead second third fourth : UInt8}
      (above : 0xF0 ≤ lead) (below : lead < 0xF8)
      (secondTail : Tail second) (thirdTail : Tail third) (fourthTail : Tail fourth) :
      BitPattern [lead, second, third, fourth]

/-- The number of bytes a lead byte announces. -/
def announcedLength (lead : UInt8) : Nat :=
  if lead < 0x80 then 1
  else if lead < 0xE0 then 2
  else if lead < 0xF0 then 3
  else 4

theorem BitPattern.length_eq
    {bytes : List UInt8} (pattern : BitPattern bytes) :
    ∃ lead rest, bytes = lead :: rest ∧ bytes.length = announcedLength lead := by
  have above {lead : UInt8} (small large : UInt8) (order : small ≤ large)
      (atLeast : large ≤ lead) : ¬lead < small := by
    rw [UInt8.not_lt]
    exact UInt8.le_trans order atLeast
  cases pattern with
  | @one lead below =>
      exact ⟨lead, [], rfl, (if_pos below).symm⟩
  | @two lead second atLeast below =>
      refine ⟨lead, [second], rfl, ?_⟩
      rw [announcedLength, if_neg (above 0x80 0xC0 (by decide) atLeast), if_pos below]
      rfl
  | @three lead second third atLeast below =>
      refine ⟨lead, [second, third], rfl, ?_⟩
      rw [announcedLength, if_neg (above 0x80 0xE0 (by decide) atLeast),
        if_neg (above 0xE0 0xE0 (by decide) atLeast), if_pos below]
      rfl
  | @four lead second third fourth atLeast below =>
      refine ⟨lead, [second, third, fourth], rfl, ?_⟩
      rw [announcedLength, if_neg (above 0x80 0xF0 (by decide) atLeast),
        if_neg (above 0xE0 0xF0 (by decide) atLeast),
        if_neg (above 0xF0 0xF0 (by decide) atLeast)]
      rfl

/-- The lead byte tells where a sequence ends. -/
theorem BitPattern.prefixFree : PrefixFree BitPattern where
  nonempty := by
    intro bytes pattern
    obtain ⟨lead, rest, rfl, -⟩ := pattern.length_eq
    exact List.cons_ne_nil lead rest
  eq_of_isPrefix := by
    intro first second firstPattern secondPattern starts
    obtain ⟨lead, rest, rfl, firstLength⟩ := firstPattern.length_eq
    obtain ⟨other, more, rfl, secondLength⟩ := secondPattern.length_eq
    obtain ⟨rfl, -⟩ := List.cons_prefix_cons.mp starts
    exact starts.eq_of_length (firstLength.trans secondLength.symm)

/-- The encoding of a scalar value. -/
def ScalarBytes (bytes : List UInt8) : Prop := ∃ char, String.utf8EncodeChar char = bytes

/-- Numbers below 256 are ordered as their bytes. -/
theorem ofNat_lt_ofNat
    (small large : Nat) (less : small < large) (bound : large < 256) :
    UInt8.ofNat small < UInt8.ofNat large := by
  rw [UInt8.lt_iff_toNat_lt, UInt8.toNat_ofNat_of_lt' (less.trans bound),
    UInt8.toNat_ofNat_of_lt' bound]
  exact less

theorem ofNat_le_ofNat
    (small large : Nat) (atMost : small ≤ large) (bound : large < 256) :
    UInt8.ofNat small ≤ UInt8.ofNat large := by
  rw [UInt8.le_iff_toNat_le, UInt8.toNat_ofNat_of_lt' (atMost.trans_lt bound),
    UInt8.toNat_ofNat_of_lt' bound]
  exact atMost

theorem tail_ofNat {group : Nat} (bound : group < 64) :
    Tail (UInt8.ofNat (group + 0x80)) :=
  ⟨ofNat_le_ofNat 0x80 (group + 0x80) (by omega) (by omega),
    ofNat_lt_ofNat (group + 0x80) 0xC0 (by omega) (by omega)⟩

/-- Every encoded scalar value has one of the patterns. -/
theorem BitPattern.of_scalarBytes
    {bytes : List UInt8} (scalar : ScalarBytes bytes) : BitPattern bytes := by
  obtain ⟨char, rfl⟩ := scalar
  have range : char.val.toNat < 0x110000 := by
    rcases char.valid with low | ⟨-, high⟩
    · omega
    · exact high
  simp only [String.utf8EncodeChar]
  generalize char.val.toNat = value at range
  have last := tail_ofNat (Nat.mod_lt value (by omega : 0 < 64))
  have middle := tail_ofNat (Nat.mod_lt (value / 64) (by omega : 0 < 64))
  have second := tail_ofNat (Nat.mod_lt (value / 4096) (by omega : 0 < 64))
  split
  case isTrue one =>
    exact .one (ofNat_lt_ofNat value 0x80 (by omega) (by omega))
  case isFalse notOne =>
    split
    case isTrue two =>
      have group : value / 64 % 32 < 32 := Nat.mod_lt _ (by omega)
      exact .two (ofNat_le_ofNat 0xC0 (value / 64 % 32 + 0xC0) (by omega) (by omega))
        (ofNat_lt_ofNat (value / 64 % 32 + 0xC0) 0xE0 (by omega) (by omega)) last
    case isFalse notTwo =>
      split
      case isTrue three =>
        have group : value / 4096 % 16 < 16 := Nat.mod_lt _ (by omega)
        exact .three (ofNat_le_ofNat 0xE0 (value / 4096 % 16 + 0xE0) (by omega) (by omega))
          (ofNat_lt_ofNat (value / 4096 % 16 + 0xE0) 0xF0 (by omega) (by omega))
          middle last
      case isFalse notThree =>
        have group : value / 262144 % 8 < 8 := Nat.mod_lt _ (by omega)
        exact .four (ofNat_le_ofNat 0xF0 (value / 262144 % 8 + 0xF0) (by omega) (by omega))
          (ofNat_lt_ofNat (value / 262144 % 8 + 0xF0) 0xF8 (by omega) (by omega))
          second middle last

end Unicode
