import UnityLocalization.Library.CString
import Mathlib.Tactic.Ring

/-!
# Numbers in strings

`strtolHex` is `strtol` with base 16 and a 32-bit `long`.  It passes white
space, a sign and a prefix `0x`, reads digits up to the first other byte and
clamps their value.  No byte behind that one is read.  `strtoul` is the function
of that name with base 0, which takes the base from the prefix.
-/

namespace CMemory

def isSpace (byte : UInt8) : Bool :=
  byte == 0x20 || (decide (0x09 ≤ byte) && decide (byte ≤ 0x0D))

/-- The value of a hexadecimal digit. -/
def hexDigit (byte : UInt8) : Option Nat :=
  if 0x30 ≤ byte ∧ byte ≤ 0x39 then some (byte.toNat - 0x30)
  else if 0x41 ≤ byte ∧ byte ≤ 0x46 then some (byte.toNat - 0x41 + 10)
  else if 0x61 ≤ byte ∧ byte ≤ 0x66 then some (byte.toNat - 0x61 + 10)
  else none

def skipSpaces : Bytes -> Checked Bytes
  | [] => .error .outOfBounds
  | byte :: rest => if isSpace byte then skipSpaces rest else .ok (byte :: rest)

/-- Whether the number is negative, and the string behind its sign. -/
def readSign : Bytes -> Checked (Bool × Bytes)
  | [] => .error .outOfBounds
  | byte :: rest =>
      if byte = 0x2D then .ok (true, rest)
      else if byte = 0x2B then .ok (false, rest)
      else .ok (false, byte :: rest)

/-- The string behind the prefix `0x`, which counts only before a digit. -/
def skipHexPrefix (string : Bytes) : Checked Bytes := do
  let zero ← load (regionOf string) 0
  if zero ≠ 0x30 then return string
  let mark ← load (regionOf string) 1
  if mark ≠ 0x78 ∧ mark ≠ 0x58 then return string
  let digit ← load (regionOf string) 2
  if (hexDigit digit).isSome then return string.drop 2 else return string

/-- The value of the digits behind those already read. -/
def readHexDigits (value : Nat) : Bytes -> Checked Nat
  | [] => .error .outOfBounds
  | byte :: rest =>
      match hexDigit byte with
      | some digit => readHexDigits (16 * value + digit) rest
      | none => .ok value

/-- The nearest value of a 32-bit `long`. -/
def clampInt32 (value : Int) : Int := max (-2147483648) (min value 2147483647)

/-- `strtol(string, NULL, 16)` -/
def strtolHex (string : Bytes) : Checked Int := do
  let string ← skipSpaces string
  let (negative, string) ← readSign string
  let string ← skipHexPrefix string
  let magnitude ← readHexDigits 0 string
  return clampInt32 (if negative then -magnitude else magnitude)

/-- The value of the digits of a base behind those already read. -/
def readDigits (base value : Nat) : Bytes -> Checked Nat
  | [] => .error .outOfBounds
  | byte :: rest =>
      match (hexDigit byte).filter fun digit => digit < base with
      | some digit => readDigits base (base * value + digit) rest
      | none => .ok value

/-- `strtoul(string, NULL, 0)` with a 32-bit `unsigned long` -/
def strtoul (string : Bytes) : Checked UInt32 := do
  let string ← skipSpaces string
  let (negative, string) ← readSign string
  let digits ← skipHexPrefix string
  let first ← load (regionOf string) 0
  let base := if digits.length < string.length then 16 else if first = 0x30 then 8 else 10
  let magnitude ← readDigits base 0 digits
  if 4294967295 < magnitude then return 4294967295
  else if negative then return -UInt32.ofNat magnitude
  else return UInt32.ofNat magnitude

/-! ## Terminated strings -/

theorem skipSpaces_terminated {text : Bytes} (terminated : 0 ∉ text) :
    ∃ number, 0 ∉ number ∧
      ∀ rest, skipSpaces (text ++ 0 :: rest) = .ok (number ++ 0 :: rest) := by
  induction text with
  | nil => exact ⟨[], terminated, fun rest => rfl⟩
  | cons byte text inductionHypothesis =>
      simp only [List.mem_cons, not_or] at terminated
      by_cases space : isSpace byte
      · obtain ⟨number, clean, skipped⟩ := inductionHypothesis terminated.2
        refine ⟨number, clean, fun rest => ?_⟩
        rw [List.cons_append, skipSpaces, if_pos space, skipped]
      · refine ⟨byte :: text, by simp [terminated], fun rest => ?_⟩
        rw [List.cons_append, skipSpaces, if_neg space]

theorem readSign_terminated {text : Bytes} (terminated : 0 ∉ text) :
    ∃ negative number, 0 ∉ number ∧
      ∀ rest, readSign (text ++ 0 :: rest) = .ok (negative, number ++ 0 :: rest) := by
  cases text with
  | nil => exact ⟨false, [], terminated, fun rest => rfl⟩
  | cons byte text =>
      have clean : 0 ∉ text := fun present => terminated (List.mem_cons_of_mem _ present)
      by_cases minus : byte = 0x2D
      · exact ⟨true, text, clean, fun rest => if_pos minus⟩
      · by_cases plus : byte = 0x2B
        · refine ⟨false, text, clean, fun rest => ?_⟩
          rw [List.cons_append, readSign, if_neg minus, if_pos plus]
        · refine ⟨false, byte :: text, terminated, fun rest => ?_⟩
          rw [List.cons_append, readSign, if_neg minus, if_neg plus]

/-- The byte behind a nonzero byte of a terminated text is readable. -/
theorem lt_length_of_byteAt_ne_zero
    {text : Bytes} {index : Nat} (nonzero : byteAt text index ≠ 0) :
    index < text.length := by
  by_contra behind
  exact nonzero (byteAt_of_le (Nat.le_of_not_lt behind))

theorem skipHexPrefix_terminated {text : Bytes} (terminated : 0 ∉ text) :
    ∃ number, 0 ∉ number ∧
      ∀ rest, skipHexPrefix (text ++ 0 :: rest) = .ok (number ++ 0 :: rest) := by
  have first (rest : Bytes) := load_terminated text rest (Nat.zero_le _)
  by_cases zero : byteAt text 0 ≠ 0x30
  · refine ⟨text, terminated, fun rest => ?_⟩
    rw [skipHexPrefix, first, ok_bind, if_pos zero]
    rfl
  have one : 0 < text.length := lt_length_of_byteAt_ne_zero (by
    rw [not_not.mp zero]
    decide)
  have second (rest : Bytes) := load_terminated text rest one
  by_cases mark : byteAt text 1 ≠ 0x78 ∧ byteAt text 1 ≠ 0x58
  · refine ⟨text, terminated, fun rest => ?_⟩
    rw [skipHexPrefix, first, ok_bind, if_neg zero, second, ok_bind, if_pos mark]
    rfl
  have two : 1 < text.length := lt_length_of_byteAt_ne_zero (by
    intro absent
    apply mark
    rw [absent]
    decide)
  have third (rest : Bytes) := load_terminated text rest two
  by_cases digit : (hexDigit (byteAt text 2)).isSome
  · refine ⟨text.drop 2, fun present => terminated (List.mem_of_mem_drop present),
      fun rest => ?_⟩
    rw [skipHexPrefix, first, ok_bind, if_neg zero, second, ok_bind, if_neg mark, third,
      ok_bind, if_pos digit, List.drop_append_of_le_length two]
    rfl
  · refine ⟨text, terminated, fun rest => ?_⟩
    rw [skipHexPrefix, first, ok_bind, if_neg zero, second, ok_bind, if_neg mark, third,
      ok_bind, if_neg digit]
    rfl

theorem readHexDigits_terminated (text : Bytes) (value : Nat) :
    ∃ magnitude, ∀ rest, readHexDigits value (text ++ 0 :: rest) = .ok magnitude := by
  induction text generalizing value with
  | nil => exact ⟨value, fun rest => rfl⟩
  | cons byte text inductionHypothesis =>
      cases found : hexDigit byte with
      | none =>
          refine ⟨value, fun rest => ?_⟩
          rw [List.cons_append, readHexDigits, found]
      | some digit =>
          obtain ⟨magnitude, continued⟩ := inductionHypothesis (16 * value + digit)
          refine ⟨magnitude, fun rest => ?_⟩
          rw [List.cons_append, readHexDigits, found]
          exact continued rest

/-- Every terminated string has a value, whatever stands behind it. -/
theorem strtolHex_terminated {text : Bytes} (terminated : 0 ∉ text) :
    ∃ value, ∀ rest, strtolHex (text ++ 0 :: rest) = .ok value := by
  obtain ⟨signed, signedClean, spaces⟩ := skipSpaces_terminated terminated
  obtain ⟨negative, prefixed, prefixedClean, sign⟩ := readSign_terminated signedClean
  obtain ⟨number, -, hexPrefix⟩ := skipHexPrefix_terminated prefixedClean
  obtain ⟨magnitude, digits⟩ := readHexDigits_terminated number 0
  refine ⟨clampInt32 (if negative then -magnitude else magnitude), fun rest => ?_⟩
  simp only [strtolHex, spaces, sign, hexPrefix, digits, ok_bind, pure_eq_ok]

/-! ## Numbers with a prefix -/

/-- The value of the hexadecimal digits a text starts with. -/
def leadingHex (value : Nat) : Bytes -> Nat
  | [] => value
  | byte :: rest => (hexDigit byte).elim value fun digit => leadingHex (16 * value + digit) rest

theorem hexDigit_lt {byte : UInt8} {digit : Nat} (found : hexDigit byte = some digit) :
    digit < 16 := by
  simp only [hexDigit, UInt8.le_iff_toNat_le] at found
  split at found
  case isTrue decimal =>
    cases found
    have bounded : byte.toNat ≤ 0x39 := decimal.2
    omega
  case isFalse =>
    split at found
    case isTrue upper =>
      cases found
      have bounded : byte.toNat ≤ 0x46 := upper.2
      omega
    case isFalse =>
      split at found
      case isTrue lower =>
        cases found
        have bounded : byte.toNat ≤ 0x66 := lower.2
        omega
      case isFalse => cases found

theorem leadingHex_cons_digit
    {byte : UInt8} {digit : Nat} (value : Nat) (text : Bytes)
    (found : hexDigit byte = some digit) :
    leadingHex value (byte :: text) = leadingHex (16 * value + digit) text := by
  rw [leadingHex, found, Option.elim_some]

theorem leadingHex_cons_other
    {byte : UInt8} (value : Nat) (text : Bytes) (other : hexDigit byte = none) :
    leadingHex value (byte :: text) = value := by
  rw [leadingHex, other, Option.elim_none]

/-- Each digit multiplies the bound by sixteen. -/
theorem leadingHex_lt (value : Nat) (text : Bytes) :
    leadingHex value text < (value + 1) * 16 ^ text.length := by
  induction text generalizing value with
  | nil => simp [leadingHex]
  | cons byte text inductionHypothesis =>
      rw [List.length_cons, Nat.pow_succ]
      cases found : hexDigit byte with
      | none =>
          rw [leadingHex_cons_other value text found]
          have positive : 0 < 16 ^ text.length * 16 :=
            Nat.mul_pos (Nat.pow_pos (by decide)) (by decide)
          exact Nat.lt_of_lt_of_le (Nat.lt_succ_self value)
            (Nat.le_mul_of_pos_right (value + 1) positive)
      | some digit =>
          rw [leadingHex_cons_digit value text found]
          have bounded := hexDigit_lt found
          have later := inductionHypothesis (16 * value + digit)
          calc leadingHex (16 * value + digit) text
              < (16 * value + digit + 1) * 16 ^ text.length := later
            _ ≤ (16 * (value + 1)) * 16 ^ text.length :=
                Nat.mul_le_mul_right _ (by omega)
            _ = (value + 1) * (16 ^ text.length * 16) := by
                rw [Nat.mul_comm 16 (value + 1), Nat.mul_assoc, Nat.mul_comm 16]

theorem readDigits_terminated (value : Nat) (text rest : Bytes) :
    readDigits 16 value (text ++ 0 :: rest) = .ok (leadingHex value text) := by
  induction text generalizing value with
  | nil => rfl
  | cons byte text inductionHypothesis =>
      rw [List.cons_append, readDigits]
      cases found : hexDigit byte with
      | none =>
          rw [leadingHex_cons_other value text found]
          rfl
      | some digit =>
          have kept : (some digit).filter (fun digit => decide (digit < 16)) = some digit := by
            simp [hexDigit_lt found]
          rw [kept, leadingHex_cons_digit value text found]
          exact inductionHypothesis _

/-- Only before a digit the prefix is passed. -/
theorem skipHexPrefix_prefixed (text rest : Bytes) :
    skipHexPrefix (0x30 :: 0x78 :: (text ++ 0 :: rest)) =
      .ok (if (hexDigit (byteAt text 0)).isSome then text ++ 0 :: rest
        else 0x30 :: 0x78 :: (text ++ 0 :: rest)) := by
  have zero : load (regionOf (0x30 :: 0x78 :: (text ++ 0 :: rest))) 0 = .ok 0x30 := rfl
  have mark : load (regionOf (0x30 :: 0x78 :: (text ++ 0 :: rest))) 1 = .ok 0x78 := rfl
  have digit : load (regionOf (0x30 :: 0x78 :: (text ++ 0 :: rest))) 2 =
      .ok (byteAt text 0) := load_terminated text rest (Nat.zero_le _)
  rw [skipHexPrefix, zero, ok_bind, if_neg (by decide), mark, ok_bind, if_neg (by decide),
    digit, ok_bind]
  split <;> rfl

/-- Behind the prefix `0x` the hexadecimal digits count; without any, the number is
the octal zero. -/
theorem strtoul_prefixed (text rest : Bytes) :
    strtoul (0x30 :: 0x78 :: (text ++ 0 :: rest)) =
      .ok (UInt32.ofNat (min (leadingHex 0 text) 4294967295)) := by
  have spaces : skipSpaces (0x30 :: 0x78 :: (text ++ 0 :: rest)) =
      .ok (0x30 :: 0x78 :: (text ++ 0 :: rest)) := rfl
  have sign : readSign (0x30 :: 0x78 :: (text ++ 0 :: rest)) =
      .ok (false, 0x30 :: 0x78 :: (text ++ 0 :: rest)) := rfl
  have zero : load (regionOf (0x30 :: 0x78 :: (text ++ 0 :: rest))) 0 = .ok 0x30 := rfl
  simp only [strtoul, spaces, sign, skipHexPrefix_prefixed, zero, ok_bind, pure_eq_ok]
  by_cases digit : (hexDigit (byteAt text 0)).isSome
  · have shorter : (text ++ 0 :: rest).length <
        (0x30 :: 0x78 :: (text ++ 0 :: rest)).length := by
      simp only [List.length_cons]
      omega
    rw [if_pos digit, if_pos shorter, readDigits_terminated, ok_bind]
    split
    case isTrue large => rw [Nat.min_eq_right (Nat.le_of_lt large)]; rfl
    case isFalse small => rw [Nat.min_eq_left (Nat.le_of_not_lt small)]; rfl
  · have octal : readDigits 8 0 (0x30 :: 0x78 :: (text ++ 0 :: rest)) = .ok 0 := rfl
    have noDigits : leadingHex 0 text = 0 := by
      cases text with
      | nil => rfl
      | cons byte text =>
          exact leadingHex_cons_other 0 text (Option.not_isSome_iff_eq_none.mp digit)
    rw [if_neg digit, if_neg (Nat.lt_irrefl _), if_pos trivial, octal, noDigits]
    rfl

end CMemory
