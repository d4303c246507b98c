import UnityLocalization.Library.Replace
import Mathlib.Data.List.Basic
import Mathlib.Tactic.IntervalCases

/-!
# UTF-16LE text and ASCII case folding

Code units are stored low byte first.  Folding lower-cases ASCII capitals; on
bytes it acts on the units that start below a limit, because programs fold
their buffers in place and only over a prefix.
-/

namespace Utf16

open TextReplace

def lowByte (unit : UInt16) : UInt8 := unit.toUInt8

def highByte (unit : UInt16) : UInt8 := (unit >>> 8).toUInt8

/-- The UTF-16LE bytes of a text. -/
def encode (units : List UInt16) : List UInt8 :=
  units.flatMap fun unit => [lowByte unit, highByte unit]

/-- The ASCII lower case of a code unit. -/
def asciiLower (unit : UInt16) : UInt16 :=
  if 0x41 ≤ unit ∧ unit ≤ 0x5A then unit + 0x20 else unit

/-- The key equals the text from the given unit on, up to ASCII case. -/
def OccursUpToCase (key text : List UInt16) (position : Nat) : Prop :=
  OccursAt (key.map asciiLower) (text.map asciiLower) position

instance (key text : List UInt16) (position : Nat) :
    Decidable (OccursUpToCase key text position) :=
  inferInstanceAs (Decidable (OccursAt _ _ _))

/-- An ASCII capital is stored at the given byte offset. -/
def CapitalAt (bytes : List UInt8) (offset : Nat) : Prop :=
  offset % 2 = 0 ∧ bytes[offset + 1]? = some 0 ∧
    0x41 ≤ bytes.getD offset 0 ∧ bytes.getD offset 0 ≤ 0x5A

instance (bytes : List UInt8) (offset : Nat) : Decidable (CapitalAt bytes offset) :=
  inferInstanceAs (Decidable (_ ∧ _ ∧ _ ∧ _))

/-- Lower-case the ASCII capitals stored below a byte offset. -/
def foldBelow (limit : Nat) (bytes : List UInt8) : List UInt8 :=
  bytes.mapIdx fun offset byte =>
    if offset < limit ∧ CapitalAt bytes offset then byte + 0x20 else byte

/-! ## Encoding -/

@[simp] theorem encode_nil : encode [] = [] := rfl

@[simp] theorem encode_cons (unit : UInt16) (units : List UInt16) :
    encode (unit :: units) =
      lowByte unit :: highByte unit :: encode units := rfl

@[simp] theorem length_encode (units : List UInt16) :
    (encode units).length = 2 * units.length := by
  induction units with
  | nil => rfl
  | cons unit units inductionHypothesis =>
      simp only [encode_cons, List.length_cons, inductionHypothesis]
      omega

theorem getElem?_encode_even (units : List UInt16) (index : Nat) :
    (encode units)[2 * index]? = units[index]?.map lowByte := by
  induction units generalizing index with
  | nil => simp
  | cons unit units inductionHypothesis =>
      cases index with
      | zero => simp
      | succ index =>
          rw [show 2 * (index + 1) = 2 * index + 1 + 1 by omega]
          simp [inductionHypothesis]

theorem getElem?_encode_odd (units : List UInt16) (index : Nat) :
    (encode units)[2 * index + 1]? = units[index]?.map highByte := by
  induction units generalizing index with
  | nil => simp
  | cons unit units inductionHypothesis =>
      cases index with
      | zero => simp
      | succ index =>
          rw [show 2 * (index + 1) + 1 = 2 * index + 1 + 1 + 1 by omega]
          simp [inductionHypothesis]

/-- The two bytes determine the code unit. -/
theorem unit_eq_of_bytes
    {left right : UInt16}
    (low : lowByte left = lowByte right)
    (high : highByte left = highByte right) :
    left = right := by
  have lowNat := congrArg UInt8.toNat low
  have highNat := congrArg UInt8.toNat high
  apply UInt16.toNat_inj.mp
  have leftBound := left.toNat_lt
  have rightBound := right.toNat_lt
  simp only [lowByte, highByte, UInt16.toNat_toUInt8, UInt16.toNat_shiftRight,
    Nat.shiftRight_eq_div_pow] at lowNat highNat
  simp at highNat
  omega

theorem encode_injective : Function.Injective encode := by
  intro left right equal
  apply List.ext_getElem?
  intro index
  have low := congrArg (fun bytes => bytes[2 * index]?) equal
  have high := congrArg (fun bytes => bytes[2 * index + 1]?) equal
  simp only [getElem?_encode_even, getElem?_encode_odd] at low high
  cases leftUnit : left[index]? <;> cases rightUnit : right[index]? <;>
    simp_all
  exact unit_eq_of_bytes low high

/-- The code unit stored in two bytes. -/
def unitOf (low high : UInt8) : UInt16 := UInt16.ofNat (low.toNat + 256 * high.toNat)

theorem lowByte_unitOf (low high : UInt8) : lowByte (unitOf low high) = low := by
  apply UInt8.toNat_inj.mp
  have lowBound := low.toNat_lt
  simp only [lowByte, unitOf, UInt16.toNat_toUInt8, UInt16.toNat_ofNat']
  omega

theorem highByte_unitOf (low high : UInt8) : highByte (unitOf low high) = high := by
  apply UInt8.toNat_inj.mp
  have lowBound := low.toNat_lt
  have highBound := high.toNat_lt
  simp only [highByte, unitOf, UInt16.toNat_toUInt8, UInt16.toNat_shiftRight,
    UInt16.toNat_ofNat', Nat.shiftRight_eq_div_pow]
  simp
  omega

/-- Every even number of bytes stores some text. -/
theorem exists_encode (bytes : List UInt8) (even : bytes.length % 2 = 0) :
    ∃ units, encode units = bytes := by
  match bytes with
  | [] => exact ⟨[], rfl⟩
  | [byte] => simp at even
  | low :: high :: rest =>
      have evenRest : rest.length % 2 = 0 := by
        simp only [List.length_cons] at even
        omega
      obtain ⟨units, stored⟩ := exists_encode rest evenRest
      refine ⟨unitOf low high :: units, ?_⟩
      rw [encode_cons, lowByte_unitOf, highByte_unitOf, stored]

theorem drop_encode (units : List UInt16) (count : Nat) :
    (encode units).drop (2 * count) = encode (units.drop count) := by
  induction count generalizing units with
  | zero => simp
  | succ count inductionHypothesis =>
      cases units with
      | nil => simp
      | cons unit units =>
          rw [show 2 * (count + 1) = 2 * count + 1 + 1 by omega]
          simp [inductionHypothesis]

theorem take_encode (units : List UInt16) (count : Nat) :
    (encode units).take (2 * count) = encode (units.take count) := by
  induction count generalizing units with
  | zero => simp
  | succ count inductionHypothesis =>
      cases units with
      | nil => simp
      | cons unit units =>
          rw [show 2 * (count + 1) = 2 * count + 1 + 1 by omega]
          simp [inductionHypothesis]

/-- At a unit boundary, the bytes of a key occur exactly where its units do. -/
theorem occursAt_encode_iff (key text : List UInt16) (position : Nat) :
    OccursAt (encode key) (encode text) (2 * position) ↔
      OccursAt key text position := by
  unfold OccursAt
  rw [drop_encode, length_encode, take_encode]
  exact encode_injective.eq_iff

/-! ## Case folding of code units -/

theorem asciiLower_idem (unit : UInt16) :
    asciiLower (asciiLower unit) = asciiLower unit := by
  unfold asciiLower
  split
  case isTrue capital =>
    rw [if_neg]
    simp only [UInt16.le_iff_toNat_le, UInt16.toNat_add] at capital ⊢
    simp at capital ⊢
    omega
  case isFalse => rfl

/-- Lower case never is a capital. -/
theorem asciiLower_not_capital (unit : UInt16) :
    ¬(0x41 ≤ asciiLower unit ∧ asciiLower unit ≤ 0x5A) := by
  unfold asciiLower
  split
  case isTrue capital =>
    simp only [UInt16.le_iff_toNat_le, UInt16.toNat_add] at capital ⊢
    simp at capital ⊢
    omega
  case isFalse notCapital => exact notCapital

/-! ## Case folding in place -/

@[simp] theorem length_foldBelow (limit : Nat) (bytes : List UInt8) :
    (foldBelow limit bytes).length = bytes.length := by
  simp [foldBelow]

theorem getElem?_foldBelow (limit : Nat) (bytes : List UInt8) (offset : Nat) :
    (foldBelow limit bytes)[offset]? =
      bytes[offset]?.map fun byte =>
        if offset < limit ∧ CapitalAt bytes offset then byte + 0x20 else byte := by
  simp [foldBelow, List.getElem?_mapIdx]

theorem CapitalAt.lt_length
    {bytes : List UInt8} {offset : Nat} (capital : CapitalAt bytes offset) :
    offset + 1 < bytes.length := by
  by_contra outside
  have missing := capital.2.1
  rw [List.getElem?_eq_none (by omega)] at missing
  cases missing

/-- A stored capital, its range spelled out. -/
theorem CapitalAt.exists_byte
    {bytes : List UInt8} {offset : Nat} (capital : CapitalAt bytes offset) :
    ∃ byte, bytes[offset]? = some byte ∧ 0x41 ≤ byte ∧ byte ≤ 0x5A := by
  have inside := capital.lt_length
  have stored : bytes[offset]? = some bytes[offset] :=
    List.getElem?_eq_getElem (by omega)
  obtain ⟨-, -, lower, upper⟩ := capital
  simp only [List.getD_eq_getElem?_getD, stored, Option.getD_some] at lower upper
  exact ⟨bytes[offset], stored, lower, upper⟩

theorem not_capitalAt_odd
    (bytes : List UInt8) {offset : Nat} (odd : offset % 2 = 1) :
    ¬CapitalAt bytes offset := by
  intro capital
  have even := capital.1
  omega

/-- A byte outside the folded capitals is kept. -/
theorem getElem?_foldBelow_of_not
    {limit offset : Nat} {bytes : List UInt8}
    (kept : ¬(offset < limit ∧ CapitalAt bytes offset)) :
    (foldBelow limit bytes)[offset]? = bytes[offset]? := by
  simp [getElem?_foldBelow, kept]

/-- A folded capital is no capital any more, and differs from the original. -/
theorem getElem?_foldBelow_capital
    {limit offset : Nat} {bytes : List UInt8}
    (below : offset < limit) (capital : CapitalAt bytes offset) :
    ∃ byte, bytes[offset]? = some byte ∧
      (foldBelow limit bytes)[offset]? = some (byte + 0x20) ∧
      0x61 ≤ byte + 0x20 ∧ byte + 0x20 ≠ byte := by
  obtain ⟨byte, stored, lower, upper⟩ := capital.exists_byte
  refine ⟨byte, stored, by simp [getElem?_foldBelow, stored, below, capital], ?_, ?_⟩
  · simp only [UInt8.le_iff_toNat_le, UInt8.toNat_add] at lower upper ⊢
    simp at lower upper ⊢
    omega
  · intro equal
    have values := congrArg UInt8.toNat equal
    simp [UInt8.toNat_add] at values
    omega

/-- The capitals left after folding are those at or behind the limit. -/
theorem capitalAt_foldBelow_iff
    (limit : Nat) (bytes : List UInt8) (offset : Nat) :
    CapitalAt (foldBelow limit bytes) offset ↔
      CapitalAt bytes offset ∧ limit ≤ offset := by
  by_cases even : offset % 2 = 0
  · have high : (foldBelow limit bytes)[offset + 1]? = bytes[offset + 1]? :=
      getElem?_foldBelow_of_not fun folded =>
        not_capitalAt_odd bytes (by omega) folded.2
    by_cases folded : offset < limit ∧ CapitalAt bytes offset
    · obtain ⟨byte, -, folding, range, -⟩ :=
        getElem?_foldBelow_capital folded.1 folded.2
      constructor
      · intro capital
        obtain ⟨other, stored, -, upper⟩ := capital.exists_byte
        rw [folding] at stored
        cases stored
        have outside := UInt8.le_trans range upper
        exact absurd outside (by decide)
      · intro behind
        omega
    · have low : (foldBelow limit bytes)[offset]? = bytes[offset]? :=
        getElem?_foldBelow_of_not folded
      unfold CapitalAt
      rw [high, List.getD_eq_getElem?_getD, low, ← List.getD_eq_getElem?_getD]
      constructor
      · intro capital
        exact ⟨capital, Nat.le_of_not_lt fun below => folded ⟨below, capital⟩⟩
      · exact fun capital => capital.1
  · have odd : offset % 2 = 1 := by omega
    simp [not_capitalAt_odd _ odd]

/-- Folding twice folds up to the larger limit. -/
theorem foldBelow_foldBelow (first second : Nat) (bytes : List UInt8) :
    foldBelow second (foldBelow first bytes) =
      foldBelow (max first second) bytes := by
  apply List.ext_getElem?
  intro offset
  rw [getElem?_foldBelow, getElem?_foldBelow, getElem?_foldBelow]
  simp only [capitalAt_foldBelow_iff, Option.map_map]
  congr 1
  funext byte
  by_cases capital : CapitalAt bytes offset
  · by_cases below : offset < first
    · have behind : ¬(offset < second ∧ first ≤ offset) := by omega
      simp [capital, below, behind]
    · have notBelow : first ≤ offset := by omega
      simp [capital, below, notBelow]
  · simp [capital]

theorem foldBelow_zero (bytes : List UInt8) : foldBelow 0 bytes = bytes := by
  apply List.ext_getElem?
  intro offset
  exact getElem?_foldBelow_of_not fun folded => Nat.not_lt_zero _ folded.1

/-- Folding commutes with taking whole units. -/
theorem take_foldBelow
    (limit : Nat) (bytes : List UInt8) {count : Nat} (even : count % 2 = 0) :
    (foldBelow limit bytes).take count = foldBelow limit (bytes.take count) := by
  apply List.ext_getElem?
  intro offset
  rw [List.getElem?_take, getElem?_foldBelow, getElem?_foldBelow,
    List.getElem?_take]
  by_cases inside : offset < count
  · have same : CapitalAt (bytes.take count) offset ↔ CapitalAt bytes offset := by
      unfold CapitalAt
      constructor <;> rintro ⟨aligned, high, low⟩ <;>
        have next : offset + 1 < count := by omega
      · refine ⟨aligned, ?_, ?_⟩
        · simpa [List.getElem?_take, next] using high
        · simpa [List.getD_eq_getElem?_getD, List.getElem?_take, inside]
            using low
      · refine ⟨aligned, ?_, ?_⟩
        · simpa [List.getElem?_take, next] using high
        · simpa [List.getD_eq_getElem?_getD, List.getElem?_take, inside]
            using low
    simp only [inside, if_true, same]
  · simp [inside]

/-- Two foldings agree exactly when they treat every capital alike. -/
theorem foldBelow_eq_foldBelow_iff
    {smaller larger : Nat} (ordered : smaller ≤ larger) (bytes : List UInt8) :
    foldBelow larger bytes = foldBelow smaller bytes ↔
      ∀ offset, smaller ≤ offset -> offset < larger ->
        ¬CapitalAt bytes offset := by
  constructor
  · intro equal offset behind below capital
    have kept : ¬(offset < smaller ∧ CapitalAt bytes offset) := by omega
    obtain ⟨byte, stored, folded, -, changed⟩ :=
      getElem?_foldBelow_capital below capital
    rw [equal, getElem?_foldBelow_of_not kept, stored] at folded
    exact changed (Option.some.inj folded).symm
  · intro noCapital
    apply List.ext_getElem?
    intro offset
    rw [getElem?_foldBelow, getElem?_foldBelow]
    congr 1
    funext byte
    by_cases capital : CapitalAt bytes offset
    · have same : offset < larger ↔ offset < smaller := by
        constructor
        · intro below
          by_contra behind
          exact noCapital offset (by omega) below capital
        · omega
      simp only [same]
    · simp [capital]

/-- Folding neither makes nor removes zero bytes. -/
theorem getElem?_foldBelow_eq_zero_iff
    (limit : Nat) (bytes : List UInt8) (offset : Nat) :
    (foldBelow limit bytes)[offset]? = some 0 ↔ bytes[offset]? = some 0 := by
  by_cases folded : offset < limit ∧ CapitalAt bytes offset
  · obtain ⟨byte, stored, folding, range, -⟩ :=
      getElem?_foldBelow_capital folded.1 folded.2
    obtain ⟨original, originalStored, lower, -⟩ := folded.2.exists_byte
    rw [folding, originalStored]
    constructor
    · intro zero
      rw [Option.some.inj zero] at range
      exact absurd range (by decide)
    · intro zero
      rw [Option.some.inj zero] at lower
      exact absurd lower (by decide)
  · rw [getElem?_foldBelow_of_not folded]

/-! ## Folding encoded text -/

/-- In encoded text a capital is stored exactly at a capital code unit. -/
theorem capitalAt_encode_iff (units : List UInt16) (index : Nat) :
    CapitalAt (encode units) (2 * index) ↔
      ∃ unit, units[index]? = some unit ∧ 0x41 ≤ unit ∧ unit ≤ 0x5A := by
  unfold CapitalAt
  rw [getElem?_encode_odd, List.getD_eq_getElem?_getD, getElem?_encode_even]
  cases stored : units[index]? with
  | none => simp
  | some unit =>
      have bound := unit.toNat_lt
      simp only [Option.map_some, Option.some.injEq, Option.getD_some,
        exists_eq_left', lowByte, highByte]
      rw [← UInt8.toNat_inj]
      simp only [UInt8.le_iff_toNat_le, UInt16.le_iff_toNat_le,
        UInt16.toNat_toUInt8, UInt16.toNat_shiftRight,
        Nat.shiftRight_eq_div_pow]
      simp
      omega

theorem highByte_asciiLower (unit : UInt16) :
    highByte (asciiLower unit) = highByte unit := by
  unfold asciiLower
  split
  case isTrue capital =>
    apply UInt8.toNat_inj.mp
    simp only [UInt16.le_iff_toNat_le] at capital
    simp only [highByte, UInt16.toNat_toUInt8, UInt16.toNat_shiftRight,
      Nat.shiftRight_eq_div_pow, UInt16.toNat_add]
    simp at capital ⊢
    omega
  case isFalse => rfl

theorem lowByte_asciiLower (unit : UInt16) :
    lowByte (asciiLower unit) =
      if 0x41 ≤ unit ∧ unit ≤ 0x5A then lowByte unit + 0x20 else lowByte unit := by
  unfold asciiLower
  split
  case isTrue capital =>
    apply UInt8.toNat_inj.mp
    simp only [lowByte, UInt16.toNat_toUInt8, UInt8.toNat_add, UInt16.toNat_add]
    simp
  case isFalse => rfl

/-- Folding a prefix of an encoded text lower-cases the code units that start
below the limit. -/
theorem foldBelow_encode (limit : Nat) (units : List UInt16) :
    foldBelow limit (encode units) =
      encode (units.mapIdx fun index unit =>
        if 2 * index < limit then asciiLower unit else unit) := by
  apply List.ext_getElem?
  intro offset
  rcases Nat.even_or_odd' offset with ⟨index, rfl | rfl⟩
  · rw [getElem?_foldBelow, getElem?_encode_even, getElem?_encode_even,
      List.getElem?_mapIdx]
    cases stored : units[index]? with
    | none => simp
    | some unit =>
        by_cases below : 2 * index < limit
        · simp [below, lowByte_asciiLower, capitalAt_encode_iff, stored]
        · simp [below]
  · rw [getElem?_foldBelow_of_not fun folded =>
        not_capitalAt_odd _ (by omega) folded.2,
      getElem?_encode_odd, getElem?_encode_odd, List.getElem?_mapIdx]
    cases stored : units[index]? with
    | none => simp
    | some unit =>
        by_cases below : 2 * index < limit
        · simp [below, highByte_asciiLower]
        · simp [below]

/-- Folding all of an encoded text lower-cases all its code units. -/
theorem foldBelow_encode_all
    (units : List UInt16) {limit : Nat} (covers : 2 * units.length ≤ limit) :
    foldBelow limit (encode units) = encode (units.map asciiLower) := by
  rw [foldBelow_encode]
  congr 1
  apply List.ext_getElem?
  intro index
  rw [List.getElem?_mapIdx, List.getElem?_map]
  by_cases inside : index < units.length
  · have below : 2 * index < limit := by omega
    simp [below]
  · simp [List.getElem?_eq_none (by omega : units.length ≤ index)]

/-! ## Occurrences in a folded copy -/

/-- Folding sees of a unit only its two bytes. -/
theorem getElem?_foldBelow_congr
    {left right : List UInt8} {offset : Nat} (limit : Nat)
    (same : left[offset]? = right[offset]?)
    (sameHigh : offset % 2 = 0 -> left[offset + 1]? = right[offset + 1]?) :
    (foldBelow limit left)[offset]? = (foldBelow limit right)[offset]? := by
  have sameCapital : CapitalAt left offset ↔ CapitalAt right offset := by
    unfold CapitalAt
    rw [List.getD_eq_getElem?_getD, List.getD_eq_getElem?_getD, same]
    exact and_congr_right fun even => by rw [sameHigh even]
  rw [getElem?_foldBelow, getElem?_foldBelow, same]
  simp only [sameCapital]

/-- Folding whole units leaves the bytes behind them alone. -/
theorem foldBelow_append
    {limit : Nat} {front : List UInt8} (back : List UInt8)
    (even : front.length % 2 = 0) (below : limit ≤ front.length) :
    foldBelow limit (front ++ back) = foldBelow limit front ++ back := by
  apply List.ext_getElem?
  intro offset
  by_cases inside : offset < front.length
  · rw [List.getElem?_append_left (by simpa using inside)]
    apply getElem?_foldBelow_congr limit (List.getElem?_append_left inside)
    intro aligned
    exact List.getElem?_append_left (by omega)
  · have behind : front.length ≤ offset := Nat.le_of_not_lt inside
    rw [getElem?_foldBelow_of_not fun folded => absurd folded.1 (by omega),
      List.getElem?_append_right behind,
      List.getElem?_append_right (by simpa using behind), length_foldBelow]

/-- At a unit boundary a lower-case key is found in a partly folded text where it
occurs up to case and every capital of the window has been folded. -/
theorem occursAt_foldBelow_encode_iff
    (key text : List UInt16) (limit position : Nat) :
    OccursAt (encode (key.map asciiLower)) (foldBelow limit (encode text))
        (2 * position) ↔
      OccursUpToCase key text position ∧
        ∀ index, position ≤ index -> index < position + key.length ->
          CapitalAt (encode text) (2 * index) -> 2 * index < limit := by
  rw [foldBelow_encode, occursAt_encode_iff]
  constructor
  · intro occurs
    have unitAt : ∀ index, index < key.length ->
        ∃ unit keyUnit, text[position + index]? = some unit ∧
          key[index]? = some keyUnit ∧
          (if 2 * (position + index) < limit then asciiLower unit else unit) =
            asciiLower keyUnit := by
      intro index inside
      have symbol := occurs.getElem?_eq (show index < (key.map asciiLower).length by
        simpa using inside)
      rw [List.getElem?_mapIdx, List.getElem?_map, List.getElem?_eq_getElem inside] at symbol
      cases stored : text[position + index]? with
      | none => simp [stored] at symbol
      | some unit =>
          rw [stored] at symbol
          exact ⟨unit, key[index], rfl, List.getElem?_eq_getElem inside,
            Option.some.inj symbol⟩
    constructor
    · apply occursAt_of_getElem?
      intro index inside
      rw [List.length_map] at inside
      obtain ⟨unit, keyUnit, stored, keyStored, folded⟩ := unitAt index inside
      rw [List.getElem?_map, List.getElem?_map, stored, keyStored, Option.map_some,
        Option.map_some]
      split at folded
      · rw [folded]
      · rw [folded, asciiLower_idem]
    · intro index behind inside capital
      obtain ⟨offset, rfl⟩ := Nat.exists_eq_add_of_le behind
      obtain ⟨unit, keyUnit, stored, -, folded⟩ := unitAt offset (by omega)
      obtain ⟨other, storedOther, isCapital⟩ := (capitalAt_encode_iff _ _).mp capital
      rw [stored] at storedOther
      cases storedOther
      by_contra notBelow
      rw [if_neg notBelow] at folded
      exact asciiLower_not_capital keyUnit (folded ▸ isCapital)
  · rintro ⟨occurs, folded⟩
    apply occursAt_of_getElem?
    intro index inside
    have symbol := occurs.getElem?_eq inside
    rw [List.length_map] at inside
    rw [← symbol, List.getElem?_mapIdx, List.getElem?_map]
    cases stored : text[position + index]? with
    | none => rfl
    | some unit =>
        simp only [Option.map_some, Option.some.injEq]
        split
        · rfl
        · rename_i notBelow
          symm
          apply if_neg
          intro capital
          exact notBelow (folded (position + index) (by omega) (by omega)
            ((capitalAt_encode_iff _ _).mpr ⟨unit, stored, capital⟩))

end Utf16
