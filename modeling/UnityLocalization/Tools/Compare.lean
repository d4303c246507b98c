import UnityLocalization.Library.Memory
import UnityLocalization.Library.Utf16

/-!
# Lower-casing and searching UTF-16LE bytes

`tolowerUnicode` lower-cases a buffer in place, `memcmpPlus` slides a pattern
over a buffer one byte at a time.  Lengths are C `int`s and therefore integers.
-/

namespace UnityLocalization
namespace Tools

open CMemory Utf16 TextReplace

/-- The body of the folding loop at one position. -/
def tolowerUnit (c : Bytes) (currentPos : Nat) : Checked Bytes := do
  let high ← load (regionOf c) (currentPos + 1)
  if high = 0 then
    let low ← load (regionOf c) currentPos
    if low ≠ 0 then
      if 0x41 ≤ low ∧ low ≤ 0x5A then store c currentPos (low + 0x20)
      else return c
    else return c
  else return c

def tolowerLoop (c : Bytes) (length : Int) (currentPos : Nat) : Checked Bytes :=
  if currentPos ≤ length then do
    let c ← tolowerUnit c currentPos
    tolowerLoop c length (currentPos + 2)
  else .ok c
termination_by (length + 1 - currentPos).toNat

/-- `tolower_unicode(c, length)` -/
def tolowerUnicode (c : Bytes) (length : Int) : Checked Bytes :=
  tolowerLoop c length 0

/-- The sliding comparison of `memcmp_plus`, with `temp_p0` as an offset. -/
def memcmpPlusLoop
    (p0 p1 : Region) (lt1 lt2 : Int) (tempP0 : Nat) : Checked (Option Nat) :=
  if lt2 ≠ 0 ∧ lt1 ≥ lt2 then do
    if ← memcmpEqual p0 tempP0 p1 0 lt2.toNat then return some tempP0
    memcmpPlusLoop p0 p1 (lt1 - 1) lt2 (tempP0 + 1)
  else .ok none
termination_by (lt1 - lt2 + 1).toNat

/-- `memcmp_plus(p0, p1, lt1, lt2)`: the offset of the returned pointer. -/
def memcmpPlus (p0 p1 : Region) (lt1 lt2 : Int) : Checked (Option Nat) :=
  memcmpPlusLoop p0 p1 lt1 lt2 0

/-! ## Folding -/

/-- At a unit inside the buffer the loop body lower-cases a capital. -/
theorem tolowerUnit_ok
    {text : Bytes} {currentPos : Nat}
    (aligned : currentPos % 2 = 0) (inside : currentPos + 1 < text.length) :
    tolowerUnit text currentPos =
      .ok (if CapitalAt text currentPos then
        text.set currentPos (text.getD currentPos 0 + 0x20) else text) := by
  have here : currentPos < text.length := by omega
  have lowByte : text.getD currentPos 0 = text[currentPos] := by
    simp [List.getD_eq_getElem?_getD, here]
  have capital_iff : CapitalAt text currentPos ↔
      text[currentPos + 1] = 0 ∧ 0x41 ≤ text[currentPos] ∧ text[currentPos] ≤ 0x5A := by
    unfold CapitalAt
    rw [lowByte, List.getElem?_eq_getElem inside]
    simp [aligned]
  simp only [tolowerUnit, load_regionOf text _ inside, load_regionOf text _ here,
    ok_bind, pure_eq_ok, capital_iff, lowByte]
  by_cases high : text[currentPos + 1] = 0
  · by_cases range : 0x41 ≤ text[currentPos] ∧ text[currentPos] ≤ 0x5A
    · have nonzero : text[currentPos] ≠ 0 := by
        intro zero
        rw [zero] at range
        exact absurd range.1 (by decide)
      simp [high, range, nonzero, store_of_lt text _ _ here]
    · by_cases nonzero : text[currentPos] ≠ 0 <;> simp [high, range]
  · simp [high]

/-- One turn of the loop moves the folded prefix on by a unit. -/
theorem tolowerUnit_foldBelow
    {c : Bytes} {currentPos : Nat}
    (aligned : currentPos % 2 = 0) (inside : currentPos + 1 < c.length) :
    tolowerUnit (foldBelow currentPos c) currentPos =
      .ok (foldBelow (currentPos + 2) c) := by
  have current : CapitalAt (foldBelow currentPos c) currentPos ↔
      CapitalAt c currentPos := by
    simp [capitalAt_foldBelow_iff]
  rw [tolowerUnit_ok aligned (by simpa using inside)]
  simp only [current]
  congr 1
  apply List.ext_getElem?
  intro offset
  by_cases same : offset = currentPos
  · subst same
    by_cases capital : CapitalAt c offset
    · have here : offset < c.length := by omega
      rw [if_pos capital, List.getElem?_set_self (by simpa using here),
        List.getD_eq_getElem?_getD,
        getElem?_foldBelow_of_not fun below => Nat.lt_irrefl _ below.1,
        getElem?_foldBelow, List.getElem?_eq_getElem here]
      simp [capital]
    · simp only [capital, if_false, getElem?_foldBelow, and_false]
  · have notSet : (if CapitalAt c currentPos then
          (foldBelow currentPos c).set currentPos
            ((foldBelow currentPos c).getD currentPos 0 + 0x20)
        else foldBelow currentPos c)[offset]? =
        (foldBelow currentPos c)[offset]? := by
      split
      · exact List.getElem?_set_ne (Ne.symm same)
      · rfl
    rw [notSet, getElem?_foldBelow, getElem?_foldBelow]
    congr 1
    funext byte
    by_cases capital : CapitalAt c offset
    · have even := capital.1
      have below : offset < currentPos ↔ offset < currentPos + 2 := by omega
      simp only [below]
    · simp [capital]

/-- The loop folds the units through `length`, the last one included. -/
theorem tolowerLoop_foldBelow
    (c : Bytes) (length currentPos : Nat)
    (aligned : currentPos % 2 = 0) (evenLength : length % 2 = 0)
    (inside : length + 2 ≤ c.length) (notPast : currentPos ≤ length + 2) :
    tolowerLoop (foldBelow currentPos c) length currentPos =
      .ok (foldBelow (length + 2) c) := by
  rw [tolowerLoop]
  split
  case isTrue more =>
    have here : currentPos ≤ length := by omega
    rw [tolowerUnit_foldBelow aligned (by omega), ok_bind]
    exact tolowerLoop_foldBelow c length (currentPos + 2) (by omega) evenLength
      inside (by omega)
  case isFalse done =>
    have atEnd : currentPos = length + 2 := by omega
    rw [atEnd]
termination_by length + 2 - currentPos

/-- `tolower_unicode` reaches one unit past its even length. -/
theorem tolowerUnicode_ok
    {c : Bytes} {length : Nat}
    (evenLength : length % 2 = 0) (inside : length + 2 ≤ c.length) :
    tolowerUnicode c length = .ok (foldBelow (length + 2) c) := by
  have loop := tolowerLoop_foldBelow c length 0 rfl evenLength inside (by omega)
  rwa [foldBelow_zero] at loop

/-- Folding twice is folding the longer range. -/
theorem tolowerUnicode_tolowerUnicode
    {c : Bytes} {first second : Nat}
    (firstEven : first % 2 = 0) (secondEven : second % 2 = 0)
    (firstInside : first + 2 ≤ c.length) (secondInside : second + 2 ≤ c.length) :
    (do let folded ← tolowerUnicode c first; tolowerUnicode folded second) =
      tolowerUnicode c (max first second : Nat) := by
  rw [tolowerUnicode_ok firstEven firstInside, ok_bind,
    tolowerUnicode_ok secondEven (by simpa using secondInside), foldBelow_foldBelow,
    tolowerUnicode_ok (by omega) (by omega), Nat.add_max_add_right]

/-! ## The range of a folding -/

/-- Folding the given units lower-cases them and keeps the bytes behind them. -/
def FoldsBelow (units : List UInt16) (rest : Bytes) : Prop :=
  tolowerUnicode (encode units ++ rest) (2 * units.length : Nat) =
    .ok (encode (units.map asciiLower) ++ rest)

/-- Folding the given units returns where the memory ends behind them. -/
def ReadsBelow (units : List UInt16) : Prop :=
  ∃ folded, tolowerUnicode (encode units) (2 * units.length : Nat) = .ok folded

/-- The loop needs the unit that starts at `length`. -/
theorem tolowerLoop_overrun
    (c : Bytes) (length currentPos : Nat)
    (aligned : currentPos % 2 = 0) (evenLength : length % 2 = 0)
    (notPast : currentPos ≤ length) (short : c.length < length + 2) :
    tolowerLoop c length currentPos = .error .outOfBounds := by
  have more : (currentPos : Int) ≤ length := by omega
  rw [tolowerLoop, if_pos more]
  by_cases inside : currentPos + 1 < c.length
  · rw [tolowerUnit_ok aligned inside, ok_bind]
    exact tolowerLoop_overrun _ length (currentPos + 2) (by omega) evenLength (by omega)
      (by split <;> simpa using short)
  · have missing : load (regionOf c) (currentPos + 1) = .error .outOfBounds := by
      rw [load, regionOf, List.getElem?_eq_none (Nat.le_of_not_lt inside)]
    rw [tolowerUnit, missing, error_bind, error_bind]
termination_by length - currentPos
decreasing_by omega

theorem tolowerUnicode_overrun
    {c : Bytes} {length : Nat}
    (evenLength : length % 2 = 0) (short : c.length < length + 2) :
    tolowerUnicode c length = .error .outOfBounds :=
  tolowerLoop_overrun c length 0 rfl evenLength (Nat.zero_le _) short

/-- One unit more than asked for is lower-cased. -/
theorem tolowerUnicode_append
    (units : List UInt16) (low high : UInt8) (more : Bytes) :
    tolowerUnicode (encode units ++ low :: high :: more) (2 * units.length : Nat) =
      .ok (encode (units.map asciiLower) ++
        lowByte (asciiLower (unitOf low high)) :: high :: more) := by
  have behind : encode units ++ low :: high :: more =
      encode (units ++ [unitOf low high]) ++ more := by
    simp [encode, lowByte_unitOf, highByte_unitOf]
  have size : (encode (units ++ [unitOf low high])).length = 2 * units.length + 2 := by
    rw [length_encode, List.length_append, List.length_singleton]
    omega
  rw [behind, tolowerUnicode_ok (by omega) (by rw [List.length_append]; omega),
    foldBelow_append _ (by omega) (by omega), foldBelow_encode_all _ (by
      rw [← length_encode]; omega)]
  simp [encode, highByte_asciiLower, highByte_unitOf]

/-- Folding always reads behind its range.  The bytes there are kept exactly if
there is a unit that is no ASCII capital. -/
theorem not_foldsItsRange (units : List UInt16) (rest : Bytes) :
    ¬(FoldsBelow units rest ∧ ReadsBelow units) ∧
      (FoldsBelow units rest ↔
        ∃ low high more, rest = low :: high :: more ∧
          asciiLower (unitOf low high) = unitOf low high) := by
  have size : (encode units).length = 2 * units.length := length_encode _
  constructor
  · rintro ⟨-, folded, returned⟩
    rw [tolowerUnicode_overrun (by omega) (by omega)] at returned
    cases returned
  · rw [FoldsBelow]
    match rest with
    | [] | [_] =>
        rw [tolowerUnicode_overrun (by omega) (by simp [size])]
        simp
    | low :: high :: more =>
        rw [tolowerUnicode_append]
        constructor
        · intro kept
          have sameLow : lowByte (asciiLower (unitOf low high)) = low := by
            simpa using kept
          refine ⟨low, high, more, rfl, unit_eq_of_bytes ?_ (highByte_asciiLower _)⟩
          rw [sameLow, lowByte_unitOf]
        · rintro ⟨_, _, _, same, lower⟩
          cases same
          rw [lower, lowByte_unitOf]

/-- The letter behind the range is lower-cased as well. -/
theorem tolowerUnicode_beyond :
    tolowerUnicode (encode [0x41, 0x42]) 2 = .ok (encode [0x61, 0x62]) ∧
      ¬FoldsBelow [0x41] (encode [0x42]) := by
  have folded : tolowerUnicode (encode [0x41, 0x42]) (2 * 1 : Nat) =
      .ok (encode [0x61, 0x62]) := tolowerUnicode_append [0x41] 0x42 0x00 []
  refine ⟨folded, fun kept => ?_⟩
  rw [FoldsBelow] at kept
  exact absurd (folded.symm.trans kept) (by decide)

/-! ## Searching -/

/-- The offset moves up to the first occurrence that is not before it. -/
theorem memcmpPlusLoop_ok
    (text word : Bytes) (lt1 lt2 : Nat) (tempP0 : Nat)
    (positive : lt2 ≠ 0)
    (textInside : tempP0 + lt1 ≤ text.length) (wordInside : lt2 ≤ word.length) :
    memcmpPlusLoop (regionOf text) (regionOf word) lt1 lt2 tempP0 =
      .ok ((firstOccurrence (word.take lt2)
        ((text.drop tempP0).take lt1)).map (tempP0 + ·)) := by
  induction lt1 generalizing tempP0 with
  | zero =>
      have stops : ¬((lt2 : Int) ≠ 0 ∧ ((0 : Nat) : Int) ≥ lt2) := by omega
      have wordNonempty : word.take lt2 ≠ [] := by
        intro empty
        have lengths := congrArg List.length empty
        simp only [List.length_take, List.length_nil] at lengths
        omega
      rw [memcmpPlusLoop, if_neg stops]
      simp [firstOccurrence, wordNonempty]
  | succ lt1 inductionHypothesis =>
      have here : tempP0 < text.length := by omega
      have wordLength : (word.take lt2).length = lt2 := by
        simp only [List.length_take]
        omega
      have wordNonempty : word.take lt2 ≠ [] :=
        List.ne_nil_of_length_pos (by omega)
      rw [memcmpPlusLoop]
      by_cases fits : lt2 ≤ lt1 + 1
      · have continues : (lt2 : Int) ≠ 0 ∧ ((lt1 + 1 : Nat) : Int) ≥ lt2 := by
          omega
        have compared := memcmpEqual_regionOf text word tempP0 0 lt2
          (by omega) (by omega)
        have occurs_iff :
            OccursAt (word.take lt2) ((text.drop tempP0).take (lt1 + 1)) 0 ↔
              (text.drop tempP0).take lt2 = word.take lt2 := by
          rw [OccursAt, wordLength, List.drop_zero, List.take_take,
            Nat.min_eq_left fits]
        have shorter : ((lt1 + 1 : Nat) : Int) - 1 = (lt1 : Int) := by omega
        rw [if_pos continues, Int.toNat_natCast, compared, ok_bind,
          List.drop_zero, shorter, inductionHypothesis (tempP0 + 1) (by omega)]
        rw [List.drop_eq_getElem_cons here, List.take_succ_cons] at occurs_iff ⊢
        simp only [firstOccurrence, occurs_iff, beq_iff_eq]
        split
        · simp
        · rw [Option.map_map]
          congr 2
          funext position
          simp only [Function.comp_apply]
          omega
      · have stops : ¬((lt2 : Int) ≠ 0 ∧ ((lt1 + 1 : Nat) : Int) ≥ lt2) := by
          omega
        have absent : firstOccurrence (word.take lt2)
            ((text.drop tempP0).take (lt1 + 1)) = none := by
          rw [firstOccurrence_eq_none_iff wordNonempty]
          intro position occurs
          have bounded := occurs.length_le wordNonempty
          simp only [wordLength, List.length_take, List.length_drop] at bounded
          omega
        rw [if_neg stops, absent]
        rfl

/-- `memcmp_plus` returns the first occurrence of a nonempty pattern. -/
theorem memcmpPlus_ok
    (text word : Bytes) (lt1 lt2 : Nat) (positive : lt2 ≠ 0)
    (textInside : lt1 ≤ text.length) (wordInside : lt2 ≤ word.length) :
    memcmpPlus (regionOf text) (regionOf word) lt1 lt2 =
      .ok (firstOccurrence (word.take lt2) (text.take lt1)) := by
  rw [memcmpPlus, memcmpPlusLoop_ok text word lt1 lt2 0 positive
    (by omega) wordInside]
  simp

/-- An empty pattern is never found. -/
theorem memcmpPlus_empty (p0 p1 : Region) (lt1 : Int) :
    memcmpPlus p0 p1 lt1 0 = .ok none := by
  rw [memcmpPlus, memcmpPlusLoop]
  simp

/-- A pattern longer than the searched range is never found; a negative range
counts as shorter. -/
theorem memcmpPlus_short (p0 p1 : Region) {lt1 lt2 : Int} (short : lt1 < lt2) :
    memcmpPlus p0 p1 lt1 lt2 = .ok none := by
  rw [memcmpPlus, memcmpPlusLoop, if_neg (by omega)]

/-- The pattern stands at `p0 + i`, inside the first `lt1` bytes. -/
def FoundAt (p0 p1 : Bytes) (lt1 lt2 i : Nat) : Prop :=
  i + lt2 ≤ lt1 ∧ (p0.drop i).take lt2 = p1.take lt2

theorem foundAt_iff_occursAt
    {p0 p1 : Bytes} {lt1 lt2 : Nat} (positive : lt2 ≠ 0)
    (textInside : lt1 ≤ p0.length) (wordInside : lt2 ≤ p1.length) (i : Nat) :
    FoundAt p0 p1 lt1 lt2 i ↔ OccursAt (p1.take lt2) (p0.take lt1) i := by
  have wordLength : (p1.take lt2).length = lt2 := List.length_take_of_le wordInside
  have window (inside : i + lt2 ≤ lt1) :
      ((p0.take lt1).drop i).take lt2 = (p0.drop i).take lt2 := by
    rw [List.drop_take, List.take_take, Nat.min_eq_left (by omega)]
  constructor
  · rintro ⟨inside, same⟩
    rw [OccursAt, wordLength, window inside, same]
  · intro occurs
    have inside := occurs.length_le (List.ne_nil_of_length_pos (by omega))
    rw [wordLength, List.length_take_of_le textInside] at inside
    rw [OccursAt, wordLength, window inside] at occurs
    exact ⟨inside, occurs⟩

/-- `memcmp_plus` needs only the first bytes of its two arrays and finds the leftmost
position of a nonempty pattern, and nothing in every other case. -/
theorem memcmpPlus_leftmost
    {p0 p1 : Bytes} {lt1 lt2 : Nat}
    (textInside : lt1 ≤ p0.length) (wordInside : lt2 ≤ p1.length) :
    ∃ found,
      memcmpPlus (regionOf p0) (regionOf p1) lt1 lt2 = .ok found ∧
      memcmpPlus (regionOf (p0.take lt1)) (regionOf (p1.take lt2)) lt1 lt2 = .ok found ∧
      (∀ i, found = some i ↔
        0 < lt2 ∧ FoundAt p0 p1 lt1 lt2 i ∧ ∀ j, j < i -> ¬FoundAt p0 p1 lt1 lt2 j) ∧
      (found = none ↔ lt2 = 0 ∨ ∀ i, ¬FoundAt p0 p1 lt1 lt2 i) := by
  by_cases positive : lt2 = 0
  · subst positive
    exact ⟨none, memcmpPlus_empty _ _ _, memcmpPlus_empty _ _ _, by simp, by simp⟩
  · have wordLength : (p1.take lt2).length = lt2 := List.length_take_of_le wordInside
    have textLength : (p0.take lt1).length = lt1 := List.length_take_of_le textInside
    have nonempty : p1.take lt2 ≠ [] := List.ne_nil_of_length_pos (by omega)
    refine ⟨firstOccurrence (p1.take lt2) (p0.take lt1),
      memcmpPlus_ok p0 p1 lt1 lt2 positive textInside wordInside, ?_, ?_, ?_⟩
    · rw [memcmpPlus_ok _ _ lt1 lt2 positive (Nat.le_of_eq textLength.symm)
        (Nat.le_of_eq wordLength.symm), List.take_take, List.take_take, Nat.min_self,
        Nat.min_self]
    · intro i
      simp only [foundAt_iff_occursAt positive textInside wordInside,
        firstOccurrence_eq_some_iff nonempty, Nat.pos_of_ne_zero positive, true_and]
    · simp only [foundAt_iff_occursAt positive textInside wordInside,
        firstOccurrence_eq_none_iff nonempty, positive, false_or]

theorem memcmpPlus_leftmost_letters :
    ∃ found,
      memcmpPlus (regionOf [0x62, 0x61, 0x61, 0x00]) (regionOf [0x61, 0x63]) 3 1 =
        .ok found ∧
      (found = none ↔ ∀ i, ¬FoundAt [0x62, 0x61, 0x61, 0x00] [0x61, 0x63] 3 1 i) := by
  obtain ⟨found, returned, -, -, absent⟩ :=
    @memcmpPlus_leftmost [0x62, 0x61, 0x61, 0x00] [0x61, 0x63] 3 1 (by decide) (by decide)
  exact ⟨found, returned, by simpa using absent⟩

end Tools
end UnityLocalization
