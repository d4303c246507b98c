import UnityLocalization.TextHook.Search

/-!
# Matches and occurrences

Keys are compared byte by byte with the cut and partly lower-cased copy.  A
match is an occurrence of the key in the string, up to ASCII case, only at a
unit boundary and away from lost bytes; an occurrence is matched only where the
copy has been lower-cased.
-/

namespace UnityLocalization
namespace TextHook

open CMemory Tools Table Utf16 TextReplace

/-- A byte of the window is lost behind the stop byte. -/
def LosesIn
    (endPointer : UInt32) (string : Il2CppString) (position length : Nat) : Prop :=
  ∃ offset, position ≤ offset ∧ offset < position + length ∧
    Lost (stopByte endPointer) string.payload offset

/-- The window is a whole number of units whose bytes the copy still has. -/
def Genuine
    (endPointer : UInt32) (string : Il2CppString) (position length : Nat) : Prop :=
  position % 2 = 0 ∧ ¬LosesIn endPointer string position length

/-- Every capital of the window lies below `reach`. -/
def CapitalsBelow
    (string : Il2CppString) (reach position length : Nat) : Prop :=
  ∀ offset, position ≤ offset -> offset < position + length ->
    CapitalAt string.payload offset -> offset < reach

/-- In a genuine window the folded copy has the bytes of the folded string. -/
theorem getElem?_foldBelow_of_genuine
    {endPointer : UInt32} {string : Il2CppString} {position length : Nat}
    (short : string.size < 100)
    (genuine : Genuine endPointer string position length) (even : length % 2 = 0)
    (reach : Nat) {offset : Nat}
    (behind : position ≤ offset) (inside : offset < position + length) :
    (foldBelow reach (searchedText endPointer string))[offset]? =
      (foldBelow reach string.payload)[offset]? := by
  obtain ⟨aligned, kept⟩ := genuine
  have copied : searchedText endPointer string =
      cutAfter (stopByte endPointer) string.payload := if_pos short
  have keptAt : ∀ other, position ≤ other -> other < position + length ->
      (searchedText endPointer string)[other]? = string.payload[other]? := by
    intro other behind inside
    rw [copied, getElem?_cutAfter_eq_iff]
    exact fun lost => kept ⟨other, behind, inside, lost⟩
  apply getElem?_foldBelow_congr reach (keptAt offset behind inside)
  intro evenOffset
  exact keptAt (offset + 1) (by omega) (by omega)

/-- In a genuine window an entry is found exactly where its key occurs up to
case and all capitals have been lower-cased. -/
theorem appliesAt_genuine_iff
    {endPointer : UInt32} {string : Il2CppString} {line : Bytes}
    {reach position : Nat}
    (short : string.size < 100)
    (genuine : Genuine endPointer string position (keyLength line)) :
    AppliesAt (searchedText endPointer string) reach line position ↔
      Usable line ∧ OccursUpToCase (keyUnits line) string.units (position / 2) ∧
        CapitalsBelow string (reachAt reach line) position (keyLength line) := by
  have sameWindow : ∀ index, index < (foldedKey line).length ->
      (foldBelow (reachAt reach line)
        (searchedText endPointer string))[position + index]? =
      (foldBelow (reachAt reach line) string.payload)[position + index]? := by
    intro index inside
    rw [length_foldedKey] at inside
    exact getElem?_foldBelow_of_genuine short genuine (keyLength_even line) _
      (by omega) (by omega)
  have occurs_iff : OccursAt (foldedKey line)
        (foldBelow (reachAt reach line) (searchedText endPointer string)) position ↔
      OccursAt (foldedKey line)
        (foldBelow (reachAt reach line) string.payload) position :=
    ⟨fun occurs => occurs.congr sameWindow,
      fun occurs => occurs.congr fun index inside => (sameWindow index inside).symm⟩
  obtain ⟨unitPosition, rfl⟩ : ∃ unitPosition, position = 2 * unitPosition :=
    ⟨position / 2, by have aligned := genuine.1; omega⟩
  have halved : 2 * unitPosition / 2 = unitPosition := by omega
  rw [AppliesAt, occurs_iff, foldedKey, Il2CppString.payload,
    occursAt_foldBelow_encode_iff, halved]
  refine and_congr_right fun _ => and_congr_right fun _ => ?_
  constructor
  · intro folded offset behind inside capital
    obtain ⟨index, rfl⟩ : ∃ index, offset = 2 * index :=
      ⟨offset / 2, by have aligned := capital.1; omega⟩
    rw [keyLength] at inside
    exact folded index (by omega) (by omega) capital
  · intro below index behind inside capital
    refine below (2 * index) (by omega) ?_ capital
    rw [keyLength]
    omega

/-- A match that is an occurrence up to case is genuine: a lost byte reads as
zero, and folding makes no zero bytes. -/
theorem genuine_of_occursUpToCase
    {endPointer : UInt32} {string : Il2CppString} {line : Bytes}
    {reach position : Nat}
    (applies : AppliesAt (searchedText endPointer string) reach line position)
    (even : position % 2 = 0)
    (occurs : OccursUpToCase (keyUnits line) string.units (position / 2)) :
    Genuine endPointer string position (keyLength line) := by
  refine ⟨even, ?_⟩
  rintro ⟨offset, behind, inside, lost⟩
  obtain ⟨-, copied⟩ := searchedText_of_appliesAt applies
  obtain ⟨index, rfl⟩ := Nat.exists_eq_add_of_le behind
  have within : index < (foldedKey line).length := by
    rw [length_foldedKey]
    omega
  have matched := applies.2.getElem?_eq within
  have bounded := applies.inside
  -- the copy holds zero there, so the key does
  have insideText : position + index < (searchedText endPointer string).length := by omega
  have zero : (searchedText endPointer string)[position + index]? = some 0 := by
    rw [copied, length_cutAfter] at insideText
    rw [copied, getElem?_cutAfter, List.getElem?_eq_getElem insideText]
    simp [lost.1]
  rw [(getElem?_foldBelow_eq_zero_iff _ _ _).mpr zero] at matched
  -- the string, lower-cased, has the key at the same place
  have occursBytes : OccursAt (foldedKey line)
      (foldBelow (2 * string.units.length) string.payload) position := by
    rw [Il2CppString.payload, foldBelow_encode_all _ le_rfl, foldedKey]
    have aligned : position = 2 * (position / 2) := by omega
    rw [aligned, occursAt_encode_iff]
    exact occurs
  have byte := occursBytes.getElem?_eq within
  rw [← matched, getElem?_foldBelow_eq_zero_iff] at byte
  apply lost.2
  rw [List.getD_eq_getElem?_getD, byte]
  rfl

/-! ## Soundness of matches -/

/-- The match stands at a unit boundary of the string, and the units there are
those of the key up to ASCII case. -/
def MatchesText
    (table : MappingTable) (string : Il2CppString) (substitution : Substitution) :
    Prop :=
  ∀ line, table.lines[substitution.currentLines]? = some line ->
    substitution.lengthStart % 2 = 0 ∧
      OccursUpToCase (keyUnits line) string.units (substitution.lengthStart / 2)

/-- Whichever accessor is called with the string, a substitution it makes
matches the text. -/
def AccessorsMatchText
    (table : MappingTable) (globals : Globals)
    (arg : UInt32) (arg1 : Option Region) (arg2 arg3 : UInt32)
    (string : Il2CppString) (tail : Nat -> UInt8) : Prop :=
  (∀ result substitution,
    newFuncSet globals arg (some (readable (string.image tail))) arg2 arg3 =
      .ok result ->
    result.substitution = some substitution ->
    MatchesText table string substitution) ∧
  ∀ result substitution,
    newFuncGet globals (some (readable (string.image tail))) arg arg1 arg2 arg3 =
      .ok result ->
    result.substitution = some substitution ->
    MatchesText table string substitution

/-- The first hit, if there is one, stands at an even position and has no lost
byte in its window. -/
def HitGenuine
    (table : MappingTable) (endPointer : UInt32) (string : Il2CppString) : Prop :=
  ∀ before line after position,
    table.entries = before ++ line :: after ->
    FirstHit (searchedText endPointer string) 0 before line position ->
    Genuine endPointer string position (keyLength line)

theorem substitutionFor_matchesText_iff
    {table : MappingTable} {endPointer : UInt32} {string : Il2CppString}
    {before after : List Bytes} {line : Bytes} {position : Nat}
    (split : table.entries = before ++ line :: after)
    (hit : FirstHit (searchedText endPointer string) 0 before line position) :
    MatchesText table string (substitutionFor endPointer string before line position) ↔
      Genuine endPointer string position (keyLength line) := by
  have entry := getElem?_lines_of_entries split
  constructor
  · intro isMatch
    obtain ⟨even, occurs⟩ := isMatch line entry
    exact genuine_of_occursUpToCase hit.applies even occurs
  · intro genuine other found
    have sameLine : other = line := Option.some.inj (found.symm.trans entry)
    subst sameLine
    obtain ⟨short, -⟩ := searchedText_of_appliesAt hit.applies
    exact ⟨genuine.1, ((appliesAt_genuine_iff short genuine).mp hit.applies).2.1⟩

/-- The accessors substitute only for occurrences of the key exactly when the
first hit is genuine. -/
theorem accessors_matchText_iff
    {table : MappingTable} {endPointer : UInt32} {globals : Globals}
    (ready : Ready table endPointer globals)
    (arg : UInt32) (arg1 : Option Region) (arg2 arg3 : UInt32)
    (string : Il2CppString) (tail : Nat -> UInt8) :
    AccessorsMatchText table globals arg arg1 arg2 arg3 string tail ↔
      HitGenuine table endPointer string := by
  obtain ⟨afterSet, -, returnedSet⟩ := newFuncSet_ok ready arg arg2 arg3 string tail
  obtain ⟨afterGet, -, returnedGet⟩ :=
    newFuncGet_ok ready arg none arg2 arg3 string tail (dumpable_none _)
  unfold AccessorsMatchText
  simp only [newFuncGet_dumped_iff _ _ arg1]
  rw [returnedSet, returnedGet]
  have matches_iff : (∀ substitution,
        translate table endPointer string = some substitution ->
        MatchesText table string substitution) ↔
      HitGenuine table endPointer string := by
    constructor
    · intro isMatch before line after position split hit
      have translated := translate_eq_some_iff.mpr
        ⟨before, line, after, position, split, hit, rfl⟩
      exact (substitutionFor_matchesText_iff split hit).mp (isMatch _ translated)
    · intro genuine substitution translated
      obtain ⟨before, line, after, position, split, hit, rfl⟩ :=
        translate_eq_some_iff.mp translated
      exact (substitutionFor_matchesText_iff split hit).mpr
        (genuine before line after position split hit)
  rw [← matches_iff]
  constructor
  · intro both substitution translated
    exact both.1 _ _ rfl translated
  · intro isMatch
    constructor
    · rintro result substitution ⟨⟩ translated
      exact isMatch substitution translated
    · rintro result substitution ⟨⟨⟩, -⟩ translated
      exact isMatch substitution (translate_of_translateGet translated)

/-- The table `0|0`, `愀|c`; the key is stored as the bytes `00 61`. -/
def wideTable : MappingTable :=
  .ofLines [[0x30, 0x7C, 0x30], [0xE6, 0x84, 0x80, 0x7C, 0x63]] (by decide)

/-- The string `ba`, stored as `62 00 61 00`. -/
def straddledString : Il2CppString := .ofUnits [0x62, 0x61] (by decide)

theorem accessors_matchText_iff_wideTable :
    AccessorsMatchText wideTable (afterStart wideTable 0x10) 1 none 2 3
        straddledString (fun _ => 0) ↔
      HitGenuine wideTable 0x10 straddledString :=
  accessors_matchText_iff (ready_afterStart wideTable 0x10) 1 none 2 3
    straddledString fun _ => 0

/-- The key is found between the two letters. -/
theorem newFuncSet_matches_between_units :
    ∃ result substitution,
      newFuncSet (afterStart wideTable 0x10) 1
          (some (readable (straddledString.image fun _ => 0))) 2 3 = .ok result ∧
      result.substitution = some substitution ∧
      ¬MatchesText wideTable straddledString substitution := by
  obtain ⟨globalsAfter, -, returned⟩ := newFuncSet_ok
    (ready_afterStart wideTable 0x10) 1 2 3 straddledString fun _ => 0
  have translated : translate wideTable 0x10 straddledString =
      some ⟨1, 1, 2, calloc 8 ++ [2, 0, 0, 0, 0x62, 0x63, 0, 0, 0, 0, 0, 0]⟩ := by
    decide +kernel
  refine ⟨_, _, returned, translated, fun isMatch => ?_⟩
  have aligned := (isMatch [0xE6, 0x84, 0x80, 0x7C, 0x63] (by decide +kernel)).1
  exact absurd aligned (by decide)

/-! ## Completeness of matching -/

/-- Some usable entry occurs in the string up to ASCII case. -/
def KeyOccurs (table : MappingTable) (string : Il2CppString) : Prop :=
  ∃ line, line ∈ table.entries ∧ Usable line ∧
    ∃ position, OccursUpToCase (keyUnits line) string.units position

/-- The setter substitutes if a usable entry occurs. -/
def SetFindsKeys
    (table : MappingTable) (globals : Globals)
    (arg arg2 arg3 : UInt32) (string : Il2CppString) (tail : Nat -> UInt8) : Prop :=
  KeyOccurs table string ->
    ∃ result substitution,
      newFuncSet globals arg (some (readable (string.image tail))) arg2 arg3 =
        .ok result ∧
      result.substitution = some substitution ∧
      result.calls = [⟨arg, .fresh substitution.pReturn, arg2, arg3⟩]

/-- An entry occurs at a place that the copy still has and that is lower-cased
when the entry's turn comes. -/
def KeyReached
    (table : MappingTable) (endPointer : UInt32) (string : Il2CppString) : Prop :=
  ∃ before line after position,
    table.entries = before ++ line :: after ∧ Usable line ∧
      OccursUpToCase (keyUnits line) string.units position ∧
      Genuine endPointer string (2 * position) (keyLength line) ∧
      CapitalsBelow string (reachAt (reachAfter 0 before) line)
        (2 * position) (keyLength line)

/-- An entry is found at a place where it does not occur in the string. -/
def SpuriousMatch
    (table : MappingTable) (endPointer : UInt32) (string : Il2CppString) : Prop :=
  ∃ before line after position,
    table.entries = before ++ line :: after ∧
      AppliesAt (searchedText endPointer string) (reachAfter 0 before) line position ∧
      ¬Genuine endPointer string position (keyLength line)

/-- Entries are found through a reached occurrence or a spurious match. -/
theorem not_noneApplies_iff
    {table : MappingTable} {endPointer : UInt32} {string : Il2CppString}
    (short : string.size < 100) :
    ¬NoneApplies (searchedText endPointer string) 0 table.entries ↔
      KeyReached table endPointer string ∨ SpuriousMatch table endPointer string := by
  constructor
  · intro someApplies
    simp only [NoneApplies, not_forall, not_not] at someApplies
    obtain ⟨before, line, after, split, position, applies⟩ := someApplies
    by_cases genuine : Genuine endPointer string position (keyLength line)
    · obtain ⟨usable, occurs, capitals⟩ :=
        (appliesAt_genuine_iff short genuine).mp applies
      have aligned : 2 * (position / 2) = position := by
        have even := genuine.1
        omega
      left
      exact ⟨before, line, after, position / 2, split, usable, occurs,
        by rwa [aligned], by rwa [aligned]⟩
    · right
      exact ⟨before, line, after, position, split, applies, genuine⟩
  · rintro (⟨before, line, after, position, split, usable, occurs, genuine, capitals⟩ |
      ⟨before, line, after, position, split, applies, -⟩) none
    · have halved : 2 * position / 2 = position := by omega
      exact none before line after split (2 * position)
        ((appliesAt_genuine_iff short genuine).mpr ⟨usable, by rwa [halved], capitals⟩)
    · exact none before line after split position applies

/-- For a short string, the setter finds the keys that occur exactly when none
occurs, one is reached, or some entry is matched spuriously. -/
theorem newFuncSet_findsKeys_iff
    {table : MappingTable} {endPointer : UInt32} {globals : Globals}
    (ready : Ready table endPointer globals)
    (arg arg2 arg3 : UInt32) (string : Il2CppString) (tail : Nat -> UInt8)
    (short : string.units.length < 50) :
    SetFindsKeys table globals arg arg2 arg3 string tail ↔
      ¬KeyOccurs table string ∨ KeyReached table endPointer string ∨
        SpuriousMatch table endPointer string := by
  have size : string.size < 100 := by
    simp only [Il2CppString.size]
    omega
  obtain ⟨globalsAfter, -, returned⟩ := newFuncSet_ok ready arg arg2 arg3 string tail
  rw [← not_noneApplies_iff size, ← translate_eq_none_iff, ← imp_iff_not_or]
  unfold SetFindsKeys
  rw [returned]
  refine imp_congr_right fun _ => ?_
  constructor
  · rintro ⟨result, substitution, ⟨⟩, translated, -⟩ unchanged
    simp [unchanged] at translated
  · intro changed
    obtain ⟨substitution, translated⟩ := Option.ne_none_iff_exists'.mp changed
    exact ⟨_, substitution, rfl, translated, by rw [translated]; rfl⟩

theorem newFuncSet_findsKeys_iff_letters :
    SetFindsKeys MappingTable.letters (afterStart MappingTable.letters 0x10) 1 2 3
        .lateCapital (fun _ => 0) ↔
      ¬KeyOccurs MappingTable.letters .lateCapital ∨
        KeyReached MappingTable.letters 0x10 .lateCapital ∨
        SpuriousMatch MappingTable.letters 0x10 .lateCapital :=
  newFuncSet_findsKeys_iff (ready_afterStart MappingTable.letters 0x10) 1 2 3
    .lateCapital (fun _ => 0) (by decide)

/-- The capital behind the lower-cased prefix hides the key `b`. -/
theorem newFuncSet_misses_capital :
    KeyOccurs MappingTable.letters .lateCapital ∧
      ∃ result,
        newFuncSet (afterStart MappingTable.letters 0x10) 1
            (some (readable (Il2CppString.lateCapital.image fun _ => 0))) 2 3 = .ok result ∧
        result.substitution = none ∧
        result.calls = [⟨1, .caller, 2, 3⟩] := by
  obtain ⟨globalsAfter, -, returned⟩ := newFuncSet_ok
    (ready_afterStart MappingTable.letters 0x10) 1 2 3 .lateCapital fun _ => 0
  have unchanged : translate MappingTable.letters 0x10 .lateCapital = none := by
    decide +kernel
  refine ⟨⟨[0x62, 0x7C, 0x63], by decide +kernel, by decide +kernel, 2, ?_⟩,
    _, returned, unchanged, by rw [unchanged]; rfl⟩
  decide +kernel

end TextHook
end UnityLocalization
