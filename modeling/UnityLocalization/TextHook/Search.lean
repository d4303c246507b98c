import UnityLocalization.TextHook.Translation

/-!
# What the search finds

`AppliesAt` says when an entry is found at a position, `FirstHit` which entry
and position the search returns.  An occurrence in the working copy is read
back as an occurrence in the text of the string, or as a spurious one.
-/

namespace UnityLocalization
namespace TextHook

open CMemory Tools Table Utf16 TextReplace

/-- Only keys that are neither empty nor too long are compared. -/
def Usable (line : Bytes) : Prop := keyLength line ≠ 0 ∧ keyLength line < 100

instance (line : Bytes) : Decidable (Usable line) :=
  inferInstanceAs (Decidable (_ ∧ _))

/-- How far the copy is lower-cased once the given lines have been tried. -/
def reachAfter (reach : Nat) (lines : List Bytes) : Nat :=
  lines.foldl (fun reach line => max reach (keyLength line + 2)) reach

/-- How far the copy is lower-cased when a line is compared. -/
def reachAt (reach : Nat) (line : Bytes) : Nat := max reach (keyLength line + 2)

/-- The entry is found at the position of a copy that was lower-cased below
`reach` before the entry's turn. -/
def AppliesAt (text : Bytes) (reach : Nat) (line : Bytes) (position : Nat) : Prop :=
  Usable line ∧ OccursAt (foldedKey line) (foldBelow (reachAt reach line) text) position

instance (text : Bytes) (reach : Nat) (line : Bytes) (position : Nat) :
    Decidable (AppliesAt text reach line position) :=
  inferInstanceAs (Decidable (_ ∧ _))

/-- None of the lines is found when they are tried in order. -/
def NoneApplies (text : Bytes) (reach : Nat) (lines : List Bytes) : Prop :=
  ∀ before line after, lines = before ++ line :: after ->
    ∀ position, ¬AppliesAt text (reachAfter reach before) line position

/-- The line behind `before` is the first one found, and the position its
leftmost one. -/
structure FirstHit
    (text : Bytes) (reach : Nat) (before : List Bytes)
    (line : Bytes) (position : Nat) : Prop where
  passed : NoneApplies text reach before
  applies : AppliesAt text (reachAfter reach before) line position
  leftmost : ∀ earlier, earlier < position ->
    ¬AppliesAt text (reachAfter reach before) line earlier

@[simp] theorem reachAfter_nil (reach : Nat) : reachAfter reach [] = reach := rfl

@[simp] theorem reachAfter_cons (reach : Nat) (line : Bytes) (lines : List Bytes) :
    reachAfter reach (line :: lines) = reachAfter (reachAt reach line) lines := rfl

/-! ## The search -/

theorem tryLine_eq_none_iff
    {text line : Bytes} {reach lineNumber : Nat} :
    tryLine text reach lineNumber line = none ↔
      ∀ position, ¬AppliesAt text reach line position := by
  unfold tryLine AppliesAt
  split
  case isTrue usable =>
    rw [Option.map_eq_none_iff, firstOccurrence_eq_none_iff (foldedKey_ne_nil usable.1)]
    simp [Usable, usable, reachAt]
  case isFalse unusable =>
    simp only [true_iff]
    exact fun position applies => unusable applies.1

theorem tryLine_eq_some_iff_appliesAt
    {text line : Bytes} {reach lineNumber : Nat} {hit : Hit} :
    tryLine text reach lineNumber line = some hit ↔
      AppliesAt text reach line hit.position ∧
        (∀ earlier, earlier < hit.position -> ¬AppliesAt text reach line earlier) ∧
        hit.line = line ∧ hit.lineNumber = lineNumber ∧
        hit.reach = reachAt reach line := by
  obtain ⟨hitLine, hitNumber, hitPosition, hitReach⟩ := hit
  rw [tryLine_eq_some_iff]
  by_cases usable : Usable line
  · have keyNonempty := foldedKey_ne_nil usable.1
    simp only [firstOccurrence_eq_some_iff keyNonempty, AppliesAt, usable, true_and,
      Hit.mk.injEq, reachAt]
    constructor
    · rintro ⟨-, position, ⟨occurs, leftmost⟩, rfl, rfl, rfl, rfl⟩
      exact ⟨occurs, leftmost, rfl, rfl, rfl⟩
    · rintro ⟨occurs, leftmost, rfl, rfl, rfl⟩
      exact ⟨usable, hitPosition, ⟨occurs, leftmost⟩, rfl, rfl, rfl, rfl⟩
  · constructor
    · exact fun found => absurd found.1 usable
    · exact fun found => absurd found.1.1 usable

theorem noneApplies_nil (text : Bytes) (reach : Nat) : NoneApplies text reach [] := by
  intro before line after split
  simp at split

theorem noneApplies_cons_iff
    {text line : Bytes} {reach : Nat} {lines : List Bytes} :
    NoneApplies text reach (line :: lines) ↔
      (∀ position, ¬AppliesAt text reach line position) ∧
        NoneApplies text (reachAt reach line) lines := by
  constructor
  · intro noneApplies
    refine ⟨noneApplies [] line lines rfl, fun before other after split => ?_⟩
    exact noneApplies (line :: before) other after (by simp [split])
  · rintro ⟨here, later⟩ before other after split
    cases before with
    | nil =>
        obtain ⟨rfl, rfl⟩ := List.cons.inj split
        exact here
    | cons first before =>
        obtain ⟨rfl, rest⟩ := List.cons.inj split
        exact later before other after rest

theorem searchEntries_eq_none_iff
    {text : Bytes} {reach lineNumber : Nat} {lines : List Bytes} :
    searchEntries text reach lineNumber lines = none ↔
      NoneApplies text reach lines := by
  induction lines generalizing reach lineNumber with
  | nil => simp [searchEntries, noneApplies_nil]
  | cons line lines inductionHypothesis =>
      rw [noneApplies_cons_iff, searchEntries]
      cases found : tryLine text reach lineNumber line with
      | some hit =>
          have applies := (tryLine_eq_some_iff_appliesAt.mp found).1
          simp only [reduceCtorEq, false_iff]
          exact fun none => none.1 _ applies
      | none =>
          have absent := tryLine_eq_none_iff.mp found
          simp only [inductionHypothesis, reachAt]
          exact ⟨fun none => ⟨absent, none⟩, fun none => none.2⟩

/-- The search returns the first entry that applies, at its leftmost position. -/
theorem searchEntries_eq_some_iff
    {text : Bytes} {reach lineNumber : Nat} {lines : List Bytes} {hit : Hit} :
    searchEntries text reach lineNumber lines = some hit ↔
      ∃ before after, lines = before ++ hit.line :: after ∧
        FirstHit text reach before hit.line hit.position ∧
        hit.lineNumber = lineNumber + before.length ∧
        hit.reach = reachAt (reachAfter reach before) hit.line := by
  induction lines generalizing reach lineNumber with
  | nil => simp [searchEntries]
  | cons line lines inductionHypothesis =>
      rw [searchEntries]
      cases found : tryLine text reach lineNumber line with
      | some first =>
          obtain ⟨applies, leftmost, rfl, number, reached⟩ :=
            tryLine_eq_some_iff_appliesAt.mp found
          simp only [Option.some.injEq]
          constructor
          · rintro rfl
            exact ⟨[], lines, rfl, ⟨noneApplies_nil _ _, applies, leftmost⟩,
              by simpa using number, reached⟩
          · rintro ⟨before, after, split, hit, laterNumber, laterReach⟩
            cases before with
            | cons other before =>
                obtain ⟨rfl, -⟩ := List.cons.inj split
                exact absurd applies ((noneApplies_cons_iff.mp hit.passed).1 _)
            | nil =>
                obtain ⟨sameLine, -⟩ := List.cons.inj split
                have again := tryLine_eq_some_iff_appliesAt.mpr
                  ⟨hit.applies, hit.leftmost, rfl, laterNumber, laterReach⟩
                simp only [reachAfter_nil, List.length_nil, Nat.add_zero,
                  ← sameLine, found] at again
                exact Option.some.inj again
      | none =>
          have absent := tryLine_eq_none_iff.mp found
          have rest : searchEntries text (max reach (keyLength line + 2))
              (lineNumber + 1) lines = some hit ↔ _ := inductionHypothesis
          simp only [rest]
          constructor
          · rintro ⟨before, after, rfl, hit, number, reached⟩
            refine ⟨line :: before, after, rfl,
              ⟨noneApplies_cons_iff.mpr ⟨absent, hit.passed⟩, hit.applies, hit.leftmost⟩,
              ?_, reached⟩
            rw [number, List.length_cons]
            omega
          · rintro ⟨before, after, split, hit, number, reached⟩
            cases before with
            | nil =>
                obtain ⟨rfl, -⟩ := List.cons.inj split
                exact absurd hit.applies (absent _)
            | cons other before =>
                obtain ⟨rfl, rfl⟩ := List.cons.inj split
                refine ⟨before, after, rfl,
                  ⟨(noneApplies_cons_iff.mp hit.passed).2, hit.applies, hit.leftmost⟩,
                  ?_, reached⟩
                rw [number, List.length_cons]
                omega

/-- Lines that are not found are only passed. -/
theorem searchEntries_append_of_noneApplies
    {text : Bytes} {reach : Nat} {before : List Bytes} (lineNumber : Nat)
    (noneApplies : NoneApplies text reach before) (rest : List Bytes) :
    searchEntries text reach lineNumber (before ++ rest) =
      searchEntries text (reachAfter reach before) (lineNumber + before.length) rest := by
  induction before generalizing reach lineNumber with
  | nil => rfl
  | cons line before inductionHypothesis =>
      obtain ⟨here, later⟩ := noneApplies_cons_iff.mp noneApplies
      have passed : tryLine text reach lineNumber line = .none :=
        tryLine_eq_none_iff.mpr here
      rw [List.cons_append, searchEntries, passed]
      simp only [reachAfter_cons, List.length_cons]
      rw [← reachAt, inductionHypothesis (lineNumber + 1) later]
      congr 1
      omega

/-- A line that is found ends the search. -/
theorem searchEntries_append_of_not_noneApplies
    {text : Bytes} {reach : Nat} {before : List Bytes} (lineNumber : Nat)
    (someApplies : ¬NoneApplies text reach before) (rest : List Bytes) :
    searchEntries text reach lineNumber (before ++ rest) =
      searchEntries text reach lineNumber before := by
  induction before generalizing reach lineNumber with
  | nil => exact absurd (noneApplies_nil _ _) someApplies
  | cons line before inductionHypothesis =>
      rw [List.cons_append, searchEntries, searchEntries]
      cases found : tryLine text reach lineNumber line with
      | some hit => rfl
      | none =>
          refine inductionHypothesis (lineNumber + 1) fun none => someApplies ?_
          exact noneApplies_cons_iff.mpr ⟨tryLine_eq_none_iff.mp found, none⟩

theorem searchEntries_singleton
    (text : Bytes) (reach lineNumber : Nat) (line : Bytes) :
    searchEntries text reach lineNumber [line] = tryLine text reach lineNumber line := by
  simp only [searchEntries]
  cases tryLine text reach lineNumber line <;> rfl

/-! ## The lines split -/

/-- What holds of the first line and of every entry up to the first one that
applies. -/
structure TriedLines
    (header entry : Bytes -> Prop) (text : Bytes) (lines : List Bytes) : Prop where
  header : ∀ line, lines.head? = some line -> header line
  entries : ∀ before line after, lines.tail = before ++ line :: after ->
    NoneApplies text 0 before -> entry line

theorem linesFit_iff_triedLines {text : Bytes} {lines : List Bytes} :
    LinesFit text lines ↔ TriedLines SplitFits EntryFits text lines := by
  constructor
  · intro fits
    refine ⟨fits.header, fun before line after split passed => ?_⟩
    exact fits.entries before line after split (searchEntries_eq_none_iff.mpr passed)
  · intro tried
    refine ⟨tried.header, fun before line after split passed => ?_⟩
    exact tried.entries before line after split (searchEntries_eq_none_iff.mp passed)

/-- Properties that agree on the lines can be exchanged. -/
theorem triedLines_congr
    {header entry otherHeader otherEntry : Bytes -> Prop}
    {text : Bytes} {lines : List Bytes}
    (headers : ∀ line, line ∈ lines -> (header line ↔ otherHeader line))
    (entries : ∀ line, line ∈ lines -> (entry line ↔ otherEntry line)) :
    TriedLines header entry text lines ↔
      TriedLines otherHeader otherEntry text lines := by
  have inTail {before after : List Bytes} {line : Bytes}
      (split : lines.tail = before ++ line :: after) : line ∈ lines :=
    List.mem_of_mem_tail (split ▸ List.mem_append_right before List.mem_cons_self)
  constructor
  · intro tried
    constructor
    · intro line first
      exact (headers line (List.mem_of_mem_head? first)).mp (tried.header line first)
    · intro before line after split passed
      exact (entries line (inTail split)).mp (tried.entries before line after split passed)
  · intro tried
    constructor
    · intro line first
      exact (headers line (List.mem_of_mem_head? first)).mpr (tried.header line first)
    · intro before line after split passed
      exact (entries line (inTail split)).mpr (tried.entries before line after split passed)

/-! ## Translations -/

theorem translate_eq_none_iff
    {table : MappingTable} {endPointer : UInt32} {string : Il2CppString} :
    translate table endPointer string = none ↔
      NoneApplies (searchedText endPointer string) 0 table.entries := by
  rw [translate, Option.map_eq_none_iff, findHit, searchEntries_eq_none_iff]

/-- The substitution for a first hit. -/
def substitutionFor
    (endPointer : UInt32) (string : Il2CppString)
    (before : List Bytes) (line : Bytes) (position : Nat) : Substitution :=
  Hit.substitution
    ⟨line, before.length + 1, position, reachAt (reachAfter 0 before) line⟩
    string.header (searchedText endPointer string)

theorem translate_eq_some_iff
    {table : MappingTable} {endPointer : UInt32} {string : Il2CppString}
    {substitution : Substitution} :
    translate table endPointer string = some substitution ↔
      ∃ before line after position, table.entries = before ++ line :: after ∧
        FirstHit (searchedText endPointer string) 0 before line position ∧
        substitution = substitutionFor endPointer string before line position := by
  rw [translate, Option.map_eq_some_iff, findHit]
  constructor
  · rintro ⟨⟨line, number, position, reach⟩, found, rfl⟩
    obtain ⟨before, after, split, hit, numbered, reached⟩ :=
      searchEntries_eq_some_iff.mp found
    refine ⟨before, line, after, position, split, hit, ?_⟩
    rw [substitutionFor, Nat.add_comm]
    simp only at numbered reached
    rw [numbered, reached]
  · rintro ⟨before, line, after, position, split, hit, rfl⟩
    exact ⟨_, searchEntries_eq_some_iff.mpr
      ⟨before, after, split, hit, Nat.add_comm _ _, rfl⟩, rfl⟩

/-- The number of an entry is its index among all lines. -/
theorem getElem?_lines_of_entries
    {table : MappingTable} {before after : List Bytes} {line : Bytes}
    (split : table.entries = before ++ line :: after) :
    table.lines[before.length + 1]? = some line := by
  rw [Nat.add_comm]
  exact getElem?_fileLines split

/-- The bytes of an object between its header and the four zero bytes at its
end. -/
def objectPayload (object : Bytes) : Bytes :=
  (object.drop headerSize).take (object.length - (headerSize + endSize))

theorem objectPayload_object
    {hit : Hit} {header text : Bytes} (headerLength : header.length = headerSize) :
    objectPayload (hit.object header text) = hit.payload text := by
  have sized : (header.take 8 ++
      int32Bytes ((hit.payload text).length / 2 : Nat)).length = headerSize := by
    simp [headerLength, headerSize]
  have length : (hit.object header text).length - (headerSize + endSize) =
      (hit.payload text).length := by
    rw [Hit.object, List.length_append, List.length_append, sized]
    simp only [endBlock, length_calloc]
    omega
  rw [objectPayload, length, Hit.object, List.append_assoc, ← sized,
    List.drop_left, List.take_left]

/-- A hit stands inside a text of less than 100 bytes. -/
theorem AppliesAt.inside
    {text line : Bytes} {reach position : Nat}
    (applies : AppliesAt text reach line position) :
    position + keyLength line ≤ text.length := by
  have bounded := applies.2.length_le (foldedKey_ne_nil applies.1.1)
  simpa using bounded

/-- Only strings shorter than 100 bytes are searched. -/
theorem searchedText_of_appliesAt
    {endPointer : UInt32} {string : Il2CppString} {line : Bytes} {reach position : Nat}
    (applies : AppliesAt (searchedText endPointer string) reach line position) :
    string.size < 100 ∧
      searchedText endPointer string =
        cutAfter (stopByte endPointer) string.payload := by
  have nonempty := applies.1.1
  have bounded := applies.inside
  unfold searchedText at bounded ⊢
  split at bounded
  case isTrue short => exact ⟨short, if_pos short⟩
  case isFalse long =>
    rw [List.length_nil] at bounded
    omega

/-- Only short texts are translated. -/
theorem size_lt_of_translate
    {table : MappingTable} {endPointer : UInt32} {string : Il2CppString}
    {substitution : Substitution}
    (translated : translate table endPointer string = some substitution) :
    string.size < 100 := by
  obtain ⟨before, line, after, position, split, hit, -⟩ :=
    translate_eq_some_iff.mp translated
  exact (searchedText_of_appliesAt hit.applies).1

/-- The translation of the getter is that of the setter or none. -/
theorem translate_of_translateGet
    {table : MappingTable} {endPointer arg : UInt32} {string : Il2CppString}
    {substitution : Substitution}
    (translated : translateGet table endPointer arg string = some substitution) :
    translate table endPointer string = some substitution := by
  unfold translateGet at translated
  split at translated
  · cases translated
  · exact translated

/-- The string `b`, a key of the table of letters. -/
def keyString : Il2CppString := .ofUnits [0x62] (by decide)

end TextHook
end UnityLocalization
