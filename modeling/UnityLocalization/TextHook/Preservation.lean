import UnityLocalization.TextHook.Search

/-!
# What a substitution keeps of the text

The new text is put together from the working copy, not from the string.  The
text around a match is therefore kept exactly when no byte of it is lost behind
a stop byte and none of its capitals has been lower-cased.
-/

namespace UnityLocalization
namespace TextHook

open CMemory Tools Table Utf16 TextReplace

/-- The text around the match is that of the string. -/
def KeepsSurroundings
    (table : MappingTable) (string : Il2CppString) (substitution : Substitution) :
    Prop :=
  ∀ line, table.lines[substitution.currentLines]? = some line ->
    objectPayload substitution.pReturn =
      string.payload.take substitution.lengthStart ++ encode (rightUnits line) ++
        string.payload.drop (substitution.lengthStart + substitution.lengthLeft)

/-- The working copy still has the byte of the string when entries have been
tried through `reach`. -/
def KeptAt
    (endPointer : UInt32) (string : Il2CppString) (reach offset : Nat) : Prop :=
  ¬Lost (stopByte endPointer) string.payload offset ∧
    ¬(offset < reach ∧ CapitalAt (searchedText endPointer string) offset)

theorem getElem?_foldBelow_eq_payload_iff
    {endPointer : UInt32} {string : Il2CppString}
    (copied : searchedText endPointer string =
      cutAfter (stopByte endPointer) string.payload)
    (reach offset : Nat) :
    (foldBelow reach (searchedText endPointer string))[offset]? =
        string.payload[offset]? ↔
      KeptAt endPointer string reach offset := by
  by_cases folded : offset < reach ∧
      CapitalAt (searchedText endPointer string) offset
  · obtain ⟨byte, stored, folding, -, changed⟩ :=
      getElem?_foldBelow_capital folded.1 folded.2
    obtain ⟨_, storedAgain, capital, -⟩ := folded.2.exists_byte
    rw [stored] at storedAgain
    cases storedAgain
    have notKept : ¬KeptAt endPointer string reach offset := fun kept => kept.2 folded
    rw [folding]
    refine iff_of_false (fun same => ?_) notKept
    -- the copied byte is the string's own, or zero
    rw [copied, getElem?_cutAfter, ← same, Option.map_some, Option.some.injEq] at stored
    split at stored
    · subst stored
      exact absurd capital (by decide)
    · exact changed stored
  · rw [getElem?_foldBelow_of_not folded, copied, getElem?_cutAfter_eq_iff, KeptAt]
    exact ⟨fun kept => ⟨kept, copied ▸ folded⟩, fun kept => kept.1⟩

/-- A substitution keeps the surroundings exactly when the copy has kept every
byte outside the match. -/
theorem substitutionFor_keepsSurroundings_iff
    {table : MappingTable} {endPointer : UInt32} {string : Il2CppString}
    {before after : List Bytes} {line : Bytes} {position : Nat}
    (split : table.entries = before ++ line :: after)
    (hit : FirstHit (searchedText endPointer string) 0 before line position) :
    KeepsSurroundings table string
        (substitutionFor endPointer string before line position) ↔
      ∀ offset, offset < position ∨ position + keyLength line ≤ offset ->
        KeptAt endPointer string (reachAt (reachAfter 0 before) line) offset := by
  obtain ⟨-, copied⟩ := searchedText_of_appliesAt hit.applies
  have sameLength : (foldBelow (reachAt (reachAfter 0 before) line)
      (searchedText endPointer string)).length = string.payload.length := by
    rw [length_foldBelow, copied, length_cutAfter]
  have rebuilt : objectPayload
      (substitutionFor endPointer string before line position).pReturn =
        splice (foldBelow (reachAt (reachAfter 0 before) line)
          (searchedText endPointer string)) position (keyLength line)
          (replacement line) :=
    objectPayload_object string.length_header
  have kept_iff :
      splice (foldBelow (reachAt (reachAfter 0 before) line)
          (searchedText endPointer string)) position (keyLength line)
          (replacement line) =
        splice string.payload position (keyLength line) (replacement line) ↔ _ :=
    splice_eq_splice_iff sameLength
  simp only [getElem?_foldBelow_eq_payload_iff copied] at kept_iff
  rw [← kept_iff, ← rebuilt]
  constructor
  · intro keeps
    exact keeps line (getElem?_lines_of_entries split)
  · intro same other found
    have entry := getElem?_lines_of_entries split
    have sameLine : other = line :=
      Option.some.inj (found.symm.trans entry)
    subst sameLine
    exact same

/-- The call, if it substitutes, hands over an object that keeps the text around
the match. -/
def SetKeepsSurroundings
    (table : MappingTable) (globals : Globals)
    (arg arg2 arg3 : UInt32) (string : Il2CppString) (tail : Nat -> UInt8) : Prop :=
  ∀ result substitution,
    newFuncSet globals arg (some (readable (string.image tail))) arg2 arg3 =
      .ok result ->
    result.substitution = some substitution ->
    result.calls = [⟨arg, .fresh substitution.pReturn, arg2, arg3⟩] ∧
      KeepsSurroundings table string substitution

/-- The first hit, if there is one, leaves no lost byte and no lower-cased
capital outside the match. -/
def HitKeepsSurroundings
    (table : MappingTable) (endPointer : UInt32) (string : Il2CppString) : Prop :=
  ∀ before line after position,
    table.entries = before ++ line :: after ->
    FirstHit (searchedText endPointer string) 0 before line position ->
    ∀ offset, offset < position ∨ position + keyLength line ≤ offset ->
      KeptAt endPointer string (reachAt (reachAfter 0 before) line) offset

/-- The setter keeps the text around a match exactly when the working copy has
kept it. -/
theorem newFuncSet_keepsSurroundings_iff
    {table : MappingTable} {endPointer : UInt32} {globals : Globals}
    (ready : Ready table endPointer globals)
    (arg arg2 arg3 : UInt32) (string : Il2CppString) (tail : Nat -> UInt8) :
    SetKeepsSurroundings table globals arg arg2 arg3 string tail ↔
      HitKeepsSurroundings table endPointer string := by
  obtain ⟨globalsAfter, -, returned⟩ := newFuncSet_ok ready arg arg2 arg3 string tail
  unfold SetKeepsSurroundings
  rw [returned]
  constructor
  · intro keeps before line after position split hit
    have translated := translate_eq_some_iff.mpr
      ⟨before, line, after, position, split, hit, rfl⟩
    have kept := (keeps _ _ rfl translated).2
    exact (substitutionFor_keepsSurroundings_iff split hit).mp kept
  · rintro kept result substitution ⟨⟩ translated
    simp only at translated
    obtain ⟨before, line, after, position, split, hit, rfl⟩ :=
      translate_eq_some_iff.mp translated
    refine ⟨by rw [translated]; rfl, ?_⟩
    exact (substitutionFor_keepsSurroundings_iff split hit).mpr
      (kept before line after position split hit)

/-- The string `Ab`. -/
def capitalString : Il2CppString := .ofUnits [0x41, 0x62] (by decide)

theorem newFuncSet_keepsSurroundings_iff_letters :
    SetKeepsSurroundings MappingTable.letters (afterStart MappingTable.letters 0x10) 1 2 3
        capitalString (fun _ => 0) ↔
      HitKeepsSurroundings MappingTable.letters 0x10 capitalString :=
  newFuncSet_keepsSurroundings_iff (ready_afterStart MappingTable.letters 0x10) 1 2 3
    capitalString fun _ => 0

/-- `Ab` becomes `ac`. -/
theorem newFuncSet_lowers_surroundings :
    ∃ result substitution,
      newFuncSet (afterStart MappingTable.letters 0x10) 1
          (some (readable (capitalString.image fun _ => 0))) 2 3 = .ok result ∧
      result.substitution = some substitution ∧
      ¬KeepsSurroundings MappingTable.letters capitalString substitution := by
  obtain ⟨globalsAfter, -, returned⟩ := newFuncSet_ok
    (ready_afterStart MappingTable.letters 0x10) 1 2 3 capitalString fun _ => 0
  have translated : translate MappingTable.letters 0x10 capitalString =
      some ⟨1, 2, 2, calloc 8 ++ [2, 0, 0, 0, 0x61, 0, 0x63, 0, 0, 0, 0, 0]⟩ := by
    decide +kernel
  refine ⟨_, _, returned, translated, fun keeps => ?_⟩
  have kept := keeps [0x62, 0x7C, 0x63] (by decide +kernel)
  revert kept
  decide +kernel

end TextHook
end UnityLocalization
