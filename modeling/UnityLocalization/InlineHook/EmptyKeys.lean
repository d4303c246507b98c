import UnityLocalization.InlineHook.LengthField

/-!
# Entries with an empty key

The search of `inject_dobby.cpp` leaves the loop at once for an empty key, so that
such an entry is never applied.  The comparison of `inject_inlinehook.cpp` has no
such guard: an empty key equals the start of every text, and its entry is applied
whenever the loop comes to it.
-/

namespace UnityLocalization

open CMemory Tools Table Utf16

namespace Table

/-- The key is empty if the left part is, or starts with a byte that is the lead of no
accepted sequence. -/
theorem keyUnits_eq_nil_iff (line : Bytes) :
    keyUnits line = [] ↔ leftPart line = [] ∨ sequenceAt (leftPart line) = none := by
  rw [keyUnits]
  by_cases empty : leftPart line = []
  · simp [empty, codeUnits_nil]
  · cases decoded : sequenceAt (leftPart line) with
    | none => simp [codeUnits_of_rejected decoded]
    | some sequence =>
        obtain ⟨length, code⟩ := sequence
        simp [codeUnits_of_accepted empty decoded, empty]

theorem keyLength_eq_zero_iff (line : Bytes) :
    TextHook.keyLength line = 0 ↔ keyUnits line = [] := by
  simp [TextHook.keyLength]

end Table

/-- The line with this number has an empty key. -/
def EmptyKeyAt (file : Bytes) (currentLines : Nat) : Prop :=
  ∃ line, (fileLines file)[currentLines]? = some line ∧ keyUnits line = []

namespace TextHook

/-- An entry that is applied has a key. -/
theorem not_emptyKeyAt_of_substitutionIn
    {file : Bytes} {endPointer : UInt32} {string : Il2CppString}
    {substitution : Substitution}
    (found : substitutionIn file endPointer string = some substitution) :
    ¬EmptyKeyAt file substitution.currentLines := by
  rintro ⟨line, atLine, empty⟩
  obtain ⟨hit, searched, rfl⟩ := Option.map_eq_some_iff.mp found
  obtain ⟨before, after, split, first, number, -⟩ := searchEntries_eq_some_iff.mp searched
  have hitLine : (fileLines file)[hit.lineNumber]? = some hit.line := by
    rw [number]
    exact getElem?_fileLines split
  have same : line = hit.line := Option.some.inj (atLine.symm.trans hitLine)
  rw [same] at empty
  exact first.applies.1.1 ((keyLength_eq_zero_iff hit.line).mpr empty)

end TextHook

namespace InlineHook

open TextHook

/-- Neither setter applies an entry with an empty key. -/
structure NeverAppliesEmptyKey
    (file : Bytes) (dobby inline : Globals) (arg arg2 arg3 : UInt32)
    (string : Il2CppString) (tail : Nat -> UInt8) : Prop where
  dobby : ∀ result substitution,
    TextHook.newFuncSet dobby arg (some (readable (string.image tail))) arg2 arg3 =
        .ok result ->
      result.substitution = some substitution ->
      ¬EmptyKeyAt file substitution.currentLines
  inline : ∀ result substitution,
    newFuncSet inline arg (some (readable (string.image tail))) arg2 arg3 = .ok result ->
      result.substitution = some substitution ->
      ¬EmptyKeyAt file substitution.currentLines

/-- The loop comes to an entry with an empty key: it and all lines before it fit the
buffers, and none of the entries before it matches. -/
def ReachesEmptyKey (copy file : Bytes) : Prop :=
  (∀ line, (fileLines file).head? = some line -> SplitFits line) ∧
    ∃ before line after, (fileLines file).tail = before ++ line :: after ∧
      (∀ other, other ∈ before -> EntryFits other) ∧ NoneMatches copy 0 before ∧
      EntryFits line ∧ keyUnits line = []

section

variable {file : Bytes} {endPointer : UInt32} {globals : Globals}
  (loaded : Loaded file endPointer globals)
  (arg arg2 arg3 : UInt32) {string : Il2CppString} {tail : Nat -> UInt8}

include loaded

/-- An entry with an empty key is applied where the loop comes to it. -/
theorem newFuncSet_appliesEmptyKey
    (walks : ¬SetterSkips string tail)
    (reaches : ReachesEmptyKey
      (workingCopy endPointer string tail globals.middleSet) file) :
    ∃ result substitution,
      newFuncSet globals arg (some (readable (string.image tail))) arg2 arg3 =
        .ok result ∧
      result.substitution = some substitution ∧
      EmptyKeyAt file substitution.currentLines := by
  obtain ⟨first, before, line, after, split, fits, passed, lineFits, empty⟩ := reaches
  have counted := loaded.countSet (globals.currentSetIndex + 1)
  have noKey := (keyLength_eq_zero_iff line).mpr empty
  have terminated : 0 ∉ line :=
    zero_not_mem_fileLines (List.mem_of_mem_tail (by rw [split]; simp))
  obtain ⟨next, left, right, visits, leftSize, rightSize, walked⟩ := walkTable_pass counted
    loaded.headerSet loaded.middleSet string tail
    (show 200 ≤ setVariant.convertSize by decide) first split fits passed
  have looped := entryLoop_cons_of_matchesAt
    (show 200 ≤ setVariant.convertSize by decide) string.length_header
    (length_workingCopy endPointer string tail loaded.middleSet) visits lineFits terminated
    (by omega : 1 + before.length ≠ 0) leftSize rightSize
    (matchesAt_of_emptyKey _ (reachAfter 0 before) noKey)
  -- the dump of an empty key reads nothing
  obtain ⟨rows, dumped⟩ := (hexDump_regionOf_iff
    (foldBelow (reachAt (reachAfter 0 before) line)
      (workingCopy endPointer string tail globals.middleSet))
    (keyLength line * setVariant.dumpFactor : Nat)).mpr (by simp [noKey])
  rw [looped, dumped] at walked
  rw [newFuncSet_string]
  dsimp only
  rw [if_neg walks, walked]
  exact ⟨_, _, rfl, rfl, line, getElem?_fileLines split, empty⟩

/-- The loop has come to the entry that is applied. -/
theorem reachesEmptyKey_of_newFuncSet
    {arg arg2 arg3 : UInt32} {result : SetResult} {substitution : Substitution}
    (returned : newFuncSet globals arg (some (readable (string.image tail))) arg2 arg3 =
      .ok result)
    (substituted : result.substitution = some substitution)
    (emptyKey : EmptyKeyAt file substitution.currentLines) :
    ¬SetterSkips string tail ∧
      ReachesEmptyKey (workingCopy endPointer string tail globals.middleSet) file := by
  obtain ⟨-, walks, first, before, line, applied⟩ :=
    applied_of_newFuncSet loaded returned substituted
  obtain ⟨after, split⟩ := applied.split
  obtain ⟨other, atLine, empty⟩ := emptyKey
  rw [applied.built, applied.getElem?_fileLines] at atLine
  have same : other = line := (Option.some.inj atLine).symm
  rw [same] at empty
  exact ⟨walks, first, before, line, after, split, applied.passedFit, applied.passed,
    applied.fits, empty⟩

end

/-- Neither build applies an empty key exactly if the inline-hook setter passes the
string on, or its loop comes to no entry with an empty key. -/
theorem neverAppliesEmptyKey_iff
    {file : Bytes} {dobbyEnd inlineEnd : UInt32} {dobby inline : Globals}
    (dobbyLoaded : Loaded file dobbyEnd dobby) (inlineLoaded : Loaded file inlineEnd inline)
    (arg arg2 arg3 : UInt32) (string : Il2CppString) (tail : Nat -> UInt8) :
    NeverAppliesEmptyKey file dobby inline arg arg2 arg3 string tail ↔
      SetterSkips string tail ∨
        ¬ReachesEmptyKey (workingCopy inlineEnd string tail inline.middleSet) file := by
  constructor
  · intro never
    by_cases skips : SetterSkips string tail
    · exact .inl skips
    · refine .inr fun reaches => ?_
      obtain ⟨result, substitution, returned, substituted, emptyKey⟩ :=
        newFuncSet_appliesEmptyKey inlineLoaded arg arg2 arg3 skips reaches
      exact never.inline _ _ returned substituted emptyKey
  · intro condition
    constructor
    · intro result substitution returned substituted
      have fits := (newFuncSet_returns_iff dobbyLoaded arg arg2 arg3 string tail).mp
        ⟨result, returned⟩
      obtain ⟨after, -, again⟩ :=
        newFuncSet_loaded dobbyLoaded arg arg2 arg3 string tail fits
      rw [returned] at again
      cases again
      exact not_emptyKeyAt_of_substitutionIn substituted
    · intro result substitution returned substituted emptyKey
      obtain ⟨walks, reaches⟩ :=
        reachesEmptyKey_of_newFuncSet inlineLoaded returned substituted emptyKey
      exact condition.elim walks fun none => none reaches

/-- The file `0|0`, `|c`. -/
def emptyKeyFile : Bytes := renderLines [[0x30, 0x7C, 0x30], [0x7C, 0x63]]

theorem neverAppliesEmptyKey_iff_emptyKeyFile :
    NeverAppliesEmptyKey emptyKeyFile (afterLoad emptyKeyFile 0x10)
        (afterLoad emptyKeyFile 0x20) 1 2 3 longerString (fun _ => 0) ↔
      SetterSkips longerString (fun _ => 0) ∨
        ¬ReachesEmptyKey
          (workingCopy 0x20 longerString (fun _ => 0) (calloc middleSize)) emptyKeyFile :=
  neverAppliesEmptyKey_iff (loaded_afterLoad emptyKeyFile 0x10)
    (loaded_afterLoad emptyKeyFile 0x20) 1 2 3 longerString fun _ => 0

/-- The entry `|c` is applied to the string `bc`. -/
theorem appliesEmptyKey_emptyKeyFile :
    ¬NeverAppliesEmptyKey emptyKeyFile (afterLoad emptyKeyFile 0x10)
        (afterLoad emptyKeyFile 0x20) 1 2 3 longerString (fun _ => 0) := by
  have lines : fileLines emptyKeyFile = [[0x30, 0x7C, 0x30], [0x7C, 0x63]] := by
    decide +kernel
  have reaches : ReachesEmptyKey
      (workingCopy 0x20 longerString (fun _ => 0) (calloc middleSize)) emptyKeyFile := by
    refine ⟨?_, [], [0x7C, 0x63], [], by rw [lines]; rfl, by simp, noneMatches_nil _ _,
      ?_, by decide +kernel⟩
    · intro line first
      rw [lines] at first
      cases first
      exact ⟨by decide, by decide, by decide⟩
    · exact ⟨⟨by decide, by decide, by decide⟩, .inl (by decide)⟩
  intro never
  obtain ⟨result, substitution, returned, substituted, emptyKey⟩ :=
    newFuncSet_appliesEmptyKey (loaded_afterLoad emptyKeyFile 0x20) 1 2 3
      (by decide : ¬SetterSkips longerString fun _ => 0) reaches
  exact never.inline _ _ returned substituted emptyKey

end InlineHook
end UnityLocalization
