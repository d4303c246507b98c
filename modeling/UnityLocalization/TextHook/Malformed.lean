import UnityLocalization.Install.FirstLine
import UnityLocalization.TextHook.Search

/-!
# Lines without a separator

Neither parser tests the result of `strstr`, so a line without a separator makes
`strlen` follow a null pointer.  The address line is met by the start-up; an
entry is met by every search that tries it.  Where no such line is met, the
accessors do what they do with the table without these lines.
-/

namespace UnityLocalization
namespace TextHook

open CMemory Tools Table Install

/-- Every line of the file is shorter than the buffers of the address line. -/
def ShortLines (file : Bytes) : Prop :=
  ∀ line, line ∈ fileLines file -> line.length < addressSize

/-- The lines with a separator. -/
def separatedLines (file : Bytes) : List Bytes :=
  (fileLines file).filter fun line => separator ∈ line

/-- A short line with a separator is well formed, and an address line. -/
theorem wellFormedLine_of_short
    {line : Bytes} (separated : separator ∈ line) (short : line.length < addressSize) :
    WellFormedLine line ∧ AddressLine line := by
  have length := length_parts separated
  have bound : line.length < 50 := short
  constructor
  · exact ⟨separated, show _ < 100 by omega, show _ < 100 by omega⟩
  · exact ⟨separated, show _ < 50 by omega, show _ < 50 by omega⟩

theorem writable_separatedLines {file : Bytes} (short : ShortLines file) :
    ∀ line, line ∈ separatedLines file -> Writable line := by
  intro line kept
  obtain ⟨present, separated⟩ := List.mem_filter.mp kept
  exact ⟨(wellFormedLine_of_short (by simpa using separated) (short line present)).1,
    lineByte_of_mem_fileLines present⟩

/-- The table without the malformed lines. -/
def separatedTable (file : Bytes) (short : ShortLines file) : MappingTable :=
  .ofLines (separatedLines file) (writable_separatedLines short)

/-- The line can be split. -/
def Separated (line : Bytes) : Prop := separator ∈ line

/-- Short lines fit exactly if they are separated. -/
theorem linesFit_iff_separated
    {text file : Bytes} (short : ShortLines file) :
    LinesFit text (fileLines file) ↔
      TriedLines Separated Separated text (fileLines file) := by
  rw [linesFit_iff_triedLines]
  have wellFormed (line : Bytes) (present : line ∈ fileLines file)
      (separated : Separated line) : EntryFits line :=
    (wellFormedLine_of_short separated (short line present)).1.entryFits
  apply triedLines_congr
  · intro line present
    exact ⟨fun fits => fits.separated,
      fun separated => (wellFormed line present separated).toSplitFits⟩
  · intro line present
    exact ⟨fun fits => fits.separated, wellFormed line present⟩

/-- Lines that are not tried can be left out. -/
theorem searchEntries_filter
    {property : Bytes -> Prop} [DecidablePred property]
    {text : Bytes} {reach lineNumber : Nat} {lines : List Bytes}
    (tried : EachTried property text reach lineNumber lines) :
    searchEntries text reach lineNumber (lines.filter fun line => property line) =
      searchEntries text reach lineNumber lines := by
  induction lines generalizing reach lineNumber with
  | nil => rfl
  | cons line lines inductionHypothesis =>
      obtain ⟨here, later⟩ := eachTried_cons_iff.mp tried
      rw [List.filter_cons_of_pos (by simpa using here), searchEntries, searchEntries]
      cases passed : tryLine text reach lineNumber line with
      | some hit => rfl
      | none => exact inductionHypothesis (later passed)

/-- Where no line without a separator is split, such lines play no part. -/
theorem translate_separatedTable
    {file : Bytes} (short : ShortLines file) {endPointer : UInt32}
    {string : Il2CppString}
    (separated : TriedLines Separated Separated (searchedText endPointer string)
      (fileLines file)) :
    translate (separatedTable file short) endPointer string =
      substitutionIn file endPointer string := by
  have entries : (separatedTable file short).entries =
      (fileLines file).tail.filter fun line => separator ∈ line := by
    rw [MappingTable.entries, separatedTable, MappingTable.lines_ofLines, separatedLines]
    cases lines : fileLines file with
    | nil => rfl
    | cons line others =>
        have here := separated.header line (by rw [lines]; rfl)
        rw [List.filter_cons_of_pos (by simpa [Separated] using here)]
        rfl
  have tried : EachTried (fun line => separator ∈ line)
      (searchedText endPointer string) 0 1 (fileLines file).tail :=
    fun before line after split passed =>
      separated.entries before line after split (searchEntries_eq_none_iff.mp passed)
  rw [translate, findHit, entries, searchEntries_filter tried]
  rfl

/-! ## Harmless lines -/

/-- Two calls of the setter hand over the same. -/
def SetResult.SameEffect (first second : SetResult) : Prop :=
  first.calls = second.calls ∧ first.substitution = second.substitution

/-- Two calls of the getter hand over the same. -/
def GetResult.SameEffect (first second : GetResult) : Prop :=
  first.calls = second.calls ∧ first.returned = second.returned ∧
    first.substitution = second.substitution

/-- Both computations return, with related results. -/
def BothReturn (related : α -> α -> Prop) (first second : Checked α) : Prop :=
  ∃ result other, first = .ok result ∧ second = .ok other ∧ related result other

/-- The setter does what it does with the malformed lines left out, unless it
splits one of them. -/
theorem setter_sameEffect_iff
    {file : Bytes} {endPointer : UInt32} {globals cleaned : Globals}
    (short : ShortLines file)
    (loaded : Loaded file endPointer globals)
    (ready : Ready (separatedTable file short) endPointer cleaned)
    (arg arg2 arg3 : UInt32) (string : Il2CppString) (tail : Nat -> UInt8) :
    BothReturn SetResult.SameEffect
        (newFuncSet globals arg (some (readable (string.image tail))) arg2 arg3)
        (newFuncSet cleaned arg (some (readable (string.image tail))) arg2 arg3) ↔
      string.units = [] ∨
        TriedLines Separated Separated (searchedText endPointer string)
          (fileLines file) := by
  rw [← linesFit_iff_separated short]
  constructor
  · rintro ⟨result, other, returned, -⟩
    exact (newFuncSet_returns_iff loaded arg arg2 arg3 string tail).mp ⟨result, returned⟩
  · intro fits
    obtain ⟨globalsAfter, -, returned⟩ :=
      newFuncSet_loaded loaded arg arg2 arg3 string tail fits
    obtain ⟨cleanedAfter, -, cleanReturned⟩ :=
      newFuncSet_ok ready arg arg2 arg3 string tail
    have same : substitutionIn file endPointer string =
        translate (separatedTable file short) endPointer string := by
      rcases fits with empty | fits
      · rw [substitutionIn_empty file endPointer empty,
          translate_empty _ endPointer empty]
      · exact (translate_separatedTable short
          ((linesFit_iff_separated short).mp fits)).symm
    rw [same] at returned
    exact ⟨_, _, returned, cleanReturned, rfl, rfl⟩

/-- The getter does what it does with the malformed lines left out, unless it
splits one of them; what it dumps can be dumped. -/
theorem getter_sameEffect_iff
    {file : Bytes} {endPointer : UInt32} {globals cleaned : Globals}
    (short : ShortLines file)
    (loaded : Loaded file endPointer globals)
    (ready : Ready (separatedTable file short) endPointer cleaned)
    (arg : UInt32) (arg1 : Option Region) (arg2 arg3 : UInt32)
    (string : Il2CppString) (tail : Nat -> UInt8) (dumpable : Dumpable arg1 string.size) :
    BothReturn GetResult.SameEffect
        (newFuncGet globals (some (readable (string.image tail))) arg arg1 arg2 arg3)
        (newFuncGet cleaned (some (readable (string.image tail))) arg arg1 arg2 arg3) ↔
      GetterSkips arg string ∨
        TriedLines Separated Separated (searchedText endPointer string)
          (fileLines file) := by
  rw [← linesFit_iff_separated short]
  constructor
  · rintro ⟨result, other, returned, -⟩
    exact (newFuncGet_returns_iff loaded arg arg1 arg2 arg3 string tail dumpable).mp
      ⟨result, returned⟩
  · intro fits
    obtain ⟨globalsAfter, -, returned⟩ :=
      newFuncGet_loaded loaded arg arg1 arg2 arg3 string tail dumpable fits
    obtain ⟨cleanedAfter, -, cleanReturned⟩ :=
      newFuncGet_ok ready arg arg1 arg2 arg3 string tail dumpable
    have same : (if GetterSkips arg string then none
          else substitutionIn file endPointer string) =
        translateGet (separatedTable file short) endPointer arg string := by
      rw [translateGet_eq]
      split
      case isTrue => rfl
      case isFalse passes =>
        exact (translate_separatedTable short ((linesFit_iff_separated short).mp
          (fits.resolve_left passes))).symm
    rw [same] at returned
    exact ⟨_, _, returned, cleanReturned, rfl, rfl, rfl⟩

/-- The start-up reads the address line exactly if it has a separator. -/
theorem initAddressFromFile_returns_iff
    {file : Bytes} (short : ShortLines file) (addresses : Addresses) :
    (∃ result, initAddressFromFile (file ++ calloc 4) file.length addresses =
        .ok result) ↔
      ∀ line, (fileLines file).head? = some line -> Separated line := by
  constructor
  · rintro ⟨result, returned⟩ line first
    by_contra unseparated
    rw [initAddressFromFile_unseparated first unseparated] at returned
    cases returned
  · intro separated
    cases first : (fileLines file).head? with
    | none =>
        refine ⟨addresses, ?_⟩
        rw [initAddressFromFile_eq, first]
        rfl
    | some line =>
        have fits := (wellFormedLine_of_short (separated line first)
          (short line (List.mem_of_mem_head? first))).2
        obtain ⟨addressGet, addressSet, -, -, returned⟩ :=
          initAddressFromFile_ok first fits addresses
        exact ⟨_, returned⟩

/-- A file with malformed lines is harmless exactly where none of them is split:
neither the first line at the start-up, nor a line tried by an accessor. -/
theorem harmless_iff
    {file : Bytes} {endPointer : UInt32} {globals cleaned : Globals}
    (short : ShortLines file)
    (loaded : Loaded file endPointer globals)
    (ready : Ready (separatedTable file short) endPointer cleaned)
    (addresses : Addresses)
    (arg : UInt32) (arg1 : Option Region) (arg2 arg3 : UInt32)
    (string : Il2CppString) (tail : Nat -> UInt8) (dumpable : Dumpable arg1 string.size) :
    ((∃ result, initAddressFromFile globals.buffer globals.fileSize addresses =
        .ok result) ↔
      ∀ line, (fileLines file).head? = some line -> Separated line) ∧
    (BothReturn SetResult.SameEffect
        (newFuncSet globals arg (some (readable (string.image tail))) arg2 arg3)
        (newFuncSet cleaned arg (some (readable (string.image tail))) arg2 arg3) ↔
      string.units = [] ∨
        TriedLines Separated Separated (searchedText endPointer string)
          (fileLines file)) ∧
    (BothReturn GetResult.SameEffect
        (newFuncGet globals (some (readable (string.image tail))) arg arg1 arg2 arg3)
        (newFuncGet cleaned (some (readable (string.image tail))) arg arg1 arg2 arg3) ↔
      GetterSkips arg string ∨
        TriedLines Separated Separated (searchedText endPointer string)
          (fileLines file)) := by
  rw [loaded.buffer, loaded.fileSize]
  exact ⟨initAddressFromFile_returns_iff short addresses,
    setter_sameEffect_iff short loaded ready arg arg2 arg3 string tail,
    getter_sameEffect_iff short loaded ready arg arg1 arg2 arg3 string tail dumpable⟩

/-- The file `0|0`, `a`. -/
def unseparatedEntry : Bytes := renderLines [[0x30, 0x7C, 0x30], [0x61]]

theorem fileLines_unseparatedEntry :
    fileLines unseparatedEntry = [[0x30, 0x7C, 0x30], [0x61]] := by
  decide +kernel

theorem shortLines_unseparatedEntry : ShortLines unseparatedEntry := by
  intro line present
  rw [fileLines_unseparatedEntry] at present
  rcases List.mem_pair.mp present with rfl | rfl <;> decide

theorem harmless_iff_unseparatedEntry :
    ((∃ result, initAddressFromFile (afterLoad unseparatedEntry 0x10).buffer
        (afterLoad unseparatedEntry 0x10).fileSize ⟨0, 0⟩ = .ok result) ↔
      ∀ line, (fileLines unseparatedEntry).head? = some line -> Separated line) ∧
    (BothReturn SetResult.SameEffect
        (newFuncSet (afterLoad unseparatedEntry 0x10) 1
          (some (readable (Il2CppString.lateCapital.image fun _ => 0))) 2 3)
        (newFuncSet
          (afterStart (separatedTable unseparatedEntry shortLines_unseparatedEntry) 0x10)
          1 (some (readable (Il2CppString.lateCapital.image fun _ => 0))) 2 3) ↔
      Il2CppString.lateCapital.units = [] ∨
        TriedLines Separated Separated (searchedText 0x10 .lateCapital)
          (fileLines unseparatedEntry)) ∧
    (BothReturn GetResult.SameEffect
        (newFuncGet (afterLoad unseparatedEntry 0x10)
          (some (readable (Il2CppString.lateCapital.image fun _ => 0))) 1 none 2 3)
        (newFuncGet
          (afterStart (separatedTable unseparatedEntry shortLines_unseparatedEntry) 0x10)
          (some (readable (Il2CppString.lateCapital.image fun _ => 0))) 1 none 2 3) ↔
      GetterSkips 1 .lateCapital ∨
        TriedLines Separated Separated (searchedText 0x10 .lateCapital)
          (fileLines unseparatedEntry)) :=
  harmless_iff shortLines_unseparatedEntry (loaded_afterLoad unseparatedEntry 0x10)
    (ready_afterStart _ 0x10) ⟨0, 0⟩ 1 none 2 3 .lateCapital (fun _ => 0)
    (dumpable_none _)

/-- An entry without a separator faults in both accessors, and an address line
without one at the start-up. -/
theorem unseparated_line_faults :
    ShortLines unseparatedEntry ∧ ShortLines [0x61] ∧
      initAddressFromFile ([0x61] ++ calloc 4) 1 ⟨0, 0⟩ = .error .nullDereference ∧
      (¬∃ result, newFuncSet (afterLoad unseparatedEntry 0x10) 1
        (some (readable (Il2CppString.lateCapital.image fun _ => 0))) 2 3 = .ok result) ∧
      ¬∃ result, newFuncGet (afterLoad unseparatedEntry 0x10)
        (some (readable (Il2CppString.lateCapital.image fun _ => 0))) 1 none 2 3 =
          .ok result := by
  have loaded := loaded_afterLoad unseparatedEntry 0x10
  have split : ¬LinesFit (searchedText 0x10 .lateCapital) (fileLines unseparatedEntry) := by
    rw [fileLines_unseparatedEntry]
    intro fits
    exact absurd (fits.entries [] [0x61] [] rfl rfl).separated (by decide)
  have loneLine : fileLines [0x61] = [[0x61]] := by decide +kernel
  refine ⟨shortLines_unseparatedEntry, ?_, ?_,
    accessors_fault loaded (by decide) 2 3 1 none _ (dumpable_none _) split⟩
  · intro line present
    rw [loneLine, List.mem_singleton] at present
    rw [present]
    decide
  · have first : (fileLines [0x61]).head? = some [0x61] := by
      rw [loneLine]
      rfl
    exact initAddressFromFile_unseparated first (by decide) ⟨0, 0⟩

end TextHook
end UnityLocalization
