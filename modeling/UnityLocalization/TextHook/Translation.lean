import UnityLocalization.TextHook.Pass

/-!
# The accessors compute a translation

`translate` is what the setter does to a string: a function of the table, the
stop byte taken from `end`, and the bytes of the string alone.  The accessors
refine it from every state in which the start-up has stored the table.
-/

namespace UnityLocalization
namespace TextHook

open CMemory Tools Table Utf16 TextReplace

/-- The byte `memccpy` stops at: the low byte of the address `end`. -/
def stopByte (endPointer : UInt32) : UInt8 := endPointer.toUInt8

/-- The text searched: the payload through its first stop byte, or none at all
for a payload of 100 bytes or more. -/
def searchedText (endPointer : UInt32) (string : Il2CppString) : Bytes :=
  if string.size < 100 then cutAfter (stopByte endPointer) string.payload else []

/-- The entry found for a string. -/
def findHit
    (table : MappingTable) (endPointer : UInt32) (string : Il2CppString) :
    Option Hit :=
  searchEntries (searchedText endPointer string) 0 1 table.entries

/-- The substitution made for a string. -/
def translate
    (table : MappingTable) (endPointer : UInt32) (string : Il2CppString) :
    Option Substitution :=
  (findHit table endPointer string).map fun hit =>
    hit.substitution string.header (searchedText endPointer string)

/-- The getter translates neither for a null `arg` nor when the first byte of
the text is zero. -/
def translateGet
    (table : MappingTable) (endPointer : UInt32)
    (arg : UInt32) (string : Il2CppString) : Option Substitution :=
  if arg = 0 ∨ string.payload[0]? = some 0 then none
  else translate table endPointer string

/-- The substitution a file gives for a string, whatever its lines are. -/
def substitutionIn
    (file : Bytes) (endPointer : UInt32) (string : Il2CppString) :
    Option Substitution :=
  (searchEntries (searchedText endPointer string) 0 1 (fileLines file).tail).map
    fun hit => hit.substitution string.header (searchedText endPointer string)

/-- The getter passes on some strings without looking at the file. -/
def GetterSkips (arg : UInt32) (string : Il2CppString) : Prop :=
  string.units = [] ∨ arg = 0 ∨ string.payload[0]? = some 0

instance (arg : UInt32) (string : Il2CppString) : Decidable (GetterSkips arg string) :=
  inferInstanceAs (Decidable (_ ∨ _))

/-- The pointer passed on. -/
def passedOn : Option Substitution -> StringPointer
  | some substitution => .fresh substitution.pReturn
  | none => .caller

/-- The start-up has stored the table and the address `end`; the static buffers
have their sizes and hold anything. -/
structure Ready
    (table : MappingTable) (endPointer : UInt32) (globals : Globals) : Prop where
  buffer : globals.buffer = table.buffer
  fileSize : globals.fileSize = table.file.length
  endPointer : globals.endPointer = endPointer
  headerGet : globals.headerGet.length = headerSize
  middleGet : globals.middleGet.length = middleSize
  headerSet : globals.headerSet.length = headerSize
  middleSet : globals.middleSet.length = middleSize

/-- The same for any file. -/
structure Loaded (file : Bytes) (endPointer : UInt32) (globals : Globals) : Prop where
  buffer : globals.buffer = file ++ calloc 4
  fileSize : globals.fileSize = file.length
  endPointer : globals.endPointer = endPointer
  headerGet : globals.headerGet.length = headerSize
  middleGet : globals.middleGet.length = middleSize
  headerSet : globals.headerSet.length = headerSize
  middleSet : globals.middleSet.length = middleSize

section

variable {file : Bytes} {endPointer : UInt32} {globals : Globals}

/-- The counters play no part. -/
theorem Loaded.countSet
    (loaded : Loaded file endPointer globals) (currentSetIndex : UInt32) :
    Loaded file endPointer { globals with currentSetIndex := currentSetIndex } :=
  { loaded with }

theorem Loaded.countGet
    (loaded : Loaded file endPointer globals) (currentGetIndex : UInt32) :
    Loaded file endPointer { globals with currentGetIndex := currentGetIndex } :=
  { loaded with }

theorem Loaded.read_buffer (loaded : Loaded file endPointer globals) :
    read (regionOf globals.buffer) 0 (globals.fileSize + 4) = .ok (file ++ calloc 4) := by
  rw [loaded.buffer, loaded.fileSize, Table.read_buffer]

end

theorem ready_iff_loaded
    {table : MappingTable} {endPointer : UInt32} {globals : Globals} :
    Ready table endPointer globals ↔ Loaded table.file endPointer globals :=
  ⟨fun ready => { ready with }, fun loaded => { loaded with }⟩

/-- The globals once the start-up has read a file. -/
def afterLoad (file : Bytes) (endPointer : UInt32) : Globals :=
  ⟨file ++ calloc 4, file.length, endPointer, calloc headerSize, calloc middleSize,
    calloc headerSize, calloc middleSize, 0, 0⟩

theorem loaded_afterLoad (file : Bytes) (endPointer : UInt32) :
    Loaded file endPointer (afterLoad file endPointer) :=
  ⟨rfl, rfl, rfl, by simp [afterLoad], by simp [afterLoad], by simp [afterLoad],
    by simp [afterLoad]⟩

/-- The globals once the start-up has read the file. -/
def afterStart (table : MappingTable) (endPointer : UInt32) : Globals :=
  ⟨table.buffer, table.file.length, endPointer, calloc headerSize, calloc middleSize,
    calloc headerSize, calloc middleSize, 0, 0⟩

theorem ready_afterStart (table : MappingTable) (endPointer : UInt32) :
    Ready table endPointer (afterStart table endPointer) :=
  ready_iff_loaded.mpr (loaded_afterLoad table.file endPointer)

/-! ## Walking the table -/

theorem length_loopResult_header
    {header text middle : Bytes} {found : Option Hit}
    (sized : header.length = headerSize) :
    (loopResult header text middle found).header.length = headerSize := by
  cases found with
  | none => exact sized
  | some hit => simp [loopResult, sized, headerSize]

/-- The cleared header buffer. -/
theorem memset_headerBuffer {header : Bytes} (sized : header.length = headerSize) :
    memset header 0 headerSize = .ok (calloc headerSize) := by
  rw [memset_of_le _ _ _ (Nat.le_of_eq sized.symm),
    List.drop_of_length_le (Nat.le_of_eq sized)]
  simp [calloc]

/-- The copied header. -/
theorem memcpy_headerBuffer (target : Nat -> UInt8) :
    memcpy (calloc headerSize) 0 (readable target) 0 headerSize =
      .ok (bytesAt target 0 headerSize) := by
  rw [memcpy_readable _ _ _ _ _ (by simp)]
  simp

/-- The first bytes of the text buffer cleared. -/
theorem memset_middleBuffer {middle : Bytes} (sized : middle.length = middleSize) :
    memset middle 0 splitSize = .ok (List.replicate splitSize 0 ++ middle.drop splitSize) :=
  memset_of_le middle 0 splitSize (by simp [sized, middleSize, splitSize])

/-- Both accessors copy the header and the cut text, and tokenize a copy of the
whole buffer. -/
theorem walkTable_eq
    {convertSize : Nat} {file : Bytes} {endPointer : UInt32}
    {globals : Globals} {target : Nat -> UInt8} {dumped : Option Region}
    {srcLength : Int} {header middle : Bytes}
    (loaded : Loaded file endPointer globals)
    (headerLength : header.length = headerSize)
    (middleLength : middle.length = middleSize) :
    walkTable convertSize globals (readable target) dumped srcLength header middle =
      strtok lineDelimiters (file ++ calloc 4) >>= fun token =>
        entryLoop convertSize dumped srcLength token 0
          (calloc splitSize) (calloc splitSize) (bytesAt target 0 headerSize)
          (cutAfter (stopByte endPointer) (bytesAt target headerSize splitSize) ++
            middle.drop splitSize) := by
  have middleCopied := memccpy_readable (middle.drop splitSize) target headerSize
    (stopByte endPointer) splitSize
  have stop : globals.endPointer.toUInt8 = stopByte endPointer := by
    rw [loaded.endPointer, stopByte]
  simp only [walkTable, memset_headerBuffer headerLength, memcpy_headerBuffer,
    memset_middleBuffer middleLength, stop, middleCopied, loaded.read_buffer, ok_bind]

/-- The text stands at the start of the working buffer. -/
theorem workingCopy_of_take
    {text cut middle : Bytes}
    (cutSize : cut.length = splitSize) (middleLength : middle.length = middleSize)
    (copied : text = cut.take text.length) :
    WorkingCopy text 0 (cut ++ middle.drop splitSize) := by
  have textInside : text.length ≤ cut.length := by
    have lengths := congrArg List.length copied
    rw [List.length_take] at lengths
    omega
  constructor
  · simp [cutSize, middleLength, middleSize, splitSize]
  · rw [foldBelow_zero, List.take_append_of_le_length textInside]
    exact copied.symm

/-- The first line can be split, and every entry tried fits. -/
structure LinesFit (text : Bytes) (lines : List Bytes) : Prop where
  header : ∀ line, lines.head? = some line -> SplitFits line
  entries : EachTried EntryFits text 0 1 lines.tail

theorem linesFit_lines (table : MappingTable) (text : Bytes) :
    LinesFit text table.lines where
  header _ first :=
    (table.line_wellFormed (List.mem_of_mem_head? first)).1.entryFits.toSplitFits
  entries := EachTried.of_forall fun _ entry =>
    (table.line_wellFormed (List.mem_of_mem_tail entry)).1.entryFits

/-- From the token of the first line on, the loop skips that line and searches
the others. -/
theorem entryLoop_lines_ok
    {convertSize : Nat} {lines : List Bytes} {dumped : Option Region}
    {srcLength : Int} {text header middle : Bytes}
    {token : Option (Bytes × Bytes)}
    (room : 200 ≤ convertSize) (dumps : DumpReturns dumped srcLength)
    (headerLength : header.length = headerSize)
    (searched : Searched srcLength text) (copy : WorkingCopy text 0 middle)
    (visits : Visits lineDelimiters token lines)
    (terminated : ∀ line, line ∈ lines -> 0 ∉ line)
    (fits : LinesFit text lines) :
    ∃ middleAfter, middleAfter.length = middleSize ∧
      entryLoop convertSize dumped srcLength token 0 (calloc splitSize) (calloc splitSize)
          header middle =
        .ok (loopResult header text middleAfter (searchEntries text 0 1 lines.tail)) := by
  cases lines with
  | nil =>
      rw [visits.eq_none]
      exact ⟨_, copy.size, by rw [entryLoop]; rfl⟩
  | cons line entries =>
      obtain ⟨cursor, next, rfl, scanned, visitsNext⟩ := visits.exists_next (by decide)
      have lineFits := fits.header line rfl
      rw [entryLoop_some, scanned,
        splitLine_ok lineFits (terminated line List.mem_cons_self) (by simp) (by simp)]
      exact entryLoop_ok dumps room searched visitsNext
        (fun other present => terminated other (List.mem_cons_of_mem _ present))
        fits.entries Nat.one_ne_zero (part_size lineFits.left_fits)
        (part_size (Nat.le_of_lt lineFits.right_short)) headerLength copy

/-- The loop returns only if the lines fit. -/
theorem linesFit_of_entryLoop
    {convertSize : Nat} {lines : List Bytes} {dumped : Option Region}
    {srcLength : Int} {text header middle : Bytes}
    {token : Option (Bytes × Bytes)} {state : LoopState}
    (room : 200 ≤ convertSize) (dumps : DumpReturns dumped srcLength)
    (headerLength : header.length = headerSize)
    (searched : Searched srcLength text) (copy : WorkingCopy text 0 middle)
    (visits : Visits lineDelimiters token lines)
    (terminated : ∀ line, line ∈ lines -> 0 ∉ line)
    (returned : entryLoop convertSize dumped srcLength token 0
      (calloc splitSize) (calloc splitSize) header middle = .ok state) :
    LinesFit text lines := by
  cases lines with
  | nil => exact ⟨by simp, EachTried.of_forall (by simp)⟩
  | cons line entries =>
      obtain ⟨cursor, next, rfl, scanned, visitsNext⟩ := visits.exists_next (by decide)
      have lineTerminated := terminated line List.mem_cons_self
      rw [entryLoop_some, scanned] at returned
      obtain ⟨parts, split, looped⟩ := bind_eq_ok.mp returned
      have lineFits := splitFits_of_splitLine lineTerminated (by simp) (by simp) split
      rw [splitLine_ok lineFits lineTerminated (by simp) (by simp)] at split
      cases split
      constructor
      · intro other first
        cases first
        exact lineFits
      · exact eachTried_of_entryLoop dumps room searched visitsNext
          (fun other present => terminated other (List.mem_cons_of_mem _ present))
          Nat.one_ne_zero (part_size lineFits.left_fits)
          (part_size (Nat.le_of_lt lineFits.right_short)) headerLength copy looped

/-- Walking the table skips its first line and searches the others. -/
theorem walkTable_ok
    {convertSize : Nat} {file : Bytes} {endPointer : UInt32}
    {globals : Globals} {target : Nat -> UInt8} {dumped : Option Region}
    {srcLength : Int} {text header middle : Bytes}
    (room : 200 ≤ convertSize)
    (loaded : Loaded file endPointer globals)
    (dumps : DumpReturns dumped srcLength)
    (headerLength : header.length = headerSize)
    (middleLength : middle.length = middleSize)
    (searched : Searched srcLength text)
    (copied : text = (cutAfter (stopByte endPointer)
      (bytesAt target headerSize splitSize)).take text.length)
    (fits : LinesFit text (fileLines file)) :
    ∃ middleAfter, middleAfter.length = middleSize ∧
      walkTable convertSize globals (readable target) dumped srcLength header middle =
        .ok (loopResult (bytesAt target 0 headerSize) text middleAfter
          (searchEntries text 0 1 (fileLines file).tail)) := by
  have copy := workingCopy_of_take (by simp) middleLength copied
  obtain ⟨token, first, visits⟩ := strtok_buffer file
  rw [walkTable_eq loaded headerLength middleLength, first, ok_bind]
  exact entryLoop_lines_ok room dumps (by simp) searched copy visits
    (fun line => zero_not_mem_fileLines) fits

/-- The walk returns only if the lines fit. -/
theorem linesFit_of_walkTable
    {convertSize : Nat} {file : Bytes} {endPointer : UInt32}
    {globals : Globals} {target : Nat -> UInt8} {dumped : Option Region}
    {srcLength : Int} {text header middle : Bytes} {state : LoopState}
    (room : 200 ≤ convertSize)
    (loaded : Loaded file endPointer globals)
    (dumps : DumpReturns dumped srcLength)
    (headerLength : header.length = headerSize)
    (middleLength : middle.length = middleSize)
    (searched : Searched srcLength text)
    (copied : text = (cutAfter (stopByte endPointer)
      (bytesAt target headerSize splitSize)).take text.length)
    (returned : walkTable convertSize globals (readable target) dumped srcLength
      header middle = .ok state) :
    LinesFit text (fileLines file) := by
  have copy := workingCopy_of_take (by simp) middleLength copied
  obtain ⟨token, first, visits⟩ := strtok_buffer file
  rw [walkTable_eq loaded headerLength middleLength, first, ok_bind] at returned
  exact linesFit_of_entryLoop room dumps (by simp) searched copy visits
    (fun line => zero_not_mem_fileLines) returned

/-! ## The working text of a string -/

/-- The length computed by the accessors decides which text is searched; a
product that overflows is negative. -/
theorem searched_searchedText (endPointer : UInt32) (string : Il2CppString) :
    Searched (wrapInt32 (string.units.length * 2))
      (searchedText endPointer string) := by
  have bound := string.units_lt
  unfold searchedText
  split
  case isTrue short =>
    have unitsShort : 2 * string.units.length < 100 := short
    refine ⟨by simp, by simpa using short, Or.inl ?_⟩
    rw [wrapInt32_of_lt (by omega) (by omega)]
    simp
    omega
  case isFalse long =>
    have unitsLong : ¬2 * string.units.length < 100 := long
    refine ⟨rfl, by simp, Or.inr ⟨rfl, ?_⟩⟩
    rintro ⟨notNegative, short⟩
    have negative := Int.bmod_def ((string.units.length : Int) * 2) 4294967296
    unfold wrapInt32 at notNegative short
    omega

/-- The computed length is at most the size of the text. -/
theorem wrapInt32_double_le (string : Il2CppString) :
    wrapInt32 (string.units.length * 2) ≤ string.size := by
  have bound := string.units_lt
  have value := Int.bmod_def ((string.units.length : Int) * 2) 4294967296
  unfold wrapInt32
  simp only [Il2CppString.size]
  omega

/-- The length computed for a short text is its size. -/
theorem wrapInt32_double_of_short {string : Il2CppString} (short : string.size < 100) :
    wrapInt32 (string.units.length * 2) = string.size := by
  have unitsShort : 2 * string.units.length < 100 := short
  rw [wrapInt32_of_lt (by omega) (by omega)]
  simp only [Il2CppString.size]
  omega

theorem wrapInt32_double_eq_zero_iff (string : Il2CppString) :
    wrapInt32 (string.units.length * 2) = 0 ↔ string.units = [] := by
  have bound := string.units_lt
  rw [← List.length_eq_zero_iff]
  have value := Int.bmod_def ((string.units.length : Int) * 2) 4294967296
  unfold wrapInt32
  omega

/-- The searched text is the beginning of what `memccpy` copies. -/
theorem searchedText_eq_take
    (endPointer : UInt32) (string : Il2CppString) (tail : Nat -> UInt8) :
    searchedText endPointer string = (cutAfter (stopByte endPointer)
      (bytesAt (string.image tail) headerSize splitSize)).take
        (searchedText endPointer string).length := by
  unfold searchedText
  split
  case isTrue short =>
    have payload := string.take_bytesAt_image tail
      (show string.size ≤ splitSize from Nat.le_of_lt short)
    rw [length_cutAfter, string.length_payload, take_cutAfter, payload]
  case isFalse => simp

theorem searchEntries_nil
    (reach lineNumber : Nat) (lines : List Bytes) :
    searchEntries [] reach lineNumber lines = none := by
  induction lines generalizing reach lineNumber with
  | nil => rfl
  | cons line lines inductionHypothesis =>
      have notFound : tryLine [] reach lineNumber line = none := by
        unfold tryLine
        split
        case isTrue usable =>
          have absent : firstOccurrence (foldedKey line) [] = none := by
            simp [firstOccurrence, foldedKey_ne_nil usable.1]
          have noText : foldBelow (max reach (keyLength line + 2)) [] = [] := rfl
          rw [noText, absent]
          rfl
        case isFalse => rfl
      rw [searchEntries, notFound]
      exact inductionHypothesis _ _

/-- Nothing is found in an empty string. -/
theorem substitutionIn_empty
    (file : Bytes) (endPointer : UInt32) {string : Il2CppString}
    (empty : string.units = []) :
    substitutionIn file endPointer string = none := by
  have noText : searchedText endPointer string = [] := by
    simp [searchedText, Il2CppString.payload, empty, cutAfter]
  rw [substitutionIn, noText, searchEntries_nil]
  rfl

theorem translate_empty
    (table : MappingTable) (endPointer : UInt32) {string : Il2CppString}
    (empty : string.units = []) :
    translate table endPointer string = none :=
  substitutionIn_empty table.file endPointer empty

/-- The getter translates the strings it does not skip. -/
theorem translateGet_eq
    (table : MappingTable) (endPointer arg : UInt32) (string : Il2CppString) :
    translateGet table endPointer arg string =
      if GetterSkips arg string then none
      else substitutionIn table.file endPointer string := by
  unfold translateGet
  split
  case isTrue guarded => exact (if_pos (Or.inr guarded)).symm
  case isFalse passes =>
    split
    case isTrue skipped => exact translate_empty _ _ (skipped.resolve_right passes)
    case isFalse => rfl

/-- Walking a file for a string object in memory finds its substitution. -/
theorem walkTable_string
    {convertSize : Nat} {file : Bytes} {endPointer : UInt32}
    {globals : Globals} {dumped : Option Region} {header middle : Bytes}
    (room : 200 ≤ convertSize)
    (loaded : Loaded file endPointer globals)
    (headerLength : header.length = headerSize)
    (middleLength : middle.length = middleSize)
    (string : Il2CppString) (tail : Nat -> UInt8)
    (dumpable : Dumpable dumped string.size)
    (fits : LinesFit (searchedText endPointer string) (fileLines file)) :
    ∃ state : LoopState,
      state.header.length = headerSize ∧ state.middle.length = middleSize ∧
      state.substitution = substitutionIn file endPointer string ∧
      walkTable convertSize globals (readable (string.image tail)) dumped
        (wrapInt32 (string.units.length * 2)) header middle = .ok state := by
  obtain ⟨middleAfter, size, walked⟩ := walkTable_ok room loaded
    (dumpable.dumpReturns (wrapInt32_double_le string)) headerLength middleLength
    (searched_searchedText endPointer string)
    (searchedText_eq_take endPointer string tail) fits
  rw [string.bytesAt_image_header] at walked
  exact ⟨_, length_loopResult_header string.length_header, size, rfl, walked⟩

/-! ## The accessors -/

/-- The setter passes on an empty string, and walks the table for others. -/
theorem newFuncSet_of_liesAt
    (globals : Globals) (arg arg2 arg3 : UInt32)
    {string : Il2CppString} {region : Region} (lies : string.LiesAt region) :
    newFuncSet globals arg (some region) arg2 arg3 =
      let counted := { globals with currentSetIndex := globals.currentSetIndex + 1 }
      if string.units = [] then
        .ok ⟨counted, [⟨arg, .caller, arg2, arg3⟩], none⟩
      else
        walkTable (splitSize * 2) counted region (some region)
            (wrapInt32 (string.units.length * 2))
            globals.headerSet globals.middleSet >>= fun state =>
          .ok ⟨{ counted with headerSet := state.header, middleSet := state.middle },
            [⟨arg, passedOn state.substitution, arg2, arg3⟩], state.substitution⟩ := by
  rw [newFuncSet, deref_some, ok_bind, lies.loadInt32, ok_bind]
  simp only [Option.isNone_some, Bool.false_eq_true, false_or,
    wrapInt32_double_eq_zero_iff]
  split
  case isTrue => rfl
  case isFalse =>
    refine bind_congr fun state => ?_
    cases state.substitution with
    | none => rfl
    | some substitution => rfl

/-- The setter calls the original setter once, with the substitution. -/
theorem newFuncSet_loaded
    {file : Bytes} {endPointer : UInt32} {globals : Globals}
    (loaded : Loaded file endPointer globals)
    (arg arg2 arg3 : UInt32) (string : Il2CppString) (tail : Nat -> UInt8)
    (fits : string.units = [] ∨
      LinesFit (searchedText endPointer string) (fileLines file)) :
    ∃ globalsAfter, Loaded file endPointer globalsAfter ∧
      newFuncSet globals arg (some (readable (string.image tail))) arg2 arg3 =
        .ok ⟨globalsAfter,
          [⟨arg, passedOn (substitutionIn file endPointer string), arg2, arg3⟩],
          substitutionIn file endPointer string⟩ := by
  have counted := loaded.countSet (globals.currentSetIndex + 1)
  rw [newFuncSet_of_liesAt _ _ _ _ (string.liesAt_image tail)]
  dsimp only
  split
  case isTrue empty =>
    rw [substitutionIn_empty file endPointer empty]
    exact ⟨_, counted, rfl⟩
  case isFalse nonempty =>
    obtain ⟨state, sized, middleSized, substituted, walked⟩ := walkTable_string
      (show 200 ≤ splitSize * 2 by decide) counted loaded.headerSet loaded.middleSet
      string tail (dumpable_readable _ _) (fits.resolve_left nonempty)
    rw [← substituted]
    refine ⟨_, ?_, by rw [walked]; rfl⟩
    exact { counted with headerSet := sized, middleSet := middleSized }

/-- The setter returns exactly if it does not walk the table or the lines fit. -/
theorem newFuncSet_returns_iff
    {file : Bytes} {endPointer : UInt32} {globals : Globals}
    (loaded : Loaded file endPointer globals)
    (arg arg2 arg3 : UInt32) (string : Il2CppString) (tail : Nat -> UInt8) :
    (∃ result, newFuncSet globals arg (some (readable (string.image tail))) arg2 arg3 =
        .ok result) ↔
      string.units = [] ∨ LinesFit (searchedText endPointer string) (fileLines file) := by
  constructor
  · rintro ⟨result, returned⟩
    rw [newFuncSet_of_liesAt _ _ _ _ (string.liesAt_image tail)] at returned
    dsimp only at returned
    split at returned
    case isTrue empty => exact Or.inl empty
    case isFalse =>
      obtain ⟨state, walked, -⟩ := bind_eq_ok.mp returned
      have counted := loaded.countSet (globals.currentSetIndex + 1)
      exact Or.inr (linesFit_of_walkTable (show 200 ≤ splitSize * 2 by decide) counted
        ((dumpable_readable _ string.size).dumpReturns (wrapInt32_double_le string))
        loaded.headerSet loaded.middleSet
        (searched_searchedText endPointer string)
        (searchedText_eq_take endPointer string tail) walked)
  · intro fits
    obtain ⟨globalsAfter, -, returned⟩ :=
      newFuncSet_loaded loaded arg arg2 arg3 string tail fits
    exact ⟨_, returned⟩

/-- The setter calls the original setter once, with the translation. -/
theorem newFuncSet_ok
    {table : MappingTable} {endPointer : UInt32} {globals : Globals}
    (ready : Ready table endPointer globals)
    (arg arg2 arg3 : UInt32) (string : Il2CppString) (tail : Nat -> UInt8) :
    ∃ globalsAfter, Ready table endPointer globalsAfter ∧
      newFuncSet globals arg (some (readable (string.image tail))) arg2 arg3 =
        .ok ⟨globalsAfter,
          [⟨arg, passedOn (translate table endPointer string), arg2, arg3⟩],
          translate table endPointer string⟩ := by
  obtain ⟨globalsAfter, loadedAfter, returned⟩ :=
    newFuncSet_loaded (ready_iff_loaded.mp ready) arg arg2 arg3 string tail
      (Or.inr (linesFit_lines table _))
  exact ⟨globalsAfter, ready_iff_loaded.mpr loadedAfter, returned⟩

/-- The getter passes on the strings it skips, and walks the table for others. -/
theorem newFuncGet_of_liesAt
    (globals : Globals) (arg : UInt32) (arg1 : Option Region) (arg2 arg3 : UInt32)
    {string : Il2CppString} {region : Region} (lies : string.LiesAt region) :
    newFuncGet globals (some region) arg arg1 arg2 arg3 =
      let counted := { globals with currentGetIndex := globals.currentGetIndex + 1 }
      let call : OriginalCall := ⟨arg, .caller, arg2, arg3⟩
      if GetterSkips arg string then .ok ⟨counted, [call, call], .caller, none⟩
      else
        walkTable (middleSize * 2) counted region arg1
            (wrapInt32 (string.units.length * 2))
            globals.headerGet globals.middleGet >>= fun state =>
          .ok ⟨{ counted with headerGet := state.header, middleGet := state.middle },
            if state.substitution.isSome then [call] else [call, call],
            passedOn state.substitution, state.substitution⟩ := by
  rw [newFuncGet, deref_some, ok_bind, lies.loadInt32, ok_bind]
  simp only [Option.isNone_some, Bool.false_eq_true, false_or,
    wrapInt32_double_eq_zero_iff]
  split
  case isTrue early =>
    have skipped : GetterSkips arg string := early.imp_right Or.inl
    rw [if_pos skipped]
    rfl
  case isFalse passes =>
    obtain ⟨nonempty, argNonnull⟩ := not_or.mp passes
    obtain ⟨byte, first, loaded⟩ := lies.load_first nonempty
    have skips : GetterSkips arg string ↔ byte = 0 := by
      simp [GetterSkips, nonempty, argNonnull, first]
    rw [loaded, ok_bind]
    simp only [skips]
    split
    case isTrue => rfl
    case isFalse =>
      refine bind_congr fun state => ?_
      cases state.substitution with
      | none => rfl
      | some substitution => rfl

/-- What the getter dumps matters only if it substitutes. -/
theorem newFuncGet_dumped_iff
    (globals : Globals) (arg : UInt32) (arg1 : Option Region) (arg2 arg3 : UInt32)
    (string : Il2CppString) (tail : Nat -> UInt8) {result : GetResult} :
    newFuncGet globals (some (readable (string.image tail))) arg arg1 arg2 arg3 =
        .ok result ↔
      newFuncGet globals (some (readable (string.image tail))) arg none arg2 arg3 =
          .ok result ∧
        (result.substitution.isSome ->
          DumpReturns arg1 (wrapInt32 (string.units.length * 2))) := by
  have lies := string.liesAt_image tail
  rw [newFuncGet_of_liesAt _ _ _ _ _ lies, newFuncGet_of_liesAt _ _ _ _ _ lies]
  dsimp only
  split
  case isTrue =>
    refine ⟨fun returned => ⟨returned, fun substituted => ?_⟩, fun both => both.1⟩
    cases returned
    cases substituted
  case isFalse =>
    simp only [bind_eq_ok, walkTable_dumped_iff arg1]
    constructor
    · rintro ⟨state, ⟨walked, dumps⟩, finished⟩
      cases finished
      exact ⟨⟨state, walked, rfl⟩, dumps⟩
    · rintro ⟨⟨state, walked, finished⟩, dumps⟩
      cases finished
      exact ⟨state, ⟨walked, dumps⟩, rfl⟩

/-- The getter returns the substitution, or calls the original getter twice. -/
theorem newFuncGet_loaded
    {file : Bytes} {endPointer : UInt32} {globals : Globals}
    (loaded : Loaded file endPointer globals)
    (arg : UInt32) (arg1 : Option Region) (arg2 arg3 : UInt32)
    (string : Il2CppString) (tail : Nat -> UInt8)
    (dumpable : Dumpable arg1 string.size)
    (fits : GetterSkips arg string ∨
      LinesFit (searchedText endPointer string) (fileLines file)) :
    let found := if GetterSkips arg string then none
      else substitutionIn file endPointer string
    ∃ globalsAfter, Loaded file endPointer globalsAfter ∧
      newFuncGet globals (some (readable (string.image tail))) arg arg1 arg2 arg3 =
        .ok ⟨globalsAfter,
          if found.isSome then [⟨arg, .caller, arg2, arg3⟩]
          else [⟨arg, .caller, arg2, arg3⟩, ⟨arg, .caller, arg2, arg3⟩],
          passedOn found, found⟩ := by
  have counted := loaded.countGet (globals.currentGetIndex + 1)
  rw [newFuncGet_of_liesAt _ _ _ _ _ (string.liesAt_image tail)]
  dsimp only
  split
  case isTrue => exact ⟨_, counted, rfl⟩
  case isFalse passes =>
    obtain ⟨state, sized, middleSized, substituted, walked⟩ := walkTable_string
      (show 200 ≤ middleSize * 2 by decide) counted loaded.headerGet loaded.middleGet
      string tail dumpable (fits.resolve_left passes)
    rw [← substituted]
    refine ⟨_, ?_, by rw [walked]; rfl⟩
    exact { counted with headerGet := sized, middleGet := middleSized }

/-- The getter returns exactly if it does not walk the table or the lines fit. -/
theorem newFuncGet_returns_iff
    {file : Bytes} {endPointer : UInt32} {globals : Globals}
    (loaded : Loaded file endPointer globals)
    (arg : UInt32) (arg1 : Option Region) (arg2 arg3 : UInt32)
    (string : Il2CppString) (tail : Nat -> UInt8) (dumpable : Dumpable arg1 string.size) :
    (∃ result, newFuncGet globals (some (readable (string.image tail))) arg arg1 arg2 arg3 =
        .ok result) ↔
      GetterSkips arg string ∨
        LinesFit (searchedText endPointer string) (fileLines file) := by
  constructor
  · rintro ⟨result, returned⟩
    rw [newFuncGet_of_liesAt _ _ _ _ _ (string.liesAt_image tail)] at returned
    dsimp only at returned
    split at returned
    case isTrue skipped => exact Or.inl skipped
    case isFalse =>
      obtain ⟨state, walked, -⟩ := bind_eq_ok.mp returned
      have counted := loaded.countGet (globals.currentGetIndex + 1)
      exact Or.inr (linesFit_of_walkTable (show 200 ≤ middleSize * 2 by decide) counted
        (dumpable.dumpReturns (wrapInt32_double_le string))
        loaded.headerGet loaded.middleGet
        (searched_searchedText endPointer string)
        (searchedText_eq_take endPointer string tail) walked)
  · intro fits
    obtain ⟨globalsAfter, -, returned⟩ :=
      newFuncGet_loaded loaded arg arg1 arg2 arg3 string tail dumpable fits
    exact ⟨_, returned⟩

/-- Where lines that do not fit are tried, both accessors fault. -/
theorem accessors_fault
    {file : Bytes} {endPointer : UInt32} {globals : Globals}
    (loaded : Loaded file endPointer globals)
    {arg : UInt32} {string : Il2CppString} (walks : ¬GetterSkips arg string)
    (arg2 arg3 setArg : UInt32) (arg1 : Option Region) (tail : Nat -> UInt8)
    (dumpable : Dumpable arg1 string.size)
    (misfit : ¬LinesFit (searchedText endPointer string) (fileLines file)) :
    (¬∃ result, newFuncSet globals setArg (some (readable (string.image tail))) arg2 arg3 =
      .ok result) ∧
    ¬∃ result, newFuncGet globals (some (readable (string.image tail))) arg arg1 arg2 arg3 =
      .ok result := by
  rw [newFuncSet_returns_iff loaded, newFuncGet_returns_iff loaded _ _ _ _ _ _ dumpable]
  exact ⟨not_or.mpr ⟨(not_or.mp walks).1, misfit⟩, not_or.mpr ⟨walks, misfit⟩⟩

/-- The getter returns the translation, or calls the original getter twice. -/
theorem newFuncGet_ok
    {table : MappingTable} {endPointer : UInt32} {globals : Globals}
    (ready : Ready table endPointer globals)
    (arg : UInt32) (arg1 : Option Region) (arg2 arg3 : UInt32)
    (string : Il2CppString) (tail : Nat -> UInt8) (dumpable : Dumpable arg1 string.size) :
    ∃ globalsAfter, Ready table endPointer globalsAfter ∧
      newFuncGet globals (some (readable (string.image tail))) arg arg1 arg2 arg3 =
        .ok ⟨globalsAfter,
          if (translateGet table endPointer arg string).isSome then
            [⟨arg, .caller, arg2, arg3⟩]
          else [⟨arg, .caller, arg2, arg3⟩, ⟨arg, .caller, arg2, arg3⟩],
          passedOn (translateGet table endPointer arg string),
          translateGet table endPointer arg string⟩ := by
  obtain ⟨globalsAfter, loadedAfter, returned⟩ :=
    newFuncGet_loaded (ready_iff_loaded.mp ready) arg arg1 arg2 arg3 string tail dumpable
      (Or.inr (linesFit_lines table _))
  rw [translateGet_eq]
  exact ⟨globalsAfter, ready_iff_loaded.mpr loadedAfter, returned⟩

end TextHook
end UnityLocalization
