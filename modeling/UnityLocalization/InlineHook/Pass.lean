import UnityLocalization.InlineHook.Accessors
import UnityLocalization.TextHook.Search

/-!
# One pass of the inline-hook accessors over the table

An entry is applied when the working copy, lower-cased up to two bytes behind
the length of the key, starts with the key.  The first entry that matches ends
the loop.
-/

namespace UnityLocalization
namespace InlineHook

open CMemory Tools Table Utf16 TextHook

/-- The object built for an entry. -/
def objectFor (header line : Bytes) : Bytes := header ++ replacement line ++ endBlock

/-- The working copy starts with the key of the entry; `reach` tells how far it
was lower-cased before the entry's turn. -/
def MatchesAt (copy : Bytes) (reach : Nat) (line : Bytes) : Prop :=
  (foldBelow (reachAt reach line) copy).take (keyLength line) = foldedKey line

instance (copy : Bytes) (reach : Nat) (line : Bytes) : Decidable (MatchesAt copy reach line) :=
  inferInstanceAs (Decidable (_ = _))

/-- None of the lines matches when they are tried in order. -/
def NoneMatches (copy : Bytes) (reach : Nat) (lines : List Bytes) : Prop :=
  ∀ before line after, lines = before ++ line :: after ->
    ¬MatchesAt copy (reachAfter reach before) line

theorem noneMatches_nil (copy : Bytes) (reach : Nat) : NoneMatches copy reach [] := by
  intro before line after split
  simp at split

theorem noneMatches_cons_iff
    {copy line : Bytes} {reach : Nat} {lines : List Bytes} :
    NoneMatches copy reach (line :: lines) ↔
      ¬MatchesAt copy reach line ∧ NoneMatches copy (reachAt reach line) lines := by
  constructor
  · intro noneApplies
    refine ⟨noneApplies [] line lines rfl, fun before other after split => ?_⟩
    exact noneApplies (line :: before) other after (by simp [split])
  · rintro ⟨here, later⟩ before other after split
    cases before with
    | nil =>
        obtain ⟨rfl, -⟩ := List.cons.inj split
        exact here
    | cons first before =>
        obtain ⟨rfl, rest⟩ := List.cons.inj split
        exact later before other after rest

/-- A copy starts with an empty key. -/
theorem matchesAt_of_emptyKey
    (copy : Bytes) (reach : Nat) {line : Bytes} (empty : keyLength line = 0) :
    MatchesAt copy reach line := by
  rw [MatchesAt, empty, List.take_zero]
  exact (List.eq_nil_of_length_eq_zero (by rw [length_foldedKey, empty])).symm

/-! ## One turn -/

/-- The copies fill the new block. -/
theorem buildTemp_ok
    {variant : Variant} {line header : Bytes}
    (room : 200 ≤ variant.convertSize)
    (rightShort : (rightPart line).length < splitSize) (terminated : 0 ∉ line)
    (headerLength : header.length = headerSize) :
    buildTemp variant header
        (rightPart line ++ calloc (splitSize - (rightPart line).length)) =
      .ok (objectFor header line) := by
  obtain ⟨p1, converted, roomy, newText⟩ := convertRight_ok room rightShort terminated
  generalize (replacement line).length = le at converted roomy newText
  have copiedHeader := memcpy_fill [] header (headerSize + le + endSize) 0 headerSize
    (by omega) (by omega)
  rw [List.drop_zero, List.take_of_length_le (by omega), List.nil_append, List.nil_append,
    List.length_nil, show headerSize + le + endSize - headerSize = le + endSize by omega]
    at copiedHeader
  have copiedText := memcpy_fill header p1 (le + endSize) 0 le (by omega) (by omega)
  rw [List.drop_zero, headerLength, newText, Nat.add_sub_cancel_left] at copiedText
  have textLength : (header ++ replacement line).length = headerSize + le := by
    rw [← newText, List.length_append, List.length_take, Nat.min_eq_left roomy, headerLength]
  have copiedEnd := memcpy_fill (header ++ replacement line) endBlock endSize 0 endSize
    (by simp [endBlock]) le_rfl
  rw [textLength, Nat.sub_self, List.drop_zero, show endBlock.take endSize = endBlock
    from rfl, show calloc 0 = [] from rfl, List.append_nil] at copiedEnd
  obtain ⟨_, dumpedNew⟩ := hexDump_regionOf p1 le (by omega)
  obtain ⟨_, dumpedTemp⟩ := hexDump_regionOf (header ++ replacement line ++ endBlock)
    (headerSize + le + endSize : Nat) (by
      rw [List.length_append, textLength, show endBlock.length = endSize from rfl])
  simp only [buildTemp, converted, dumpedNew, copiedHeader, copiedText, copiedEnd,
    dumpedTemp, ok_bind, pure_eq_ok]
  rfl

/-- One turn of the loop at an entry. -/
theorem tryEntry_eq
    {variant : Variant} {line header copy : Bytes}
    (lineNumber reach : Nat)
    (room : 200 ≤ variant.convertSize)
    (fits : EntryFits line) (terminated : 0 ∉ line)
    (headerLength : header.length = headerSize) (copyLength : copy.length = middleSize) :
    tryEntry variant lineNumber
        (leftPart line ++ calloc (splitSize - (leftPart line).length))
        (rightPart line ++ calloc (splitSize - (rightPart line).length))
        header (foldBelow reach copy) =
      if MatchesAt copy reach line then
        hexDump (some (regionOf (foldBelow (reachAt reach line) copy)))
            (keyLength line * variant.dumpFactor : Nat) >>= fun _ =>
          .ok ⟨foldBelow (reachAt reach line) copy,
            some ⟨lineNumber, keyLength line, objectFor header line⟩⟩
      else .ok ⟨foldBelow (reachAt reach line) copy, none⟩ := by
  have keyShort := keyLength_lt fits
  have size : copy.length = 200 := copyLength
  obtain ⟨convertStr, converted, convertSize, key⟩ := convertKey_ok fits terminated room
  have folded := tolowerUnicode_ok (c := foldBelow reach copy) (keyLength_even line)
    (by rw [length_foldBelow]; omega)
  rw [foldBelow_foldBelow, ← reachAt] at folded
  have built := buildTemp_ok room fits.right_short terminated headerLength
  have compared : memcmpEqual (regionOf (foldBelow (reachAt reach line) copy)) 0
      (regionOf convertStr) 0 (keyLength line) =
        .ok (decide (MatchesAt copy reach line)) := by
    rw [memcmpEqual_regionOf _ _ _ _ _ (by rw [length_foldBelow]; omega) (by omega),
      List.drop_zero, List.drop_zero, key]
    exact congrArg Except.ok
      (Bool.eq_iff_iff.mpr (beq_iff_eq.trans decide_eq_true_iff.symm))
  simp only [tryEntry, converted, folded, compared, ok_bind, decide_eq_true_eq]
  split
  case isTrue =>
    refine bind_congr fun rows => ?_
    rw [built]
    rfl
  case isFalse => rfl

/-- A turn that returns has converted the key. -/
theorem leftConverts_of_inlineEntry
    {variant : Variant} {line right header middle : Bytes} {currentLines : Nat}
    {state : LoopState}
    (terminated : 0 ∉ line)
    (returned : tryEntry variant currentLines
      (leftPart line ++ calloc (splitSize - (leftPart line).length)) right header middle =
        .ok state) :
    LeftConverts line := by
  rw [tryEntry] at returned
  obtain ⟨converted, keyConverted, -⟩ := bind_eq_ok.mp returned
  exact leftConverts_of_convertKey terminated keyConverted

/-! ## The entry loop -/

/-- One turn of the loop, with the next `strtok` call. -/
theorem entryLoop_some
    (variant : Variant) (p cursor : Bytes) (currentLines : Nat)
    (left right header middle : Bytes) :
    entryLoop variant (some (p, cursor)) currentLines left right header middle =
      splitLine left right p >>= fun parts =>
        entryTurn variant currentLines parts.1 parts.2 header middle >>= fun state =>
          if state.substitution.isSome then .ok state
          else strtok lineDelimiters cursor >>= fun next =>
            entryLoop variant next (currentLines + 1) parts.1 parts.2 header
              state.middle := by
  rw [entryLoop]
  refine bind_congr fun parts => bind_congr fun state => ?_
  congr 1
  split
  case h_1 fault failed => rw [failed, error_bind]
  case h_2 next scanned => rw [scanned, ok_bind]

section Loop

variable {variant : Variant} {header copy : Bytes}
  (room : 200 ≤ variant.convertSize)
  (headerLength : header.length = headerSize) (copyLength : copy.length = middleSize)

include room headerLength copyLength

/-- The turn of the loop at an entry that does not match. -/
theorem entryLoop_cons_of_not_matchesAt
    {token : Option (Bytes × Bytes)} {line : Bytes} {lines : List Bytes}
    (visits : Visits lineDelimiters token (line :: lines))
    (fits : EntryFits line) (terminated : 0 ∉ line)
    {currentLines reach : Nat} (behindHeader : currentLines ≠ 0)
    {left right : Bytes}
    (leftSize : left.length = splitSize) (rightSize : right.length = splitSize)
    (passed : ¬MatchesAt copy reach line) :
    ∃ next, Visits lineDelimiters next lines ∧
      entryLoop variant token currentLines left right header (foldBelow reach copy) =
        entryLoop variant next (currentLines + 1)
          (leftPart line ++ calloc (splitSize - (leftPart line).length))
          (rightPart line ++ calloc (splitSize - (rightPart line).length))
          header (foldBelow (reachAt reach line) copy) := by
  obtain ⟨cursor, next, rfl, scanned, visitsNext⟩ := visits.exists_next (by decide)
  refine ⟨next, visitsNext, ?_⟩
  rw [entryLoop_some, scanned, splitLine_ok fits.toSplitFits terminated leftSize rightSize,
    ok_bind, entryTurn, if_pos behindHeader,
    tryEntry_eq currentLines reach room fits terminated headerLength copyLength,
    if_neg passed]
  rfl

/-- The turn of the loop at an entry that matches. -/
theorem entryLoop_cons_of_matchesAt
    {token : Option (Bytes × Bytes)} {line : Bytes} {lines : List Bytes}
    (visits : Visits lineDelimiters token (line :: lines))
    (fits : EntryFits line) (terminated : 0 ∉ line)
    {currentLines reach : Nat} (behindHeader : currentLines ≠ 0)
    {left right : Bytes}
    (leftSize : left.length = splitSize) (rightSize : right.length = splitSize)
    (hit : MatchesAt copy reach line) :
    entryLoop variant token currentLines left right header (foldBelow reach copy) =
      hexDump (some (regionOf (foldBelow (reachAt reach line) copy)))
          (keyLength line * variant.dumpFactor : Nat) >>= fun _ =>
        .ok ⟨foldBelow (reachAt reach line) copy,
          some ⟨currentLines, keyLength line, objectFor header line⟩⟩ := by
  obtain ⟨cursor, next, rfl, scanned, visitsNext⟩ := visits.exists_next (by decide)
  rw [entryLoop_some, splitLine_ok fits.toSplitFits terminated leftSize rightSize,
    ok_bind, entryTurn, if_pos behindHeader,
    tryEntry_eq currentLines reach room fits terminated headerLength copyLength,
    if_pos hit, bind_assoc]
  rfl

/-- Entries that fit and do not match are only passed. -/
theorem entryLoop_pass
    {before rest : List Bytes} {token : Option (Bytes × Bytes)}
    (visits : Visits lineDelimiters token (before ++ rest))
    (terminated : ∀ line, line ∈ before -> 0 ∉ line)
    (fits : ∀ line, line ∈ before -> EntryFits line)
    {currentLines reach : Nat} (behindHeader : currentLines ≠ 0)
    {left right : Bytes}
    (leftSize : left.length = splitSize) (rightSize : right.length = splitSize)
    (passed : NoneMatches copy reach before) :
    ∃ next leftAfter rightAfter, Visits lineDelimiters next rest ∧
      leftAfter.length = splitSize ∧ rightAfter.length = splitSize ∧
      entryLoop variant token currentLines left right header (foldBelow reach copy) =
        entryLoop variant next (currentLines + before.length) leftAfter rightAfter header
          (foldBelow (reachAfter reach before) copy) := by
  induction before generalizing token currentLines reach left right with
  | nil => exact ⟨token, left, right, visits, leftSize, rightSize, rfl⟩
  | cons line before inductionHypothesis =>
      obtain ⟨here, later⟩ := noneMatches_cons_iff.mp passed
      have lineFits := fits line List.mem_cons_self
      obtain ⟨next, visitsNext, turned⟩ := entryLoop_cons_of_not_matchesAt room headerLength
        copyLength visits lineFits (terminated line List.mem_cons_self) behindHeader
        leftSize rightSize here
      obtain ⟨last, leftAfter, rightAfter, visitsLast, leftAfterSize, rightAfterSize,
        looped⟩ := inductionHypothesis visitsNext
          (fun other member => terminated other (List.mem_cons_of_mem _ member))
          (fun other member => fits other (List.mem_cons_of_mem _ member))
          (Nat.succ_ne_zero currentLines) (part_size lineFits.left_fits)
          (part_size (Nat.le_of_lt lineFits.right_short)) later
      refine ⟨last, leftAfter, rightAfter, visitsLast, leftAfterSize, rightAfterSize, ?_⟩
      rw [turned, looped, reachAfter_cons, List.length_cons, Nat.succ_add, Nat.add_succ]

end Loop

/-- The loop returns only if the line it is at fits. -/
theorem entryFits_of_inlineLoop
    {variant : Variant} {token : Option (Bytes × Bytes)} {line : Bytes}
    {lines : List Bytes} (visits : Visits lineDelimiters token (line :: lines))
    (terminated : 0 ∉ line) {currentLines : Nat} (behindHeader : currentLines ≠ 0)
    {left right header middle : Bytes} {state : LoopState}
    (leftSize : left.length = splitSize) (rightSize : right.length = splitSize)
    (returned : entryLoop variant token currentLines left right header middle = .ok state) :
    EntryFits line := by
  obtain ⟨cursor, next, rfl, -, -⟩ := visits.exists_next (by decide)
  rw [entryLoop_some] at returned
  obtain ⟨parts, split, turned⟩ := bind_eq_ok.mp returned
  have splitFits := splitFits_of_splitLine terminated leftSize rightSize split
  rw [splitLine_ok splitFits terminated leftSize rightSize] at split
  cases split
  rw [entryTurn, if_pos behindHeader] at turned
  obtain ⟨turn, tried, -⟩ := bind_eq_ok.mp turned
  exact ⟨splitFits, leftConverts_of_inlineEntry terminated tried⟩

/-- The first of the lines that matches. -/
structure FirstMatch
    (copy : Bytes) (reach : Nat) (lines before : List Bytes) (line : Bytes) : Prop where
  split : ∃ after, lines = before ++ line :: after
  passed : NoneMatches copy reach before
  hit : MatchesAt copy (reachAfter reach before) line

/-- The number of the first line that matches. -/
theorem FirstMatch.getElem?_fileLines
    {copy file line : Bytes} {reach : Nat} {before : List Bytes}
    (first : FirstMatch copy reach (fileLines file).tail before line) :
    (fileLines file)[1 + before.length]? = some line := by
  obtain ⟨after, split⟩ := first.split
  exact Table.getElem?_fileLines split

/-- What a substitution at the end of the loop tells: its entry is the first one
that matches, the entries up to it fit, and so does the dump of its key. -/
structure Applied
    (variant : Variant) (header copy : Bytes) (reach currentLines : Nat)
    (lines before : List Bytes) (line : Bytes) (substitution : Substitution) : Prop
    extends FirstMatch copy reach lines before line where
  passedFit : ∀ other, other ∈ before -> EntryFits other
  fits : EntryFits line
  dumped : keyLength line * variant.dumpFactor ≤ middleSize
  built : substitution =
    ⟨currentLines + before.length, keyLength line, objectFor header line⟩

theorem applied_of_entryLoop
    {variant : Variant} {header copy : Bytes}
    (room : 200 ≤ variant.convertSize)
    (headerLength : header.length = headerSize) (copyLength : copy.length = middleSize)
    {lines : List Bytes} {token : Option (Bytes × Bytes)}
    (visits : Visits lineDelimiters token lines)
    (terminated : ∀ line, line ∈ lines -> 0 ∉ line)
    {currentLines reach : Nat} (behindHeader : currentLines ≠ 0)
    {left right : Bytes} {state : LoopState} {substitution : Substitution}
    (leftSize : left.length = splitSize) (rightSize : right.length = splitSize)
    (returned : entryLoop variant token currentLines left right header
      (foldBelow reach copy) = .ok state)
    (substituted : state.substitution = some substitution) :
    ∃ before line,
      Applied variant header copy reach currentLines lines before line substitution := by
  induction lines generalizing token currentLines reach left right with
  | nil =>
      rw [visits.eq_none, entryLoop] at returned
      cases returned
      cases substituted
  | cons line lines inductionHypothesis =>
      have lineTerminated := terminated line List.mem_cons_self
      have fits := entryFits_of_inlineLoop visits lineTerminated behindHeader leftSize
        rightSize returned
      by_cases hit : MatchesAt copy reach line
      · rw [entryLoop_cons_of_matchesAt room headerLength copyLength visits fits
          lineTerminated behindHeader leftSize rightSize hit] at returned
        obtain ⟨rows, dumpedRows, returned⟩ := bind_eq_ok.mp returned
        cases returned
        cases substituted
        have dumped := (hexDump_regionOf_iff _ _).mp ⟨rows, dumpedRows⟩
        rw [length_foldBelow, copyLength] at dumped
        exact ⟨[], line, ⟨⟨lines, rfl⟩, noneMatches_nil _ _, hit⟩, by simp, fits,
          by omega, rfl⟩
      · obtain ⟨next, visitsNext, turned⟩ := entryLoop_cons_of_not_matchesAt room
          headerLength copyLength visits fits lineTerminated behindHeader leftSize
          rightSize hit
        rw [turned] at returned
        obtain ⟨before, found, applied⟩ := inductionHypothesis visitsNext
          (fun other member => terminated other (List.mem_cons_of_mem _ member))
          (Nat.succ_ne_zero currentLines) (part_size fits.left_fits)
          (part_size (Nat.le_of_lt fits.right_short)) returned
        obtain ⟨after, split⟩ := applied.split
        refine ⟨line :: before, found, ⟨⟨after, by rw [split]; rfl⟩,
          noneMatches_cons_iff.mpr ⟨hit, applied.passed⟩, applied.hit⟩, ?_, applied.fits,
          applied.dumped, ?_⟩
        · exact List.forall_mem_cons.mpr ⟨fits, applied.passedFit⟩
        · rw [applied.built, List.length_cons, Nat.succ_add, Nat.add_succ]

/-! ## Walking the table -/

/-- The text buffer once the source has been copied: its text through the first
stop byte, zeros up to `SplitSize`, and what the buffer held behind. -/
def workingCopy
    (endPointer : UInt32) (string : Il2CppString) (tail : Nat -> UInt8) (middle : Bytes) :
    Bytes :=
  cutAfter (stopByte endPointer) (bytesAt (string.image tail) headerSize splitSize) ++
    middle.drop splitSize

theorem length_workingCopy
    (endPointer : UInt32) (string : Il2CppString) (tail : Nat -> UInt8) {middle : Bytes}
    (sized : middle.length = middleSize) :
    (workingCopy endPointer string tail middle).length = middleSize := by
  simp [workingCopy, sized, middleSize, splitSize]

section Walk

variable {variant : Variant} {file : Bytes} {endPointer : UInt32} {globals : Globals}
  {header middle : Bytes}
  (loaded : Loaded file endPointer globals)
  (headerLength : header.length = headerSize) (middleLength : middle.length = middleSize)
  (string : Il2CppString) (tail : Nat -> UInt8)

include loaded headerLength middleLength

theorem inline_walkTable_eq :
    walkTable variant globals (readable (string.image tail)) header middle =
      strtok lineDelimiters (file ++ calloc 4) >>= fun token =>
        entryLoop variant token 0 (calloc splitSize) (calloc splitSize) string.header
            (workingCopy endPointer string tail middle) >>= fun state =>
          .ok (string.header, state) := by
  have middleCopied := memccpy_readable (middle.drop splitSize) (string.image tail)
    headerSize (stopByte endPointer) splitSize
  have stop : globals.endPointer.toUInt8 = stopByte endPointer := by
    rw [loaded.endPointer, stopByte]
  simp only [walkTable, memset_headerBuffer headerLength, memcpy_headerBuffer,
    memset_middleBuffer middleLength, stop, middleCopied, loaded.read_buffer, ok_bind,
    string.bytesAt_image_header]
  rfl

/-- The walk comes to the entries behind those that fit and do not match. -/
theorem walkTable_pass
    (room : 200 ≤ variant.convertSize)
    {before rest : List Bytes}
    (first : ∀ line, (fileLines file).head? = some line -> SplitFits line)
    (split : (fileLines file).tail = before ++ rest)
    (fits : ∀ line, line ∈ before -> EntryFits line)
    (passed : NoneMatches (workingCopy endPointer string tail middle) 0 before) :
    ∃ next left right, Visits lineDelimiters next rest ∧
      left.length = splitSize ∧ right.length = splitSize ∧
      walkTable variant globals (readable (string.image tail)) header middle =
        entryLoop variant next (1 + before.length) left right string.header
            (foldBelow (reachAfter 0 before) (workingCopy endPointer string tail middle))
              >>= fun state => .ok (string.header, state) := by
  have terminated (line : Bytes) (member : line ∈ fileLines file) : 0 ∉ line :=
    zero_not_mem_fileLines member
  obtain ⟨token, scanned, visits⟩ := strtok_buffer file
  rw [inline_walkTable_eq loaded headerLength middleLength, scanned, ok_bind]
  generalize fileLines file = lines at first split terminated visits
  cases lines with
  | nil =>
      obtain ⟨rfl, rfl⟩ := List.append_eq_nil_iff.mp split.symm
      refine ⟨none, calloc splitSize, calloc splitSize, ?_, by simp, by simp, ?_⟩
      · rw [← visits.eq_none]
        exact visits
      · rw [visits.eq_none, entryLoop, entryLoop, reachAfter_nil, foldBelow_zero]
  | cons line entries =>
      have lineFits := first line rfl
      obtain ⟨cursor, later, rfl, scannedLater, visitsLater⟩ :=
        visits.exists_next (by decide)
      obtain rfl : entries = before ++ rest := split
      obtain ⟨next, left, right, visitsNext, leftSize, rightSize, looped⟩ :=
        entryLoop_pass room string.length_header
          (length_workingCopy endPointer string tail middleLength) visitsLater
          (fun other member => terminated other
            (List.mem_cons_of_mem _ (List.mem_append_left _ member)))
          fits Nat.one_ne_zero (part_size lineFits.left_fits)
          (part_size (Nat.le_of_lt lineFits.right_short)) passed
      refine ⟨next, left, right, visitsNext, leftSize, rightSize, ?_⟩
      rw [foldBelow_zero] at looped
      rw [← looped, entryLoop_some, scannedLater, splitLine_ok lineFits
        (terminated line List.mem_cons_self) (by simp) (by simp)]
      rfl

/-- A walk that ends with a substitution has applied an entry. -/
theorem applied_of_walkTable
    (room : 200 ≤ variant.convertSize)
    {result : Bytes × LoopState} {substitution : Substitution}
    (returned : walkTable variant globals (readable (string.image tail)) header middle =
      .ok result)
    (substituted : result.2.substitution = some substitution) :
    (∀ line, (fileLines file).head? = some line -> SplitFits line) ∧
      ∃ before line, Applied variant string.header
        (workingCopy endPointer string tail middle) 0 1
        (fileLines file).tail before line substitution := by
  have terminated (line : Bytes) (member : line ∈ fileLines file) : 0 ∉ line :=
    zero_not_mem_fileLines member
  obtain ⟨token, scanned, visits⟩ := strtok_buffer file
  rw [inline_walkTable_eq loaded headerLength middleLength, scanned, ok_bind] at returned
  obtain ⟨state, looped, finished⟩ := bind_eq_ok.mp returned
  cases finished
  generalize fileLines file = lines at terminated visits
  cases lines with
  | nil =>
      rw [visits.eq_none, entryLoop] at looped
      cases looped
      cases substituted
  | cons line entries =>
      obtain ⟨cursor, later, rfl, scannedLater, visitsLater⟩ :=
        visits.exists_next (by decide)
      have lineTerminated := terminated line List.mem_cons_self
      rw [entryLoop_some, scannedLater] at looped
      obtain ⟨parts, split, looped⟩ := bind_eq_ok.mp looped
      have lineFits := splitFits_of_splitLine lineTerminated (by simp) (by simp) split
      rw [splitLine_ok lineFits lineTerminated (by simp) (by simp)] at split
      cases split
      refine ⟨fun other first => by cases first; exact lineFits, ?_⟩
      rw [← foldBelow_zero (workingCopy endPointer string tail middle)] at looped
      exact applied_of_entryLoop room string.length_header
        (length_workingCopy endPointer string tail middleLength) visitsLater
        (fun other member => terminated other (List.mem_cons_of_mem _ member))
        Nat.one_ne_zero (part_size lineFits.left_fits)
        (part_size (Nat.le_of_lt lineFits.right_short)) looped substituted

end Walk

/-- On a well-formed table the walk ends at the first entry that matches, if the
dump of its key stays inside the text buffer. -/
theorem walkTable_applies
    {variant : Variant} {table : MappingTable} {endPointer : UInt32} {globals : Globals}
    {header middle : Bytes}
    (room : 200 ≤ variant.convertSize)
    (loaded : Loaded table.file endPointer globals)
    (headerLength : header.length = headerSize) (middleLength : middle.length = middleSize)
    {string : Il2CppString} {tail : Nat -> UInt8} {before : List Bytes} {line : Bytes}
    (first : FirstMatch (workingCopy endPointer string tail middle) 0
      table.entries before line)
    (short : keyLength line * variant.dumpFactor ≤ middleSize) :
    ∃ state : LoopState,
      state.substitution =
        some ⟨1 + before.length, keyLength line, objectFor string.header line⟩ ∧
      walkTable variant globals (readable (string.image tail)) header middle =
        .ok (string.header, state) := by
  obtain ⟨after, split⟩ := first.split
  have fits (other : Bytes) (member : other ∈ table.entries) : EntryFits other :=
    (table.line_wellFormed (List.mem_of_mem_tail member)).1.entryFits
  have terminated (other : Bytes) (member : other ∈ table.entries) : 0 ∉ other :=
    zero_not_mem_fileLines (List.mem_of_mem_tail member)
  have here : line ∈ table.entries := by simp [split]
  have copyLength := length_workingCopy endPointer string tail middleLength
  obtain ⟨next, left, right, visits, leftSize, rightSize, walked⟩ :=
    walkTable_pass loaded headerLength middleLength string tail room
      (linesFit_lines table []).header split
      (fun other member => fits other (by simp [split, member])) first.passed
  have looped := entryLoop_cons_of_matchesAt room string.length_header copyLength visits
    (fits line here) (terminated line here) (by omega : 1 + before.length ≠ 0)
    leftSize rightSize first.hit
  obtain ⟨rows, dumped⟩ := (hexDump_regionOf_iff
    (foldBelow (reachAt (reachAfter 0 before) line)
      (workingCopy endPointer string tail middle))
    (keyLength line * variant.dumpFactor : Nat)).mpr (by
      rw [length_foldBelow, copyLength]
      exact_mod_cast short)
  rw [looped, dumped] at walked
  exact ⟨_, rfl, walked⟩

end InlineHook
end UnityLocalization
