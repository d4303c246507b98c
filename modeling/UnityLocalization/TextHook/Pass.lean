import UnityLocalization.Il2CppString
import UnityLocalization.TextHook.Dump

/-!
# One pass of the accessors over the table

The pure content of the entry loop.  `searchEntries` follows the loop on the
bytes of the text alone: every entry tried lower-cases the working copy up to
two bytes behind the length of its key, and the first key found in the copy
ends the search.
-/

namespace UnityLocalization
namespace TextHook

open CMemory Tools Table Utf16 TextReplace

/-- The value of `length_left` for a line. -/
def keyLength (line : Bytes) : Nat := 2 * (keyUnits line).length

/-- The lower-cased key as it is compared. -/
def foldedKey (line : Bytes) : Bytes := encode ((keyUnits line).map asciiLower)

/-- The converted right text. -/
def replacement (line : Bytes) : Bytes := encode (rightUnits line)

@[simp] theorem length_foldedKey (line : Bytes) :
    (foldedKey line).length = keyLength line := by
  simp [foldedKey, keyLength]

/-- Where an entry is found: the line with its number, the position, and how
far the working copy is lower-cased at that moment. -/
structure Hit where
  line : Bytes
  lineNumber : Nat
  position : Nat
  reach : Nat
  deriving DecidableEq

/-- Try one entry on a text that is lower-cased below `reach`. -/
def tryLine (text : Bytes) (reach lineNumber : Nat) (line : Bytes) : Option Hit :=
  if keyLength line ≠ 0 ∧ keyLength line < 100 then
    (firstOccurrence (foldedKey line)
      (foldBelow (max reach (keyLength line + 2)) text)).map
        fun position => ⟨line, lineNumber, position, max reach (keyLength line + 2)⟩
  else none

/-- Try the entries in order. -/
def searchEntries (text : Bytes) :
    (reach lineNumber : Nat) -> List Bytes -> Option Hit
  | _, _, [] => none
  | reach, lineNumber, line :: lines =>
      match tryLine text reach lineNumber line with
      | some hit => some hit
      | none =>
          searchEntries text (max reach (keyLength line + 2)) (lineNumber + 1) lines

/-- The new payload: the matched window of the working copy is replaced. -/
def Hit.payload (hit : Hit) (text : Bytes) : Bytes :=
  splice (foldBelow hit.reach text) hit.position (keyLength hit.line)
    (replacement hit.line)

/-- The new object for a hit. -/
def Hit.object (hit : Hit) (header text : Bytes) : Bytes :=
  header.take 8 ++ int32Bytes ((hit.payload text).length / 2 : Nat) ++
    hit.payload text ++ endBlock

def Hit.substitution (hit : Hit) (header text : Bytes) : Substitution :=
  ⟨hit.lineNumber, hit.position, keyLength hit.line, hit.object header text⟩

/-- How the entry loop ends, given what it has found. -/
def loopResult (header text middle : Bytes) (found : Option Hit) : LoopState :=
  ⟨match found with
    | some hit => header.take 8 ++ int32Bytes ((hit.payload text).length / 2 : Nat)
    | none => header,
    middle, found.map fun hit => hit.substitution header text⟩

/-! ## Converting a key -/

theorem keyLength_even (line : Bytes) : keyLength line % 2 = 0 := by
  simp [keyLength]

/-- Keys that are converted at all fit the conversion buffers. -/
theorem keyLength_lt {line : Bytes} (fits : EntryFits line) :
    keyLength line + 2 ≤ 200 := by
  have units := length_codeUnits_le (leftPart line)
  have leftFits : (leftPart line).length ≤ 100 := fits.left_fits
  simp only [keyLength, keyUnits]
  rcases fits.left_converts with short | stops
  · have leftShort : (leftPart line).length < 100 := short
    omega
  · have fewer := stops.length_codeUnits_lt
    omega

theorem length_replacement_lt {line : Bytes}
    (rightShort : (rightPart line).length < splitSize) :
    (replacement line).length + 2 ≤ 200 := by
  have units := length_codeUnits_le (rightPart line)
  have short : (rightPart line).length < 100 := rightShort
  simp only [replacement, rightUnits, length_encode]
  omega

theorem part_size {part : Bytes} (fits : part.length ≤ splitSize) :
    (part ++ calloc (splitSize - part.length)).length = splitSize := by
  rw [List.length_append, length_calloc]
  omega

/-- The converter reads a part buffer up to its terminator, or up to the byte
that stops it. -/
theorem utf8ToUnicode_part
    {part : Bytes} (dst : Bytes) (terminated : 0 ∉ part) (fits : part.length ≤ splitSize)
    (converts : part.length < splitSize ∨ StopsInside part)
    (room : 2 * (codeUnits part).length < dst.length) :
    utf8ToUnicode dst (part ++ calloc (splitSize - part.length)) =
      .ok (encode (codeUnits part) ++ 0 :: dst.drop (2 * (codeUnits part).length + 1),
        2 * (codeUnits part).length) := by
  by_cases short : part.length < splitSize
  · rw [calloc_terminated short, utf8ToUnicode_terminated _ _ _ terminated room]
  · have stops := converts.resolve_left short
    have full : splitSize - part.length = 0 := by omega
    rw [full, show calloc 0 = [] from rfl, List.append_nil, utf8ToUnicode,
      utf8Loop_of_stopsInside stops terminated []]
    exact utf8ToUnicode_terminated dst part [] terminated room

theorem convertKey_ok
    {line : Bytes} {convertSize : Nat}
    (fits : EntryFits line) (terminated : 0 ∉ line)
    (room : 200 ≤ convertSize) :
    ∃ convertStr,
      convertKey convertSize
          (leftPart line ++ calloc (splitSize - (leftPart line).length)) =
        .ok (convertStr, keyLength line) ∧
      convertStr.length = convertSize ∧
      convertStr.take (keyLength line) = foldedKey line := by
  have short := keyLength_lt fits
  have units : keyLength line = 2 * (codeUnits (leftPart line)).length := rfl
  have keySize : (encode (codeUnits (leftPart line))).length = keyLength line := by
    simp [units]
  have converted := utf8ToUnicode_part (calloc convertSize)
    (zero_not_mem_leftPart terminated) fits.left_fits fits.left_converts
    (by simp; omega)
  rw [← units] at converted
  generalize stored : encode (codeUnits (leftPart line)) ++
    0 :: (calloc convertSize).drop (keyLength line + 1) = convertStr at converted
  have storedSize : convertStr.length = convertSize := by
    rw [← stored]
    simp only [List.length_append, keySize, List.length_cons, List.length_drop,
      length_calloc]
    omega
  have folded := tolowerUnicode_ok (keyLength_even line)
    (show keyLength line + 2 ≤ convertStr.length by omega)
  refine ⟨foldBelow (keyLength line + 2) convertStr, ?_, by simpa, ?_⟩
  · rw [convertKey, converted]
    simp [folded]
  · rw [take_foldBelow _ _ (keyLength_even line), ← stored,
      List.take_append_of_le_length (by omega), List.take_of_length_le (by omega)]
    exact foldBelow_encode_all _ (by simp [units])

/-- A key that fills its buffer is converted only if it stops the converter. -/
theorem leftConverts_of_convertKey
    {line : Bytes} {convertSize : Nat} {converted : Bytes × Nat}
    (terminated : 0 ∉ line)
    (returned : convertKey convertSize
      (leftPart line ++ calloc (splitSize - (leftPart line).length)) = .ok converted) :
    LeftConverts line := by
  by_cases short : (leftPart line).length < splitSize
  · exact Or.inl short
  · have full : splitSize - (leftPart line).length = 0 := by omega
    rw [full, show calloc 0 = [] from rfl, List.append_nil, convertKey] at returned
    obtain ⟨result, stored, -⟩ := bind_eq_ok.mp returned
    exact Or.inr (stopsInside_of_utf8Loop (zero_not_mem_leftPart terminated) stored)

/-! ## Rebuilding -/

/-- The buffer `middle` while entries are tried: its first bytes are the text,
lower-cased below `reach`. -/
structure WorkingCopy (text : Bytes) (reach : Nat) (middle : Bytes) : Prop where
  size : middle.length = middleSize
  copied : middle.take text.length = foldBelow reach text

theorem length_payload
    {hit : Hit} {text : Bytes}
    (inside : hit.position + keyLength hit.line ≤ text.length) :
    (hit.payload text).length =
      hit.position + (replacement hit.line).length +
        (text.length - hit.position - keyLength hit.line) := by
  simp only [Hit.payload, splice, List.length_append, List.length_take,
    List.length_drop, length_foldBelow]
  omega

/-- The converted right text in its buffer. -/
theorem convertRight_ok
    {line : Bytes} {convertSize : Nat} (room : 200 ≤ convertSize)
    (rightShort : (rightPart line).length < splitSize) (terminated : 0 ∉ line) :
    ∃ pNewUStr,
      utf8ToUnicode (calloc convertSize)
          (rightPart line ++ calloc (splitSize - (rightPart line).length)) =
        .ok (pNewUStr, (replacement line).length) ∧
      (replacement line).length ≤ pNewUStr.length ∧
      pNewUStr.take (replacement line).length = replacement line := by
  have short := length_replacement_lt rightShort
  have units : (replacement line).length = 2 * (codeUnits (rightPart line)).length := by
    simp [replacement, rightUnits]
  refine ⟨replacement line ++
    0 :: (calloc convertSize).drop ((replacement line).length + 1), ?_, ?_, ?_⟩
  · rw [utf8ToUnicode_part _ (zero_not_mem_rightPart terminated)
      (Nat.le_of_lt rightShort) (Or.inl rightShort)
      (by rw [length_calloc]; omega), ← units]
    rfl
  · simp
  · simp

/-- The five copies fill a zeroed block from its start: the header, the kept
start of the working copy, the new text, the kept rest, and the end block. -/
theorem fillObject_ok
    {built middle pNewUStr : Bytes} {lengthStart lengthRight skipped lengthRest : Nat}
    (builtLength : built.length = headerSize)
    (startInside : lengthStart ≤ middle.length)
    (newInside : lengthRight ≤ pNewUStr.length)
    (restInside : skipped + lengthRest ≤ middle.length) :
    ∃ first second third fourth,
      memcpy (calloc (headerSize + (lengthStart + lengthRight + lengthRest) + endSize)) 0
          (regionOf built) 0 headerSize = .ok first ∧
      memcpy first headerSize (regionOf middle) 0 lengthStart = .ok second ∧
      memcpy second (headerSize + lengthStart) (regionOf pNewUStr) 0 lengthRight =
          .ok third ∧
      memcpy third (headerSize + lengthStart + lengthRight) (regionOf middle)
          skipped lengthRest = .ok fourth ∧
      memcpy fourth (headerSize + lengthStart + lengthRight + lengthRest)
          (regionOf endBlock) 0 endSize =
        .ok (built ++ middle.take lengthStart ++ pNewUStr.take lengthRight ++
          (middle.drop skipped).take lengthRest ++ endBlock) := by
  have copiedHeader := memcpy_fill [] built
    (headerSize + (lengthStart + lengthRight + lengthRest) + endSize) 0 headerSize
    (by omega) (by omega)
  rw [List.drop_zero, List.take_of_length_le (by omega), List.nil_append,
    List.nil_append, List.length_nil,
    show headerSize + (lengthStart + lengthRight + lengthRest) + endSize - headerSize =
      lengthStart + lengthRight + lengthRest + endSize by omega] at copiedHeader
  have copiedStart := memcpy_fill built middle
    (lengthStart + lengthRight + lengthRest + endSize) 0 lengthStart
    (by omega) (by omega)
  rw [List.drop_zero, builtLength,
    show lengthStart + lengthRight + lengthRest + endSize - lengthStart =
      lengthRight + lengthRest + endSize by omega] at copiedStart
  have startLength : (built ++ middle.take lengthStart).length =
      headerSize + lengthStart := by
    rw [List.length_append, List.length_take, Nat.min_eq_left startInside, builtLength]
  generalize built ++ middle.take lengthStart = start at *
  have copiedNew := memcpy_fill start pNewUStr (lengthRight + lengthRest + endSize) 0
    lengthRight (by omega) (by omega)
  rw [List.drop_zero, startLength,
    show lengthRight + lengthRest + endSize - lengthRight = lengthRest + endSize
      by omega] at copiedNew
  have newLength : (start ++ pNewUStr.take lengthRight).length =
      headerSize + lengthStart + lengthRight := by
    rw [List.length_append, List.length_take, Nat.min_eq_left newInside, startLength]
  generalize start ++ pNewUStr.take lengthRight = filled at *
  have copiedRest := memcpy_fill filled middle (lengthRest + endSize) skipped lengthRest
    restInside (by omega)
  rw [newLength, Nat.add_sub_cancel_left] at copiedRest
  have restLength : (filled ++ (middle.drop skipped).take lengthRest).length =
      headerSize + lengthStart + lengthRight + lengthRest := by
    rw [List.length_append, List.length_take, List.length_drop,
      Nat.min_eq_left (by omega), newLength]
  have copiedEnd := memcpy_fill (filled ++ (middle.drop skipped).take lengthRest) endBlock
    endSize 0 endSize (by simp [endBlock]) le_rfl
  rw [restLength, Nat.sub_self, List.drop_zero, show endBlock.take endSize = endBlock
    from rfl, show calloc 0 = [] from rfl, List.append_nil] at copiedEnd
  exact ⟨_, _, _, _, copiedHeader, copiedStart, copiedNew, copiedRest, copiedEnd⟩

/-- The copies behind the header put the window's replacement between the two
kept parts of the working copy. -/
theorem rebuild_ok
    {dumped : Option Region} {text header middle : Bytes} {hit : Hit}
    (dumps : DumpReturns dumped text.length)
    (rightShort : (rightPart hit.line).length < splitSize) (terminated : 0 ∉ hit.line)
    (headerLength : header.length = headerSize)
    (copy : WorkingCopy text hit.reach middle)
    (short : text.length ≤ middleSize)
    (inside : hit.position + keyLength hit.line ≤ text.length) :
    rebuild dumped text.length header middle
        (rightPart hit.line ++ calloc (splitSize - (rightPart hit.line).length))
        hit.position (keyLength hit.line) =
      .ok (header.take 8 ++ int32Bytes ((hit.payload text).length / 2 : Nat),
        hit.object header text) := by
  have newLength := length_payload inside
  obtain ⟨size, copied⟩ := copy
  obtain ⟨pNewUStr, converted, roomy, newText⟩ := convertRight_ok
    (show 200 ≤ middleSize * 2 by decide) rightShort terminated
  generalize payloadText : hit.payload text = payload at *
  generalize sizeText : ((payload.length / 2 : Nat) : Int) = half
  have lengthEnd : (text.length : Int) - hit.position - keyLength hit.line =
      ((text.length - hit.position - keyLength hit.line : Nat) : Int) := by omega
  have endInside : hit.position + keyLength hit.line +
      (text.length - hit.position - keyLength hit.line) = text.length := by omega
  generalize text.length - hit.position - keyLength hit.line = lengthRest at *
  have lengthMiddle : (hit.position : Int) + (replacement hit.line).length +
      (lengthRest : Nat) = (payload.length : Nat) := by omega
  have halved : ((payload.length : Nat) : Int).tdiv 2 = half := by
    rw [← sizeText]
    rfl
  have allocated : callocSize ((headerSize : Int) + (payload.length : Nat) + endSize) =
      .ok (calloc (headerSize + payload.length + endSize)) :=
    if_neg (by omega)
  -- the header buffer gets the new length
  have headerWritten : write header 8 (int32Bytes half) =
      .ok (header.take 8 ++ int32Bytes half) := by
    rw [write_of_le _ _ _ (by simp [headerLength]), List.drop_of_length_le
      (by simp [headerLength])]
    simp
  generalize newHeader : header.take 8 ++ int32Bytes half = built at headerWritten
  have builtLength : built.length = headerSize := by
    rw [← newHeader]
    simp [headerLength, headerSize]
  obtain ⟨_, _, _, _, copiedHeader, copiedStart, copiedNew, copiedRest, copiedEnd⟩ :=
    fillObject_ok builtLength (show hit.position ≤ middle.length by omega) roomy
      (show hit.position + keyLength hit.line + lengthRest ≤ middle.length by omega)
  have assembled : built ++ middle.take hit.position ++ replacement hit.line ++
        (middle.drop (hit.position + keyLength hit.line)).take lengthRest =
      built ++ payload := by
    rw [← payloadText, Hit.payload, splice, ← copied, List.take_take, List.drop_take,
      Nat.min_eq_left (by omega), ← endInside, Nat.add_sub_cancel_left]
    simp
  rw [← newLength] at copiedHeader
  rw [newText, assembled] at copiedEnd
  -- the dumps only read
  obtain ⟨_, dumpedSource⟩ := dumps
  obtain ⟨_, dumpedNew⟩ := hexDump_regionOf pNewUStr
    ((replacement hit.line).length : Nat) (by omega)
  obtain ⟨_, dumpedReturn⟩ := hexDump_regionOf (built ++ payload ++ endBlock)
    ((headerSize : Int) + (payload.length : Nat) + endSize)
    (by simp [builtLength, endBlock]; omega)
  simp only [rebuild, dumpedSource, converted, dumpedNew, lengthEnd, lengthMiddle,
    allocated, halved, headerWritten, copiedHeader, copiedStart, copiedNew,
    Int.toNat_natCast, copiedRest, copiedEnd, dumpedReturn, ok_bind, pure_eq_ok]
  rw [Hit.object, payloadText, sizeText, newHeader]

/-! ## The entry loop -/

/-- The text the loop effectively searches: a payload shorter than 100 bytes, or
none at all when the computed length is out of range. -/
structure Searched (srcLength : Int) (text : Bytes) : Prop where
  even : text.length % 2 = 0
  short : text.length < 100
  length : srcLength = text.length ∨
    text = [] ∧ ¬(0 ≤ srcLength ∧ srcLength < 100)

theorem WorkingCopy.fold
    {text middle : Bytes} {reach limit : Nat}
    (copy : WorkingCopy text reach middle) (even : text.length % 2 = 0) :
    WorkingCopy text (max reach limit) (foldBelow limit middle) where
  size := by simpa using copy.size
  copied := by
    rw [take_foldBelow _ _ even, copy.copied, foldBelow_foldBelow]

/-- A hit is an occurrence of a usable key in the copy of its moment. -/
theorem tryLine_eq_some_iff
    {text line : Bytes} {reach lineNumber : Nat} {hit : Hit} :
    tryLine text reach lineNumber line = some hit ↔
      (keyLength line ≠ 0 ∧ keyLength line < 100) ∧
        ∃ position, firstOccurrence (foldedKey line)
            (foldBelow (max reach (keyLength line + 2)) text) = some position ∧
          hit = ⟨line, lineNumber, position, max reach (keyLength line + 2)⟩ := by
  unfold tryLine
  split
  case isTrue usable =>
    simp only [Option.map_eq_some_iff, eq_comm (b := hit)]
    exact ⟨fun found => ⟨usable, found⟩, fun found => found.2⟩
  case isFalse unusable => simp [unusable]

theorem foldedKey_ne_nil {line : Bytes} (usable : keyLength line ≠ 0) :
    foldedKey line ≠ [] :=
  List.ne_nil_of_length_pos (by rw [length_foldedKey]; omega)

theorem tryLine_inside
    {text line : Bytes} {reach lineNumber : Nat} {hit : Hit}
    (found : tryLine text reach lineNumber line = some hit) :
    hit.position + keyLength hit.line ≤ text.length := by
  obtain ⟨⟨nonempty, -⟩, position, first, rfl⟩ := tryLine_eq_some_iff.mp found
  have keyNonempty := foldedKey_ne_nil nonempty
  obtain ⟨occurs, -⟩ := (firstOccurrence_eq_some_iff keyNonempty).mp first
  simpa using occurs.length_le keyNonempty

/-- The comparison of an entry with the working copy is the search of its
folded key in the text. -/
theorem cpBit_ok
    {srcLength : Int} {text line convertStr middle : Bytes} {reach : Nat}
    (lineNumber : Nat)
    (searched : Searched srcLength text)
    (converted : convertStr.take (keyLength line) = foldedKey line)
    (copy : WorkingCopy text (max reach (keyLength line + 2)) middle) :
    cpBit srcLength middle convertStr (keyLength line) =
      .ok ((tryLine text reach lineNumber line).map Hit.position) := by
  have size : middle.length = 200 := copy.size
  have keyFits : keyLength line ≤ convertStr.length := by
    have lengths := congrArg List.length converted
    rw [List.length_take, length_foldedKey] at lengths
    omega
  unfold cpBit tryLine
  by_cases empty : keyLength line = 0
  · simp [empty, memcmpPlus_empty]
  by_cases long : 100 ≤ keyLength line
  · have notUsable : ¬(keyLength line < 100) := by omega
    simp [notUsable]
  have usable : keyLength line ≠ 0 ∧ keyLength line < 100 := by omega
  rw [if_pos usable]
  rcases searched.length with rfl | ⟨rfl, outside⟩
  · have short := searched.short
    rw [if_pos ⟨by omega, usable.2⟩,
      memcmpPlus_ok _ _ _ _ empty (by rw [size]; omega) keyFits, converted, copy.copied,
      Option.map_map]
    simp [Function.comp_def]
  · have absent : firstOccurrence (foldedKey line) [] = none := by
      simp [firstOccurrence, foldedKey_ne_nil empty]
    have noText : foldBelow (max reach (keyLength line + 2)) [] = [] := rfl
    rw [noText, absent]
    split
    case isTrue both => exact memcmpPlus_short _ _ (by omega)
    case isFalse => rfl

/-- One turn of the loop at an entry. -/
theorem tryEntry_ok
    {convertSize : Nat} {dumped : Option Region} {srcLength : Int}
    {text line header middle : Bytes} {reach : Nat}
    (lineNumber : Nat)
    (dumps : DumpReturns dumped srcLength)
    (fits : EntryFits line) (terminated : 0 ∉ line)
    (room : 200 ≤ convertSize)
    (headerLength : header.length = headerSize)
    (searched : Searched srcLength text)
    (copy : WorkingCopy text reach middle) :
    ∃ middleAfter,
      WorkingCopy text (max reach (keyLength line + 2)) middleAfter ∧
      tryEntry convertSize dumped srcLength lineNumber
          (leftPart line ++ calloc (splitSize - (leftPart line).length))
          (rightPart line ++ calloc (splitSize - (rightPart line).length))
          header middle =
        .ok (loopResult header text middleAfter
          (tryLine text reach lineNumber line)) := by
  have short : text.length < 100 := searched.short
  have keyShort := keyLength_lt fits
  have size : middle.length = 200 := copy.size
  obtain ⟨convertStr, converted, -, key⟩ := convertKey_ok fits terminated room
  have folded := tolowerUnicode_ok (c := middle) (keyLength_even line) (by omega)
  have foldedCopy : WorkingCopy text (max reach (keyLength line + 2))
      (foldBelow (keyLength line + 2) middle) := copy.fold searched.even
  refine ⟨_, foldedCopy, ?_⟩
  simp only [tryEntry, converted, folded, cpBit_ok lineNumber searched key foldedCopy,
    ok_bind]
  cases found : tryLine text reach lineNumber line with
  | none => rfl
  | some hit =>
      have inside := tryLine_inside found
      obtain ⟨usable, position, first, rfl⟩ := tryLine_eq_some_iff.mp found
      -- something was found, so the text is not the empty one
      have nonempty : text ≠ [] := by
        rintro rfl
        simp only [List.length_nil] at inside
        omega
      have lengthText : srcLength = text.length :=
        searched.length.resolve_right fun outside => nonempty outside.1
      subst lengthText
      have rebuilt := rebuild_ok dumps fits.right_short terminated headerLength foldedCopy
        (by simp only [middleSize]; omega) inside
      simp only [Option.map_some, rebuilt, ok_bind, pure_eq_ok]
      rfl

/-- A turn that returns has converted the key. -/
theorem leftConverts_of_tryEntry
    {convertSize : Nat} {dumped : Option Region} {srcLength : Int}
    {line right header middle : Bytes} {currentLines : Nat} {state : LoopState}
    (terminated : 0 ∉ line)
    (returned : tryEntry convertSize dumped srcLength currentLines
      (leftPart line ++ calloc (splitSize - (leftPart line).length))
      right header middle = .ok state) :
    LeftConverts line := by
  rw [tryEntry] at returned
  obtain ⟨converted, keyConverted, -⟩ := bind_eq_ok.mp returned
  exact leftConverts_of_convertKey terminated keyConverted

/-! ## The lines tried -/

/-- The property holds of every line the search tries: of those up to the first
one found. -/
def EachTried
    (property : Bytes -> Prop) (text : Bytes) (reach lineNumber : Nat)
    (lines : List Bytes) : Prop :=
  ∀ before line after, lines = before ++ line :: after ->
    searchEntries text reach lineNumber before = none -> property line

theorem EachTried.of_forall
    {property : Bytes -> Prop} {text : Bytes} {reach lineNumber : Nat}
    {lines : List Bytes} (every : ∀ line, line ∈ lines -> property line) :
    EachTried property text reach lineNumber lines :=
  fun before line after split _ => every line (by simp [split])

theorem eachTried_cons_iff
    {property : Bytes -> Prop} {text line : Bytes} {reach lineNumber : Nat}
    {lines : List Bytes} :
    EachTried property text reach lineNumber (line :: lines) ↔
      property line ∧ (tryLine text reach lineNumber line = none ->
        EachTried property text (max reach (keyLength line + 2)) (lineNumber + 1)
          lines) := by
  constructor
  · intro tried
    refine ⟨tried [] line lines rfl rfl, fun passed before other after split none => ?_⟩
    refine tried (line :: before) other after (by simp [split]) ?_
    rw [searchEntries, passed]
    exact none
  · rintro ⟨here, later⟩ before other after split none
    cases before with
    | nil =>
        obtain ⟨rfl, -⟩ := List.cons.inj split
        exact here
    | cons first before =>
        obtain ⟨rfl, rest⟩ := List.cons.inj split
        rw [searchEntries] at none
        cases passed : tryLine text reach lineNumber line with
        | some hit => rw [passed] at none; cases none
        | none =>
            rw [passed] at none
            exact later passed before other after rest none

/-- The loop over the entries searches them in order, provided those it tries
fit. -/
theorem entryLoop_ok
    {convertSize : Nat} {dumped : Option Region} {srcLength : Int}
    {text : Bytes} {token : Option (Bytes × Bytes)} {lines : List Bytes}
    (dumps : DumpReturns dumped srcLength) (room : 200 ≤ convertSize)
    (searched : Searched srcLength text)
    (visits : Visits lineDelimiters token lines)
    (terminated : ∀ line, line ∈ lines -> 0 ∉ line)
    {currentLines reach : Nat}
    (fits : EachTried EntryFits text reach currentLines lines)
    (behindHeader : currentLines ≠ 0)
    {left right header middle : Bytes}
    (leftSize : left.length = splitSize) (rightSize : right.length = splitSize)
    (headerLength : header.length = headerSize)
    (copy : WorkingCopy text reach middle) :
    ∃ middleAfter, middleAfter.length = middleSize ∧
      entryLoop convertSize dumped srcLength token currentLines
          left right header middle =
        .ok (loopResult header text middleAfter
          (searchEntries text reach currentLines lines)) := by
  induction lines generalizing token currentLines reach left right middle with
  | nil =>
      rw [visits.eq_none]
      exact ⟨middle, copy.size, by rw [entryLoop]; rfl⟩
  | cons line lines inductionHypothesis =>
      obtain ⟨cursor, next, rfl, scanned, visitsNext⟩ := visits.exists_next (by decide)
      obtain ⟨lineFits, laterFit⟩ := eachTried_cons_iff.mp fits
      have lineTerminated := terminated line List.mem_cons_self
      obtain ⟨middleAfter, copyAfter, tried⟩ := tryEntry_ok currentLines dumps
        lineFits lineTerminated room headerLength searched copy
      rw [entryLoop_some, scanned,
        splitLine_ok lineFits.toSplitFits lineTerminated leftSize rightSize, ok_bind,
        entryTurn, if_pos behindHeader, tried, ok_bind]
      cases hit : tryLine text reach currentLines line with
      | some hit =>
          refine ⟨middleAfter, copyAfter.size, ?_⟩
          simp [loopResult, searchEntries, hit]
      | none =>
          obtain ⟨last, lastSize, looped⟩ := inductionHypothesis visitsNext
            (fun other present => terminated other (List.mem_cons_of_mem _ present))
            (laterFit hit) (Nat.succ_ne_zero currentLines)
            (part_size lineFits.left_fits)
            (part_size (Nat.le_of_lt lineFits.right_short)) copyAfter
          refine ⟨last, lastSize, ?_⟩
          simp only [loopResult, Option.map_none, Option.isSome_none,
            Bool.false_eq_true, if_false, searchEntries, hit]
          exact looped

/-- The loop returns only if the lines it tries fit. -/
theorem eachTried_of_entryLoop
    {convertSize : Nat} {dumped : Option Region} {srcLength : Int}
    {text : Bytes} {token : Option (Bytes × Bytes)} {lines : List Bytes}
    (dumps : DumpReturns dumped srcLength) (room : 200 ≤ convertSize)
    (searched : Searched srcLength text)
    (visits : Visits lineDelimiters token lines)
    (terminated : ∀ line, line ∈ lines -> 0 ∉ line)
    {currentLines reach : Nat} (behindHeader : currentLines ≠ 0)
    {left right header middle : Bytes} {state : LoopState}
    (leftSize : left.length = splitSize) (rightSize : right.length = splitSize)
    (headerLength : header.length = headerSize)
    (copy : WorkingCopy text reach middle)
    (returned : entryLoop convertSize dumped srcLength token currentLines
      left right header middle = .ok state) :
    EachTried EntryFits text reach currentLines lines := by
  induction lines generalizing token currentLines reach left right middle with
  | nil => exact EachTried.of_forall (by simp)
  | cons line lines inductionHypothesis =>
      obtain ⟨cursor, next, rfl, scanned, visitsNext⟩ := visits.exists_next (by decide)
      have lineTerminated := terminated line List.mem_cons_self
      rw [entryLoop_some, scanned] at returned
      obtain ⟨parts, split, turned⟩ := bind_eq_ok.mp returned
      have splitFits := splitFits_of_splitLine lineTerminated leftSize rightSize split
      rw [splitLine_ok splitFits lineTerminated leftSize rightSize] at split
      cases split
      rw [entryTurn, if_pos behindHeader] at turned
      obtain ⟨turn, tried, looped⟩ := bind_eq_ok.mp turned
      have lineFits : EntryFits line :=
        ⟨splitFits, leftConverts_of_tryEntry lineTerminated tried⟩
      obtain ⟨middleAfter, copyAfter, found⟩ := tryEntry_ok currentLines dumps
        lineFits lineTerminated room headerLength searched copy
      rw [found] at tried
      cases tried
      refine eachTried_cons_iff.mpr ⟨lineFits, fun passed => ?_⟩
      rw [passed] at looped
      simp only [loopResult, Option.map_none, Option.isSome_none,
        Bool.false_eq_true, if_false] at looped
      exact inductionHypothesis visitsNext
        (fun other present => terminated other (List.mem_cons_of_mem _ present))
        (Nat.succ_ne_zero currentLines) (part_size splitFits.left_fits)
        (part_size (Nat.le_of_lt splitFits.right_short)) copyAfter looped

end TextHook
end UnityLocalization
