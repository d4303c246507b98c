import UnityLocalization.Tools.HexDump

/-!
# The text of a hex dump

Each row of a dump consists of cells of three characters: two digits and a
separator, or three spaces behind the last byte.  Reading the digits of all
rows gives the dumped bytes back.
-/

namespace UnityLocalization
namespace Tools

open CMemory

/-- `hexDump(buf, len)` where its two local arrays start with the given contents. -/
def hexDumpFrom (strHexBuffer strPrintAble : Bytes) (buf : Option Region) (len : Int) :
    Checked (List DumpRow) :=
  match buf with
  | none => .ok []
  | some buf =>
      if len < 1 then .ok []
      else do
        let len := len.toNat
        let (rows, strHexBuffer, strPrintAble) ←
          dumpFullRows buf (len / 16) 0 strHexBuffer strPrintAble
        let leftSize := len % 16
        if leftSize < 1 then return rows
        else do
          let pos := (len / 16) * 16
          let (strHexBuffer, strPrintAble) ←
            dumpBytes buf pos (fun _ => 0x20) leftSize 0 strHexBuffer strPrintAble
          let strHexBuffer ← store strHexBuffer (leftSize * 3) 0
          let strPrintAble ← store strPrintAble leftSize 0
          let strHexBuffer ← padRow (16 - leftSize) leftSize strHexBuffer
          let strHexBuffer ← store strHexBuffer (16 * 3) 0
          return rows ++ [⟨pos, strHexBuffer, strPrintAble⟩]

/-- `hexDump` is the dump whose arrays start with zeros. -/
theorem hexDump_eq_hexDumpFrom (buf : Option Region) (len : Int) :
    hexDump buf len = hexDumpFrom (calloc (16 * 3 + 1)) (calloc 17) buf len := rfl

/-- The value of a hex digit. -/
def digitValue (c : UInt8) : Option UInt8 := (hexChars.idxOf? c).map UInt8.ofNat

/-- The bytes whose digits stand in the cells of a row. -/
def readCells : Bytes -> Bytes
  | high :: low :: _ :: rest =>
      match digitValue high, digitValue low with
      | some high, some low => (high * 16 + low) :: readCells rest
      | _, _ => readCells rest
  | _ => []

/-- What the rows of a dump say about the dumped bytes: there are enough of them and
no more, each is labelled with the offset of its first byte and 48 characters wide,
blank behind the last byte, and the digits of all of them are those of the bytes. -/
structure LosslessDump (bytes : Bytes) (rows : List DumpRow) : Prop where
  count : rows.length = (bytes.length + 15) / 16
  label : ∀ k row, rows[k]? = some row -> row.label = 16 * k
  width : ∀ row ∈ rows, ∃ text,
    row.strHexBuffer = text ++ [0] ∧ text.length = 48 ∧ 0 ∉ text
  blank : ∀ k row, rows[k]? = some row -> ∀ offset,
    3 * (bytes.length - 16 * k) ≤ offset -> offset < 48 ->
      row.strHexBuffer[offset]? = some 0x20
  digits : rows.flatMap (fun row => readCells row.strHexBuffer) = bytes

/-! ## Cells -/

/-- The cells of consecutive bytes of a row, from position `j` on. -/
def hexCells (separator : Nat -> UInt8) : (j : Nat) -> Bytes -> Bytes
  | _, [] => []
  | j, c :: rest =>
      hexDigit (c >>> 4) :: hexDigit c :: separator j :: hexCells separator (j + 1) rest

@[simp] theorem length_hexCells (separator : Nat -> UInt8) (j : Nat) (cells : Bytes) :
    (hexCells separator j cells).length = 3 * cells.length := by
  induction cells generalizing j with
  | nil => rfl
  | cons c rest inductionHypothesis =>
      simp only [hexCells, List.length_cons, inductionHypothesis]
      omega

theorem hexChars_facts : ∀ value : Fin 16,
    hexChars.getD value.val 0 ≠ 0 ∧
      digitValue (hexChars.getD value.val 0) = some (UInt8.ofNat value.val) := by
  decide

theorem toNat_lowNibble (nibble : UInt8) :
    (nibble &&& 0x0F).toNat = nibble.toNat % 16 := by
  rw [UInt8.toNat_and]
  exact Nat.and_two_pow_sub_one_eq_mod nibble.toNat 4

theorem hexDigit_ne_zero (nibble : UInt8) : hexDigit nibble ≠ 0 := by
  have small : (nibble &&& 0x0F).toNat < 16 := by
    rw [toNat_lowNibble]
    omega
  exact (hexChars_facts ⟨_, small⟩).1

/-- A digit stands for the low half of its byte. -/
theorem digitValue_hexDigit (nibble : UInt8) :
    digitValue (hexDigit nibble) = some (nibble &&& 0x0F) := by
  have small : (nibble &&& 0x0F).toNat < 16 := by
    rw [toNat_lowNibble]
    omega
  have value := (hexChars_facts ⟨_, small⟩).2
  rwa [UInt8.ofNat_toNat] at value

/-- The two halves of a byte. -/
theorem joined_nibbles (c : UInt8) : (c >>> 4 &&& 0x0F) * 16 + (c &&& 0x0F) = c := by
  have bound := c.toNat_lt
  have high : (c >>> 4 &&& 0x0F).toNat = c.toNat / 16 % 16 := by
    rw [toNat_lowNibble, UInt8.toNat_shiftRight, Nat.shiftRight_eq_div_pow]
    rfl
  apply UInt8.toNat_inj.mp
  rw [UInt8.toNat_add, UInt8.toNat_mul, high, toNat_lowNibble]
  simp
  omega

/-- Reading the cells of some bytes gives the bytes. -/
theorem readCells_hexCells
    (separator : Nat -> UInt8) (j : Nat) (cells more : Bytes) :
    readCells (hexCells separator j cells ++ more) = cells ++ readCells more := by
  induction cells generalizing j with
  | nil => rfl
  | cons c rest inductionHypothesis =>
      rw [hexCells, List.cons_append, List.cons_append, List.cons_append, readCells,
        digitValue_hexDigit, digitValue_hexDigit]
      simp only [joined_nibbles, inductionHypothesis, List.cons_append]

/-- Blank cells hold no byte. -/
theorem readCells_blank (count : Nat) :
    readCells (List.replicate (3 * count) 0x20 ++ [0]) = [] := by
  induction count with
  | zero => rfl
  | succ count inductionHypothesis =>
      rw [show 3 * (count + 1) = 3 * count + 1 + 1 + 1 by omega, List.replicate_succ,
        List.replicate_succ, List.replicate_succ, List.cons_append, List.cons_append,
        List.cons_append, readCells, inductionHypothesis]
      rfl

theorem zero_not_mem_hexCells
    {separator : Nat -> UInt8} (visible : ∀ j, separator j ≠ 0) (j : Nat) (cells : Bytes) :
    0 ∉ hexCells separator j cells := by
  induction cells generalizing j with
  | nil => exact List.not_mem_nil
  | cons c rest inductionHypothesis =>
      simp only [hexCells, List.mem_cons, not_or]
      exact ⟨(hexDigit_ne_zero _).symm, (hexDigit_ne_zero _).symm, (visible j).symm,
        inductionHypothesis (j + 1)⟩

/-! ## Filling a row -/

/-- Three stores at the end of the filled part of a row buffer. -/
theorem set_cell
    {front back : Bytes} {z : Nat} (first second third : UInt8)
    (position : front.length = z) (room : 3 ≤ back.length) :
    (((front ++ back).set z first).set (z + 1) second).set (z + 2) third =
      front ++ [first, second, third] ++ back.drop 3 := by
  subst position
  match back with
  | [] | [_] | [_, _] => exact absurd room (by simp)
  | _ :: _ :: _ :: back => simp

theorem dumpByte_ok
    {front back strPrintAble : Bytes} {j : Nat} (c separator : UInt8)
    (position : front.length = 3 * j) (room : 3 ≤ back.length)
    (inRow : j < strPrintAble.length) :
    dumpByte (front ++ back) strPrintAble j c separator =
      .ok (front ++ [hexDigit (c >>> 4), hexDigit c, separator] ++ back.drop 3,
        strPrintAble.set j (printableByte c)) := by
  have size : (front ++ back).length = 3 * j + back.length := by
    rw [List.length_append, position]
  rw [dumpByte, store_of_lt _ _ _ (by omega), ok_bind,
    store_of_lt _ _ _ (by rw [List.length_set]; omega), ok_bind,
    store_of_lt _ _ _ (by rw [List.length_set, List.length_set]; omega), ok_bind,
    store_of_lt _ _ _ inRow, ok_bind, set_cell _ _ _ (by omega) room]
  rfl

/-- The inner loop writes the cells of the bytes it reads. -/
theorem dumpBytes_ok
    {buf : Region} {i j : Nat} {cells front back strPrintAble : Bytes}
    (separator : Nat -> UInt8)
    (position : front.length = 3 * j) (room : 3 * cells.length ≤ back.length)
    (inRow : j + cells.length ≤ strPrintAble.length)
    (stored : ∀ offset byte, cells[offset]? = some byte ->
      buf (i + (j + offset)) = some byte) :
    ∃ printable,
      dumpBytes buf i separator cells.length j (front ++ back) strPrintAble =
        .ok (front ++ hexCells separator j cells ++ back.drop (3 * cells.length),
          printable) ∧
      printable.length = strPrintAble.length := by
  induction cells generalizing j front back strPrintAble with
  | nil => exact ⟨strPrintAble, by simp [dumpBytes, hexCells], rfl⟩
  | cons c rest inductionHypothesis =>
      rw [List.length_cons] at room inRow
      have here : load buf (i + j) = .ok c := by
        have present := stored 0 c rfl
        rw [Nat.add_zero] at present
        rw [load, present]
      have written := @dumpByte_ok front back strPrintAble j c (separator j) position
        (by omega) (by omega)
      obtain ⟨printable, dumped, size⟩ :=
        @inductionHypothesis (j + 1)
          (front ++ [hexDigit (c >>> 4), hexDigit c, separator j]) (back.drop 3)
          (strPrintAble.set j (printableByte c))
          (by rw [List.length_append, position]; rfl)
          (by rw [List.length_drop]; omega)
          (by rw [List.length_set]; omega)
          fun offset byte present => by
            have later := stored (offset + 1) byte present
            rwa [show j + (offset + 1) = j + 1 + offset by omega] at later
      refine ⟨printable, ?_, by rw [size, List.length_set]⟩
      rw [List.drop_drop, show 3 + 3 * rest.length = 3 * (rest.length + 1) by omega]
        at dumped
      rw [List.length_cons, dumpBytes, here, ok_bind, written, ok_bind]
      refine dumped.trans ?_
      simp only [hexCells, List.append_assoc, List.cons_append, List.nil_append]

/-- The padding fills the rest of a row with spaces. -/
theorem padRow_ok
    {front back : Bytes} {count j : Nat}
    (position : front.length = 3 * j) (room : 3 * count ≤ back.length) :
    padRow count j (front ++ back) =
      .ok (front ++ List.replicate (3 * count) 0x20 ++ back.drop (3 * count)) := by
  induction count generalizing j front back with
  | zero => simp [padRow]
  | succ count inductionHypothesis =>
      have size : (front ++ back).length = 3 * j + back.length := by
        rw [List.length_append, position]
      rw [padRow, store_of_lt _ _ _ (by omega), ok_bind,
        store_of_lt _ _ _ (by rw [List.length_set]; omega), ok_bind,
        store_of_lt _ _ _ (by rw [List.length_set, List.length_set]; omega), ok_bind,
        set_cell _ _ _ (by omega) (by omega),
        inductionHypothesis (by rw [List.length_append, position]; rfl)
          (by rw [List.length_drop]; omega)]
      rw [List.drop_drop, show 3 + 3 * count = 3 * (count + 1) by omega,
        show 3 * (count + 1) = 1 + 1 + 1 + 3 * count by omega, List.replicate_add,
        List.append_assoc front]
      rfl

/-! ## Rows -/

/-- The bytes of row `k`. -/
def rowBytes (bytes : Bytes) (k : Nat) : Bytes := (bytes.drop (16 * k)).take 16

/-- The row that shows the bytes of row `k`. -/
structure ShowsRow (bytes : Bytes) (k : Nat) (row : DumpRow) : Prop where
  label : row.label = 16 * k
  text : ∃ separator : Nat -> UInt8, (∀ j, separator j ≠ 0) ∧
    row.strHexBuffer = hexCells separator 0 (rowBytes bytes k) ++
      List.replicate (3 * (16 - (rowBytes bytes k).length)) 0x20 ++ [0]

theorem length_rowBytes (bytes : Bytes) (k : Nat) :
    (rowBytes bytes k).length = min 16 (bytes.length - 16 * k) := by
  rw [rowBytes, List.length_take, List.length_drop]

theorem getElem?_rowBytes
    {bytes : Bytes} {k offset : Nat} {byte : UInt8}
    (stored : (rowBytes bytes k)[offset]? = some byte) :
    regionOf bytes (16 * k + (0 + offset)) = some byte := by
  rw [rowBytes, List.getElem?_take] at stored
  split at stored
  case isTrue =>
    rw [List.getElem?_drop] at stored
    rwa [regionOf, Nat.zero_add]
  case isFalse => cases stored

theorem fullRowSeparator_ne_zero (j : Nat) : fullRowSeparator j ≠ 0 := by
  rw [fullRowSeparator]
  split <;> decide

/-- The rows put together are the bytes they show. -/
theorem flatten_rowBytes (bytes : Bytes) (count : Nat) :
    ((List.range count).map (rowBytes bytes)).flatten = bytes.take (16 * count) := by
  induction count with
  | zero => rfl
  | succ count inductionHypothesis =>
      rw [List.range_succ, List.map_append, List.flatten_append, inductionHypothesis,
        show 16 * (count + 1) = 16 * count + 16 by omega, List.take_add]
      simp [rowBytes]

/-- The terminator of a row takes the last byte of its buffer. -/
theorem store_rowEnd
    {text back : Bytes} (filled : text.length = 48) (size : back.length = 1) :
    store (text ++ back) (16 * 3) 0 = .ok (text ++ [0]) := by
  obtain ⟨last, rfl⟩ := List.length_eq_one_iff.mp size
  rw [store_of_lt _ _ _ (by simp [filled])]
  simp [filled]

/-- The loop over full rows logs them in order. -/
theorem dumpFullRows_ok
    {bytes strHexBuffer strPrintAble : Bytes}
    (sized : RowBuffers strHexBuffer strPrintAble)
    {count first : Nat} (inside : 16 * (first + count) ≤ bytes.length) :
    ∃ rows hex printable,
      dumpFullRows (regionOf bytes) count (16 * first) strHexBuffer strPrintAble =
        .ok (rows, hex, printable) ∧
      RowBuffers hex printable ∧ rows.length = count ∧
      ∀ k row, rows[k]? = some row -> ShowsRow bytes (first + k) row := by
  induction count generalizing first strHexBuffer strPrintAble with
  | zero => exact ⟨[], _, _, rfl, sized, rfl, by simp⟩
  | succ count inductionHypothesis =>
      obtain ⟨hexSize, printableSize⟩ := sized
      have full : (rowBytes bytes first).length = 16 := by
        rw [length_rowBytes]
        omega
      obtain ⟨printable, dumped, size⟩ :=
        @dumpBytes_ok (regionOf bytes) (16 * first) 0 (rowBytes bytes first) []
          strHexBuffer strPrintAble fullRowSeparator rfl (by omega) (by omega)
          fun offset byte stored => getElem?_rowBytes stored
      generalize cells : hexCells fullRowSeparator 0 (rowBytes bytes first) = text at dumped
      have textLength : text.length = 48 := by rw [← cells, length_hexCells, full]
      rw [full, List.nil_append, List.nil_append] at dumped
      have closed := @store_rowEnd text (strHexBuffer.drop (3 * 16)) textLength
        (by rw [List.length_drop, hexSize])
      obtain ⟨ended, storedEnd, endedSize⟩ := store_within printable 16 0 (by omega)
      obtain ⟨rows, hex, printableAfter, rest, sizedAfter, counted, shown⟩ :=
        @inductionHypothesis (text ++ [0]) ended
          ⟨by rw [List.length_append, textLength]; rfl, by omega⟩ (first + 1) (by omega)
      rw [show 16 * (first + 1) = 16 * first + 16 by omega] at rest
      refine ⟨⟨16 * first, text ++ [0], ended⟩ :: rows, hex, printableAfter, ?_, sizedAfter,
        by rw [List.length_cons, counted], ?_⟩
      · simp only [dumpFullRows, dumped, ok_bind, closed, storedEnd, rest, pure_eq_ok]
      · intro k row present
        cases k with
        | zero =>
            cases present
            refine ⟨rfl, fullRowSeparator, fullRowSeparator_ne_zero, ?_⟩
            rw [Nat.add_zero, full, cells]
            simp
        | succ k =>
            rw [show first + (k + 1) = first + 1 + k by omega]
            exact shown k row present

/-- A row has 48 visible characters. -/
theorem ShowsRow.width
    {bytes : Bytes} {k : Nat} {row : DumpRow} (shows : ShowsRow bytes k row) :
    ∃ text, row.strHexBuffer = text ++ [0] ∧ text.length = 48 ∧ 0 ∉ text := by
  obtain ⟨separator, visible, text⟩ := shows.text
  refine ⟨_, text, ?_, ?_⟩
  · rw [List.length_append, length_hexCells, List.length_replicate, length_rowBytes]
    omega
  · rw [List.mem_append, not_or]
    refine ⟨zero_not_mem_hexCells visible 0 _, fun present => ?_⟩
    exact absurd (List.eq_of_mem_replicate present) (by decide)

/-- Behind its bytes a row is blank. -/
theorem ShowsRow.blank
    {bytes : Bytes} {k : Nat} {row : DumpRow} (shows : ShowsRow bytes k row)
    {offset : Nat} (behind : 3 * (bytes.length - 16 * k) ≤ offset) (inRow : offset < 48) :
    row.strHexBuffer[offset]? = some 0x20 := by
  obtain ⟨separator, -, text⟩ := shows.text
  have cells : (hexCells separator 0 (rowBytes bytes k)).length =
      3 * (rowBytes bytes k).length := length_hexCells _ _ _
  have size := length_rowBytes bytes k
  rw [text, List.append_assoc, List.getElem?_append_right (by omega), List.getElem?_append_left
    (by rw [List.length_replicate]; omega), List.getElem?_replicate, if_pos (by omega)]

/-- Reading a row gives its bytes. -/
theorem ShowsRow.readCells_eq
    {bytes : Bytes} {k : Nat} {row : DumpRow} (shows : ShowsRow bytes k row) :
    readCells row.strHexBuffer = rowBytes bytes k := by
  obtain ⟨separator, -, text⟩ := shows.text
  rw [text, List.append_assoc, readCells_hexCells, readCells_blank, List.append_nil]

/-- Enough rows that show their bytes lose nothing. -/
theorem losslessDump_of_showsRow
    {bytes : Bytes} {rows : List DumpRow}
    (count : rows.length = (bytes.length + 15) / 16)
    (shown : ∀ k row, rows[k]? = some row -> ShowsRow bytes k row) :
    LosslessDump bytes rows where
  count := count
  label k row present := (shown k row present).label
  width row member := by
    obtain ⟨k, present⟩ := List.mem_iff_getElem?.mp member
    exact (shown k row present).width
  blank k row present _ := (shown k row present).blank
  digits := by
    have read : rows.map (fun row => readCells row.strHexBuffer) =
        (List.range rows.length).map (rowBytes bytes) := by
      apply List.ext_getElem?
      intro k
      rw [List.getElem?_map, List.getElem?_map]
      cases present : rows[k]? with
      | none =>
          rw [List.getElem?_eq_none (by simpa using List.getElem?_eq_none_iff.mp present)]
          rfl
      | some row =>
          have inside : k < rows.length := (List.getElem?_eq_some_iff.mp present).1
          rw [List.getElem?_range inside]
          exact congrArg some (shown k row present).readCells_eq
    rw [List.flatMap_def, read, flatten_rowBytes, count]
    exact List.take_of_length_le (by omega)

/-- The row behind the full rows is logged last. -/
theorem partialRow_ok
    {bytes strHexBuffer strPrintAble : Bytes}
    (sized : RowBuffers strHexBuffer strPrintAble)
    {k pos leftSize : Nat} (start : 16 * k = pos)
    (size : (rowBytes bytes k).length = leftSize) (short : leftSize < 16) :
    ∃ row, ShowsRow bytes k row ∧ ∀ rows : List DumpRow, (do
      let (strHexBuffer, strPrintAble) ←
        dumpBytes (regionOf bytes) pos (fun _ => 0x20) leftSize 0 strHexBuffer strPrintAble
      let strHexBuffer ← store strHexBuffer (leftSize * 3) 0
      let strPrintAble ← store strPrintAble leftSize 0
      let strHexBuffer ← padRow (16 - leftSize) leftSize strHexBuffer
      let strHexBuffer ← store strHexBuffer (16 * 3) 0
      return rows ++ [(⟨pos, strHexBuffer, strPrintAble⟩ : DumpRow)]) =
        .ok (rows ++ [row]) := by
  subst start size
  obtain ⟨hexSize, printableSize⟩ := sized
  obtain ⟨printable, dumped, printableAfter⟩ :=
    @dumpBytes_ok (regionOf bytes) (16 * k) 0 (rowBytes bytes k) [] strHexBuffer
      strPrintAble (fun _ => 0x20) rfl (by omega) (by omega)
      fun offset byte stored => getElem?_rowBytes stored
  generalize leftBytes : rowBytes bytes k = cells at *
  generalize cellText : hexCells (fun _ => 0x20) 0 cells = text at dumped
  have textLength : text.length = 3 * cells.length := by
    rw [← cellText, length_hexCells]
  rw [List.nil_append, List.nil_append] at dumped
  obtain ⟨ended, storedEnd, -⟩ := store_within printable cells.length 0 (by omega)
  -- the terminator behind the last cell is overwritten by the padding
  generalize behind : strHexBuffer.drop (3 * cells.length) = back at dumped
  have backLength : back.length = 49 - 3 * cells.length := by
    rw [← behind, List.length_drop, hexSize]
  have closed : store (text ++ back) (cells.length * 3) 0 = .ok (text ++ back.set 0 0) := by
    rw [store_of_lt _ _ _ (by rw [List.length_append]; omega),
      List.set_append_right _ _ (by omega), show cells.length * 3 - text.length = 0 by omega]
  have padded := @padRow_ok text (back.set 0 0) (16 - cells.length) cells.length textLength
    (by rw [List.length_set]; omega)
  generalize filled : text ++ List.replicate (3 * (16 - cells.length)) 0x20 = whole at padded
  have wholeLength : whole.length = 48 := by
    rw [← filled, List.length_append, List.length_replicate]
    omega
  have terminated := @store_rowEnd whole ((back.set 0 0).drop (3 * (16 - cells.length)))
    wholeLength (by rw [List.length_drop, List.length_set]; omega)
  have visible : (0x20 : UInt8) ≠ 0 := by decide
  refine ⟨⟨16 * k, whole ++ [0], ended⟩, ⟨rfl, fun _ => 0x20, fun _ => visible, ?_⟩,
    fun rows => ?_⟩
  · rw [leftBytes, cellText, filled]
  · simp only [dumped, ok_bind, closed, storedEnd, padded, terminated, pure_eq_ok]

/-- A dump of a whole buffer logs rows that show its bytes. -/
theorem hexDumpFrom_rows
    {strHexBuffer strPrintAble : Bytes}
    (sized : RowBuffers strHexBuffer strPrintAble) (bytes : Bytes) :
    ∃ rows,
      hexDumpFrom strHexBuffer strPrintAble (some (regionOf bytes)) bytes.length =
        .ok rows ∧
      LosslessDump bytes rows := by
  by_cases empty : (bytes.length : Int) < 1
  · have nil : bytes = [] := List.length_eq_zero_iff.mp (by omega)
    subst nil
    exact ⟨[], rfl, losslessDump_of_showsRow rfl (by simp)⟩
  · obtain ⟨rows, hex, printable, dumped, sizedAfter, counted, shown⟩ :=
      @dumpFullRows_ok bytes strHexBuffer strPrintAble sized (bytes.length / 16) 0 (by omega)
    simp only [Nat.zero_add, Nat.mul_zero] at dumped shown
    simp only [hexDumpFrom, if_neg empty, Int.toNat_natCast, dumped, ok_bind]
    by_cases whole : bytes.length % 16 < 1
    · rw [if_pos whole]
      exact ⟨rows, rfl, losslessDump_of_showsRow (by omega) shown⟩
    · have size : (rowBytes bytes (bytes.length / 16)).length = bytes.length % 16 := by
        rw [length_rowBytes]
        omega
      obtain ⟨row, showsLast, last⟩ :=
        partialRow_ok sizedAfter (Nat.mul_comm 16 _) size (by omega)
      rw [if_neg whole]
      refine ⟨rows ++ [row], last rows, losslessDump_of_showsRow ?_ fun k other present => ?_⟩
      · rw [List.length_append, counted, List.length_singleton]
        omega
      · rw [List.getElem?_append] at present
        split at present
        case isTrue => exact shown k other present
        case isFalse =>
          obtain ⟨inside, rfl⟩ := List.getElem?_eq_some_iff.mp present
          have atEnd : k = bytes.length / 16 := by
            rw [List.length_singleton] at inside
            omega
          subst atEnd
          simpa using showsLast

/-! ## Where more memory is readable -/

theorem dumpBytes_extends
    {small large : Region} (more : ∀ offset, Extends (load small offset) (load large offset))
    (i : Nat) (separator : Nat -> UInt8) (count j : Nat) (strHexBuffer strPrintAble : Bytes) :
    Extends (dumpBytes small i separator count j strHexBuffer strPrintAble)
      (dumpBytes large i separator count j strHexBuffer strPrintAble) := by
  induction count generalizing j strHexBuffer strPrintAble with
  | zero => exact Extends.refl _
  | succ count inductionHypothesis =>
      exact (more _).bind fun c => (Extends.refl _).bind fun _ => inductionHypothesis _ _ _

theorem dumpFullRows_extends
    {small large : Region} (more : ∀ offset, Extends (load small offset) (load large offset))
    (count i : Nat) (strHexBuffer strPrintAble : Bytes) :
    Extends (dumpFullRows small count i strHexBuffer strPrintAble)
      (dumpFullRows large count i strHexBuffer strPrintAble) := by
  induction count generalizing i strHexBuffer strPrintAble with
  | zero => exact Extends.refl _
  | succ count inductionHypothesis =>
      refine (dumpBytes_extends more _ _ _ _ _ _).bind fun _ => ?_
      refine (Extends.refl _).bind fun _ => (Extends.refl _).bind fun _ => ?_
      exact (inductionHypothesis _ _ _).bind fun _ => Extends.refl _

/-- A dump that returns does the same where more memory is readable. -/
theorem hexDumpFrom_extends
    {small large : Region} (more : ∀ offset, Extends (load small offset) (load large offset))
    (strHexBuffer strPrintAble : Bytes) (len : Int) :
    Extends (hexDumpFrom strHexBuffer strPrintAble (some small) len)
      (hexDumpFrom strHexBuffer strPrintAble (some large) len) := by
  refine Extends.ite (Extends.refl _) ?_
  refine (dumpFullRows_extends more _ _ _ _).bind fun _ => ?_
  exact Extends.ite (Extends.refl _)
    ((dumpBytes_extends more _ _ _ _ _ _).bind fun _ => Extends.refl _)

/-- Every dump returns whatever its local arrays held before, reads nothing behind its
length and loses no byte. -/
theorem hexDumpFrom_lossless
    {strHexBuffer strPrintAble : Bytes}
    (sized : RowBuffers strHexBuffer strPrintAble)
    {buf : Bytes} {len : Nat} (inside : len ≤ buf.length) :
    ∃ rows,
      hexDumpFrom strHexBuffer strPrintAble (some (regionOf buf)) len = .ok rows ∧
      hexDumpFrom strHexBuffer strPrintAble (some (regionOf (buf.take len))) len =
        .ok rows ∧
      LosslessDump (buf.take len) rows := by
  obtain ⟨rows, dumped, lossless⟩ := hexDumpFrom_rows sized (buf.take len)
  rw [List.length_take_of_le inside] at dumped
  refine ⟨rows, ?_, dumped, lossless⟩
  have more := load_append (buf.take len) (buf.drop len)
  rw [List.take_append_drop] at more
  exact hexDumpFrom_extends more _ _ _ rows dumped

/-- A dump of a full row and a partial one. -/
theorem hexDumpFrom_lossless_letters :
    ∃ rows,
      hexDump (some (regionOf (List.replicate 16 0x61 ++ [0xC3, 0xA9, 0x62]))) 18 =
        .ok rows ∧
      LosslessDump (List.replicate 16 0x61 ++ [0xC3, 0xA9]) rows := by
  obtain ⟨rows, dumped, -, lossless⟩ :=
    @hexDumpFrom_lossless (calloc (16 * 3 + 1)) (calloc 17) ⟨rfl, rfl⟩
      (List.replicate 16 0x61 ++ [0xC3, 0xA9, 0x62]) 18 (by decide)
  exact ⟨rows, dumped, lossless⟩

end Tools
end UnityLocalization
