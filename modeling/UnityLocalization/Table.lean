import UnityLocalization.Tools.Utf8
import Mathlib.Data.List.TakeWhile

/-!
# The mapping table

The mapping file is a list of lines `left|right` separated by runs of CR and
LF; its first line carries addresses and the others are the entries.  The
hooks walk a copy of the file with `strtok` and split each line at its first
separator.
-/

namespace UnityLocalization

open CMemory Utf16 Tools

/-! ## Sizes of `common.h` -/

/-- The longest left or right part of a line. -/
abbrev splitSize : Nat := 100

abbrev headerSize : Nat := 12

abbrev middleSize : Nat := 200

abbrev endSize : Nat := 4

namespace Table

/-- The delimiters CR and LF given to `strtok`. -/
abbrev lineDelimiters : Bytes := [0x0D, 0x0A]

/-- The separator `|`. -/
abbrev separator : UInt8 := 0x7C

/-- Clear the two part buffers and copy the parts of the line `p` into them.
Without a separator `s` is null and `strlen(s)` faults. -/
def splitLine (left right p : Bytes) : Checked (Bytes × Bytes) := do
  let left ← memset left 0 splitSize
  let right ← memset right 0 splitSize
  let s ← strstr [separator] p
  let lengthP ← strlen p
  let s ← deref s
  let lengthS ← strlen s
  let left ← memcpy left 0 (regionOf p) 0 ((lengthP : Int) - lengthS)
  let right ← strcpy right (s.drop 1)
  return (left, right)

/-- What `splitLine` does once the buffers are cleared. -/
def copyParts (left right p : Bytes) : Checked (Bytes × Bytes) := do
  let s ← strstr [separator] p
  let lengthP ← strlen p
  let s ← deref s
  let lengthS ← strlen s
  let left ← memcpy left 0 (regionOf p) 0 ((lengthP : Int) - lengthS)
  let right ← strcpy right (s.drop 1)
  return (left, right)

/-- The part of a line before its first separator. -/
def leftPart (line : Bytes) : Bytes := line.takeWhile fun byte => byte ≠ separator

/-- The part of a line behind its first separator. -/
def rightPart (line : Bytes) : Bytes :=
  (line.dropWhile fun byte => byte ≠ separator).drop 1

/-- The converted key of a line. -/
def keyUnits (line : Bytes) : List UInt16 := codeUnits (leftPart line)

/-- The converted right text of a line. -/
def rightUnits (line : Bytes) : List UInt16 := codeUnits (rightPart line)

/-- A line the hooks are meant for: it has a separator and both parts are
shorter than `splitSize`. -/
structure WellFormedLine (line : Bytes) : Prop where
  separated : separator ∈ line
  left_short : (leftPart line).length < splitSize
  right_short : (rightPart line).length < splitSize

/-- The parts of a line fit their buffers.  The left part is copied without a
terminator. -/
structure SplitFits (line : Bytes) : Prop where
  separated : separator ∈ line
  left_fits : (leftPart line).length ≤ splitSize
  right_short : (rightPart line).length < splitSize

/-- The key of a line is converted inside its buffer: it is shorter, or stops
the converter. -/
def LeftConverts (line : Bytes) : Prop :=
  (leftPart line).length < splitSize ∨ StopsInside (leftPart line)

/-- A line that can be tried. -/
structure EntryFits (line : Bytes) : Prop extends SplitFits line where
  left_converts : LeftConverts line

theorem WellFormedLine.entryFits {line : Bytes} (wellFormed : WellFormedLine line) :
    EntryFits line :=
  ⟨⟨wellFormed.separated, Nat.le_of_lt wellFormed.left_short, wellFormed.right_short⟩,
    Or.inl wellFormed.left_short⟩

/-- The lines a `strtok` loop over a file visits. -/
def fileLines (file : Bytes) : List Bytes :=
  tokens lineDelimiters (file.takeWhile fun byte => byte ≠ 0)

end Table

open Table in
/-- A mapping file all of whose lines are well formed. -/
structure MappingTable where
  file : Bytes
  wellFormed : ∀ line, line ∈ fileLines file -> WellFormedLine line

namespace MappingTable

/-- All lines, the address line first. -/
def lines (table : MappingTable) : List Bytes := Table.fileLines table.file

/-- The lines behind the address line. -/
def entries (table : MappingTable) : List Bytes := table.lines.tail

/-- What `readFile` leaves in `buffer`: the file and the zeroed extra bytes. -/
def buffer (table : MappingTable) : Bytes := table.file ++ calloc 4

end MappingTable

namespace Table

/-! ## Splitting a line -/

theorem leftPart_append
    (line : Bytes) (separated : separator ∈ line) :
    line = leftPart line ++ separator :: rightPart line := by
  induction line with
  | nil => cases separated
  | cons byte rest inductionHypothesis =>
      by_cases here : byte = separator
      · subst here
        simp [leftPart, rightPart]
      · have later : separator ∈ rest := by
          rcases List.mem_cons.mp separated with equal | later
          · exact absurd equal.symm here
          · exact later
        have split := inductionHypothesis later
        simp only [leftPart, rightPart] at split ⊢
        simpa [here] using split

theorem separator_not_mem_leftPart (line : Bytes) :
    separator ∉ leftPart line := by
  intro present
  have kept := List.mem_takeWhile_imp present
  simp at kept

theorem zero_not_mem_leftPart {line : Bytes} (terminated : 0 ∉ line) :
    0 ∉ leftPart line :=
  fun present => terminated ((List.takeWhile_subset _) present)

theorem zero_not_mem_rightPart {line : Bytes} (terminated : 0 ∉ line) :
    0 ∉ rightPart line :=
  fun present => terminated
    ((List.dropWhile_subset _) (List.mem_of_mem_drop present))

/-- The parts of a line and its separator make up the line. -/
theorem length_parts {line : Bytes} (separated : separator ∈ line) :
    line.length = (leftPart line).length + 1 + (rightPart line).length := by
  have lengths := congrArg List.length (leftPart_append line separated)
  rw [List.length_append, List.length_cons] at lengths
  omega

/-- The first separator decides the parts of a line. -/
theorem parts_of_split
    {before : Bytes} (after : Bytes) (absent : separator ∉ before) :
    leftPart (before ++ separator :: after) = before ∧
      rightPart (before ++ separator :: after) = after := by
  induction before with
  | nil => simp [leftPart, rightPart]
  | cons byte before inductionHypothesis =>
      simp only [List.mem_cons, not_or] at absent
      have here : byte ≠ separator := fun equal => absent.1 equal.symm
      obtain ⟨left, right⟩ := inductionHypothesis absent.2
      rw [leftPart] at left
      rw [rightPart] at right
      rw [leftPart, rightPart, List.cons_append, List.takeWhile_cons,
        List.dropWhile_cons, if_pos (by simpa using here), if_pos (by simpa using here),
        left, right]
      exact ⟨rfl, rfl⟩

/-- The parts of a separated line are written to the two buffers. -/
theorem copyParts_separated
    {line : Bytes} (left right : Bytes)
    (separated : separator ∈ line) (terminated : 0 ∉ line) :
    copyParts left right (line ++ [0]) =
      write left 0 (leftPart line) >>= fun left =>
        write right 0 (rightPart line ++ [0]) >>= fun right => .ok (left, right) := by
  have parts := leftPart_append line separated
  generalize leftText : leftPart line = before at *
  generalize rightPart line = after at *
  have absent : separator ∉ before := leftText ▸ separator_not_mem_leftPart line
  subst parts
  simp only [List.mem_append, List.mem_cons, not_or] at terminated
  obtain ⟨beforeTerminated, -, afterTerminated⟩ := terminated
  have nonzero : ¬(0 : UInt8) = separator := by decide
  have found : strstr [separator] ((before ++ separator :: after) ++ [0]) =
      .ok (some (separator :: (after ++ [0]))) := by
    simpa using strstr_singleton_found before (after ++ [0]) separator
      beforeTerminated absent
  have lengthP : strlen ((before ++ separator :: after) ++ [0]) =
      .ok (before.length + (after.length + 1)) := by
    rw [strlen_terminated _ [] (by simp [beforeTerminated, nonzero, afterTerminated])]
    simp
  have lengthS : strlen (separator :: (after ++ [0])) = .ok (after.length + 1) := by
    have terminated : 0 ∉ separator :: after := by simp [nonzero, afterTerminated]
    simpa using strlen_terminated (separator :: after) [] terminated
  have leftLength : ((before.length + (after.length + 1) : Nat) : Int) -
      (after.length + 1 : Nat) = (before.length : Nat) := by
    omega
  have copiedLeft : memcpy left 0
        (regionOf ((before ++ separator :: after) ++ [0])) 0 (before.length : Nat) =
      write left 0 before := by
    rw [memcpy_eq_write _ _ _ _ _ (by simp)]
    simp
  have copiedRight := strcpy_eq_write right after [] afterTerminated
  simp only [copyParts, found, lengthP, deref_some, lengthS, ok_bind, leftLength,
    copiedLeft, List.drop_succ_cons, List.drop_zero, copiedRight, pure_eq_ok]

/-- Without a separator `strlen` follows the null pointer. -/
theorem copyParts_unseparated
    {line : Bytes} (left right : Bytes)
    (unseparated : separator ∉ line) (terminated : 0 ∉ line) :
    copyParts left right (line ++ [0]) = .error .nullDereference := by
  have absent := strstr_singleton_absent line [] separator terminated unseparated
    (by decide)
  have lengthP := strlen_terminated line [] terminated
  simp only [copyParts, absent, lengthP, ok_bind, deref_none, error_bind]

/-- The hooks clear both buffers before they copy. -/
theorem splitLine_eq_copyParts
    {left right : Bytes} (p : Bytes)
    (leftSize : left.length = splitSize) (rightSize : right.length = splitSize) :
    splitLine left right p = copyParts (calloc splitSize) (calloc splitSize) p := by
  have cleared {part : Bytes} (size : part.length = splitSize) :
      memset part 0 splitSize = .ok (calloc splitSize) := by
    rw [memset_of_le _ _ _ (by omega), List.drop_of_length_le (by omega)]
    simp [calloc]
  rw [splitLine, cleared leftSize, ok_bind, cleared rightSize, ok_bind]
  rfl

/-- A part written to a cleared buffer is followed by zeros. -/
theorem write_calloc
    {part : Bytes} {size : Nat} (fits : part.length ≤ size) :
    write (calloc size) 0 part = .ok (part ++ calloc (size - part.length)) := by
  rw [write_of_le _ _ _ (by simpa using fits)]
  simp [calloc]

/-- A part in a longer cleared buffer is a terminated string. -/
theorem calloc_terminated {part : Bytes} {size : Nat} (short : part.length < size) :
    part ++ calloc (size - part.length) =
      part ++ 0 :: calloc (size - part.length - 1) := by
  have rest : size - part.length = size - part.length - 1 + 1 := by omega
  conv_lhs => rw [rest]
  rfl

/-- A string written to a cleared buffer is followed by zeros. -/
theorem write_calloc_terminated
    {part : Bytes} {size : Nat} (short : part.length < size) :
    write (calloc size) 0 (part ++ [0]) = .ok (part ++ calloc (size - part.length)) := by
  have length : (part ++ [0]).length = part.length + 1 := by simp
  rw [write_calloc (by omega), calloc_terminated short, length, Nat.sub_sub,
    List.append_assoc]
  rfl

/-- Splitting a line that fits fills both buffers with a part and zeros. -/
theorem splitLine_ok
    {line left right : Bytes}
    (fits : SplitFits line) (terminated : 0 ∉ line)
    (leftSize : left.length = splitSize) (rightSize : right.length = splitSize) :
    splitLine left right (line ++ [0]) =
      .ok (leftPart line ++ calloc (splitSize - (leftPart line).length),
        rightPart line ++ calloc (splitSize - (rightPart line).length)) := by
  rw [splitLine_eq_copyParts _ leftSize rightSize,
    copyParts_separated _ _ fits.separated terminated, write_calloc fits.left_fits,
    ok_bind, write_calloc_terminated fits.right_short, ok_bind]

/-- Only lines that fit are split. -/
theorem splitFits_of_splitLine
    {line left right : Bytes} {parts : Bytes × Bytes}
    (terminated : 0 ∉ line)
    (leftSize : left.length = splitSize) (rightSize : right.length = splitSize)
    (returned : splitLine left right (line ++ [0]) = .ok parts) :
    SplitFits line := by
  rw [splitLine_eq_copyParts _ leftSize rightSize] at returned
  by_cases separated : separator ∈ line
  · rw [copyParts_separated _ _ separated terminated] at returned
    obtain ⟨leftAfter, leftWritten, returned⟩ := bind_eq_ok.mp returned
    obtain ⟨rightAfter, rightWritten, -⟩ := bind_eq_ok.mp returned
    have leftFits := le_of_write leftWritten
    have rightFits := le_of_write rightWritten
    simp only [List.length_append, List.length_singleton, length_calloc] at leftFits rightFits
    exact ⟨separated, by omega, by omega⟩
  · rw [copyParts_unseparated _ _ separated terminated] at returned
    cases returned

/-! ## The lines of a file -/

/-- A word between delimiters has only bytes of the text, none a delimiter. -/
theorem mem_of_mem_splitOnP
    {delimiter : UInt8 -> Bool} {text word : Bytes}
    (found : word ∈ text.splitOnP delimiter) :
    ∀ byte, byte ∈ word -> byte ∈ text ∧ delimiter byte = false := by
  induction text generalizing word with
  | nil =>
      simp only [List.splitOnP_nil, List.mem_singleton] at found
      subst found
      intro byte present
      cases present
  | cons first text inductionHypothesis =>
      rw [List.splitOnP_cons_eq_if_modifyHead] at found
      split at found
      case isTrue =>
        rcases List.mem_cons.mp found with rfl | later
        · intro byte present
          cases present
        · intro byte present
          obtain ⟨inText, kept⟩ := inductionHypothesis later byte present
          exact ⟨List.mem_cons_of_mem _ inText, kept⟩
      case isFalse notDelimiter =>
        cases split : text.splitOnP delimiter with
        | nil => simp [split] at found
        | cons head others =>
            rw [split, List.modifyHead_cons] at found
            rcases List.mem_cons.mp found with rfl | later
            · intro byte present
              rcases List.mem_cons.mp present with rfl | inHead
              · exact ⟨List.mem_cons_self, by simpa using notDelimiter⟩
              · obtain ⟨inText, kept⟩ := inductionHypothesis
                  (split ▸ List.mem_cons_self) byte inHead
                exact ⟨List.mem_cons_of_mem _ inText, kept⟩
            · intro byte present
              obtain ⟨inText, kept⟩ := inductionHypothesis
                (split ▸ List.mem_cons_of_mem _ later) byte present
              exact ⟨List.mem_cons_of_mem _ inText, kept⟩

/-- Lines are terminated strings without inner terminators. -/
theorem zero_not_mem_fileLines
    {file line : Bytes} (visited : line ∈ fileLines file) : 0 ∉ line := by
  intro present
  have split := (List.mem_filter.mp visited).1
  exact zero_not_mem_takeWhile file (mem_of_mem_splitOnP split 0 present).1

/-- The entries are numbered behind the first line. -/
theorem getElem?_fileLines
    {file line : Bytes} {before after : List Bytes}
    (split : (fileLines file).tail = before ++ line :: after) :
    (fileLines file)[1 + before.length]? = some line := by
  rw [Nat.add_comm, ← List.getElem?_tail, split]
  simp

/-- The buffer is the text of the file followed by a terminator. -/
theorem exists_buffer_eq (file : Bytes) :
    ∃ rest, file ++ calloc 4 = (file.takeWhile fun byte => byte ≠ 0) ++ 0 :: rest :=
  exists_terminated file (calloc 3)

/-- The copy of the file is the whole buffer. -/
theorem read_buffer (file : Bytes) :
    read (regionOf (file ++ calloc 4)) 0 (file.length + 4) = .ok (file ++ calloc 4) := by
  have length : (file ++ calloc 4).length = file.length + 4 := by simp
  rw [read_regionOf _ _ _ (by omega), List.drop_zero, List.take_of_length_le (by omega)]

/-- A `strtok` loop over the copy of the buffer visits the lines of the file. -/
theorem strtok_buffer (file : Bytes) :
    ∃ token, strtok lineDelimiters (file ++ calloc 4) = .ok token ∧
      Visits lineDelimiters token (fileLines file) := by
  obtain ⟨rest, terminated⟩ := exists_buffer_eq file
  rw [terminated]
  exact strtok_visits lineDelimiters _ rest (zero_not_mem_takeWhile file) (by decide)

end Table

theorem MappingTable.line_wellFormed
    (table : MappingTable) {line : Bytes} (visited : line ∈ table.lines) :
    Table.WellFormedLine line ∧ 0 ∉ line :=
  ⟨table.wellFormed line visited, Table.zero_not_mem_fileLines visited⟩

namespace Table

/-! ## Files with given lines -/

/-- The file that holds each line followed by LF. -/
def renderLines (lines : List Bytes) : Bytes :=
  lines.flatMap fun line => line ++ [0x0A]

/-- A byte that may stand inside a line. -/
def LineByte (byte : UInt8) : Prop := byte ≠ 0 ∧ byte ∉ lineDelimiters

instance (byte : UInt8) : Decidable (LineByte byte) :=
  inferInstanceAs (Decidable (_ ∧ _))

theorem wellFormedLine_iff (line : Bytes) :
    WellFormedLine line ↔ separator ∈ line ∧
      (leftPart line).length < splitSize ∧ (rightPart line).length < splitSize :=
  ⟨fun ⟨separated, left, right⟩ => ⟨separated, left, right⟩,
    fun ⟨separated, left, right⟩ => ⟨separated, left, right⟩⟩

instance (line : Bytes) : Decidable (WellFormedLine line) :=
  decidable_of_iff _ (wellFormedLine_iff line).symm

/-- A well-formed line that can be written to a file. -/
def Writable (line : Bytes) : Prop :=
  WellFormedLine line ∧ ∀ byte, byte ∈ line -> LineByte byte

instance (line : Bytes) : Decidable (Writable line) :=
  have : Decidable (∀ byte, byte ∈ line -> LineByte byte) := List.decidableBAll _ line
  inferInstanceAs (Decidable (_ ∧ _))

/-- Only line breaks. -/
def LineBreaks (bytes : Bytes) : Prop := ∀ byte, byte ∈ bytes -> byte ∈ lineDelimiters

theorem LineBreaks.ne_zero {breaks : Bytes} (only : LineBreaks breaks) :
    ∀ byte, byte ∈ breaks -> byte ≠ 0 := by
  rintro byte present rfl
  exact absurd (only 0 present) (by decide)

theorem tokens_append_breaks
    {breaks : Bytes} (rest : Bytes) (only : LineBreaks breaks) :
    tokens lineDelimiters (breaks ++ rest) = tokens lineDelimiters rest := by
  induction breaks with
  | nil => rfl
  | cons byte breaks inductionHypothesis =>
      rw [List.cons_append, tokens_cons_delimiter _ (only byte List.mem_cons_self)]
      exact inductionHypothesis fun other present =>
        only other (List.mem_cons_of_mem _ present)

/-- A line ends at a break or at the end of the text. -/
theorem tokens_line_append
    {line breaks : Bytes} (rest : Bytes)
    (nonempty : line ≠ []) (lineBytes : ∀ byte, byte ∈ line -> LineByte byte)
    (only : LineBreaks breaks) (ends : breaks ≠ [] ∨ rest = []) :
    tokens lineDelimiters (line ++ (breaks ++ rest)) =
      line :: tokens lineDelimiters rest := by
  have inner : ∀ byte, byte ∈ line -> decide (byte ∈ lineDelimiters) = false :=
    fun byte present => by simpa using (lineBytes byte present).2
  cases breaks with
  | nil =>
      have noRest := ends.resolve_left (absurd rfl)
      have whole : line.splitOnP (fun byte => byte ∈ lineDelimiters) = [line] :=
        List.splitOnP_eq_singleton inner
      rw [noRest, List.append_nil, List.append_nil, tokens, whole]
      simp [nonempty]
  | cons byte breaks =>
      have delimiter : decide (byte ∈ lineDelimiters) = true :=
        decide_eq_true (only byte List.mem_cons_self)
      have split := List.splitOnP_append_cons_of_forall_mem inner byte delimiter
        (breaks ++ rest)
      rw [List.cons_append, tokens, split, List.filter_cons_of_pos (by simpa using nonempty)]
      exact congrArg (line :: ·) (tokens_append_breaks rest fun other present =>
        only other (List.mem_cons_of_mem _ present))

/-- A `strtok` loop over a rendered file visits exactly the rendered lines. -/
theorem fileLines_renderLines
    {lines : List Bytes}
    (nonempty : ∀ line, line ∈ lines -> line ≠ [])
    (lineBytes : ∀ line, line ∈ lines -> ∀ byte, byte ∈ line -> LineByte byte) :
    fileLines (renderLines lines) = lines := by
  have noZero : (renderLines lines).takeWhile (fun byte => byte ≠ 0) =
      renderLines lines := by
    apply List.takeWhile_eq_self_iff.mpr
    intro byte present
    obtain ⟨line, inLines, inLine⟩ := List.mem_flatMap.mp present
    rcases List.mem_append.mp inLine with inside | ending
    · simpa using (lineBytes line inLines byte inside).1
    · rw [List.mem_singleton.mp ending]
      rfl
  rw [fileLines, noZero]
  clear noZero
  induction lines with
  | nil => simp [renderLines]
  | cons line lines inductionHypothesis =>
      have rest := inductionHypothesis
        (fun other present => nonempty other (List.mem_cons_of_mem _ present))
        (fun other present => lineBytes other (List.mem_cons_of_mem _ present))
      have lineFeed : LineBreaks [0x0A] := by simp [LineBreaks]
      have first := tokens_line_append (renderLines lines)
        (nonempty line List.mem_cons_self) (lineBytes line List.mem_cons_self) lineFeed
        (Or.inl (by simp))
      rw [rest] at first
      simpa [renderLines] using first

/-- Lines have neither terminators nor delimiters. -/
theorem lineByte_of_mem_fileLines
    {file line : Bytes} (visited : line ∈ fileLines file) :
    ∀ byte, byte ∈ line -> LineByte byte := by
  intro byte present
  constructor
  · rintro rfl
    exact zero_not_mem_fileLines visited present
  · have split := (List.mem_filter.mp visited).1
    simpa using (mem_of_mem_splitOnP split byte present).2

/-- Every line of a table can be written again. -/
theorem writable_of_mem_lines
    {table : MappingTable} {line : Bytes} (visited : line ∈ table.lines) :
    Writable line :=
  ⟨table.wellFormed line visited, lineByte_of_mem_fileLines visited⟩

theorem fileLines_of_writable
    {lines : List Bytes} (writable : ∀ line, line ∈ lines -> Writable line) :
    fileLines (renderLines lines) = lines :=
  fileLines_renderLines
    (fun line present empty => by
      have separated := (writable line present).1.separated
      rw [empty] at separated
      cases separated)
    fun line present => (writable line present).2

end Table

namespace MappingTable

/-- The table with the given lines. -/
def ofLines
    (lines : List Bytes) (writable : ∀ line, line ∈ lines -> Table.Writable line) :
    MappingTable where
  file := Table.renderLines lines
  wellFormed := by
    rw [Table.fileLines_of_writable writable]
    exact fun line present => (writable line present).1

@[simp] theorem lines_ofLines
    (lines : List Bytes) (writable : ∀ line, line ∈ lines -> Table.Writable line) :
    (ofLines lines writable).lines = lines :=
  Table.fileLines_of_writable writable

/-- The table `0|0`, `b|c`. -/
def letters : MappingTable :=
  ofLines [[0x30, 0x7C, 0x30], [0x62, 0x7C, 0x63]] (by decide)

end MappingTable
end UnityLocalization
