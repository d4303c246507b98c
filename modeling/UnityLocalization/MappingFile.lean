import UnityLocalization.Table

/-!
# Writing a mapping file

A mapping file as it is meant to be written: a header and entries, separated by
runs of line breaks.  The lines a `strtok` loop visits are those written.
-/

namespace UnityLocalization

open CMemory Table

/-- The two texts of a line. -/
structure Entry where
  left : Bytes
  right : Bytes
  deriving DecidableEq

namespace Entry

/-- The line `left|right`. -/
def line (entry : Entry) : Bytes := entry.left ++ separator :: entry.right

/-- Texts that can be written to a line and are shorter than the limit.  Only
the left one must not contain the separator. -/
structure Writable (entry : Entry) (limit : Nat) : Prop where
  left_bytes : ∀ byte, byte ∈ entry.left -> LineByte byte
  right_bytes : ∀ byte, byte ∈ entry.right -> LineByte byte
  left_unseparated : separator ∉ entry.left
  left_short : entry.left.length < limit
  right_short : entry.right.length < limit

theorem line_ne_nil (entry : Entry) : entry.line ≠ [] := by
  simp [line]

variable {entry : Entry} {limit : Nat}

theorem Writable.parts (writable : entry.Writable limit) :
    leftPart entry.line = entry.left ∧ rightPart entry.line = entry.right :=
  parts_of_split entry.right writable.left_unseparated

theorem Writable.lineByte (writable : entry.Writable limit) :
    ∀ byte, byte ∈ entry.line -> LineByte byte := by
  intro byte present
  rcases List.mem_append.mp present with left | right
  · exact writable.left_bytes byte left
  · rcases List.mem_cons.mp right with rfl | right
    · decide
    · exact writable.right_bytes byte right

theorem Writable.wellFormedLine
    (writable : entry.Writable limit) (bounded : limit ≤ splitSize) :
    WellFormedLine entry.line := by
  obtain ⟨left, right⟩ := writable.parts
  refine ⟨by simp [line], ?_, ?_⟩
  · rw [left]
    exact Nat.lt_of_lt_of_le writable.left_short bounded
  · rw [right]
    exact Nat.lt_of_lt_of_le writable.right_short bounded

end Entry

/-- An entry behind the line breaks that separate it from the line before. -/
structure SeparatedEntry where
  breaks : Bytes
  entry : Entry
  breaks_only : LineBreaks breaks
  breaks_nonempty : breaks ≠ []
  writable : entry.Writable splitSize

/-- A header whose texts are shorter than 50 bytes, and the entries. -/
structure MappingFile where
  leading : Bytes
  header : Entry
  entries : List SeparatedEntry
  trailing : Bytes
  leading_breaks : LineBreaks leading
  header_writable : header.Writable 50
  trailing_breaks : LineBreaks trailing

/-- The entries as they are written. -/
def renderEntries (entries : List SeparatedEntry) : Bytes :=
  entries.flatMap fun separated => separated.breaks ++ separated.entry.line

namespace MappingFile

/-- The content of the file. -/
def bytes (file : MappingFile) : Bytes :=
  file.leading ++ (file.header.line ++ (renderEntries file.entries ++ file.trailing))

/-- The lines written, the header first. -/
def lines (file : MappingFile) : List Bytes :=
  file.header.line :: file.entries.map fun separated => separated.entry.line

end MappingFile

/-! ## Reading the lines back -/

/-- The lines behind a line are those written. -/
theorem tokens_renderEntries
    {line : Bytes} (nonempty : line ≠ [])
    (lineBytes : ∀ byte, byte ∈ line -> LineByte byte)
    (entries : List SeparatedEntry) {trailing : Bytes} (only : LineBreaks trailing) :
    tokens lineDelimiters (line ++ (renderEntries entries ++ trailing)) =
      line :: entries.map fun separated => separated.entry.line := by
  induction entries generalizing line with
  | nil =>
      have ended := tokens_line_append [] nonempty lineBytes only (Or.inr rfl)
      simpa [renderEntries] using ended
  | cons separated entries inductionHypothesis =>
      have rest := inductionHypothesis separated.entry.line_ne_nil
        separated.writable.lineByte
      have first := tokens_line_append
        (separated.entry.line ++ (renderEntries entries ++ trailing)) nonempty lineBytes
        separated.breaks_only (Or.inl separated.breaks_nonempty)
      rw [rest] at first
      simpa [renderEntries] using first

namespace MappingFile

theorem ne_zero_of_mem_bytes (file : MappingFile) :
    ∀ byte, byte ∈ file.bytes -> byte ≠ 0 := by
  intro byte present
  simp only [bytes, renderEntries, List.mem_append, List.mem_flatMap] at present
  rcases present with leading | header | ⟨separated, -, breaks | entry⟩ | trailing
  · exact file.leading_breaks.ne_zero byte leading
  · exact (file.header_writable.lineByte byte header).1
  · exact separated.breaks_only.ne_zero byte breaks
  · exact (separated.writable.lineByte byte entry).1
  · exact file.trailing_breaks.ne_zero byte trailing

/-- The lines visited are exactly those written. -/
theorem fileLines_bytes (file : MappingFile) : fileLines file.bytes = file.lines := by
  have noZero : file.bytes.takeWhile (fun byte => byte ≠ 0) = file.bytes :=
    List.takeWhile_eq_self_iff.mpr fun byte present =>
      by simpa using file.ne_zero_of_mem_bytes byte present
  rw [fileLines, noZero, bytes, tokens_append_breaks _ file.leading_breaks]
  exact tokens_renderEntries file.header.line_ne_nil file.header_writable.lineByte
    file.entries file.trailing_breaks

/-- The table a mapping file holds. -/
def table (file : MappingFile) : MappingTable where
  file := file.bytes
  wellFormed := by
    rw [fileLines_bytes]
    intro line present
    rcases List.mem_cons.mp present with rfl | entry
    · exact file.header_writable.wellFormedLine (by decide)
    · obtain ⟨separated, -, rfl⟩ := List.mem_map.mp entry
      exact separated.writable.wellFormedLine le_rfl

end MappingFile
end UnityLocalization
