import UnityLocalization.TextHook.Search

/-!
# Buffer bounds at the documented limit

`SplitSize` is documented as the largest size of the two parts of a line.  A
right part of that size leaves no room for its terminator, and a left part of
that size has none.  The accessors stay in bounds exactly when they try no such
line.
-/

namespace UnityLocalization
namespace TextHook

open CMemory Tools Table

/-- A file within the documented limit. -/
def WithinLimit (file : Bytes) : Prop :=
  ∀ line, line ∈ fileLines file -> separator ∈ line ∧
    (leftPart line).length ≤ splitSize ∧ (rightPart line).length ≤ splitSize

/-- Every access was inside its buffer: the others fault. -/
def StaysInBounds (result : Checked α) : Prop := ∃ value, result = .ok value

/-- The right part leaves room for its terminator. -/
def RightShort (line : Bytes) : Prop := (rightPart line).length < splitSize

/-- So does the left part, unless it stops the converter. -/
def PartsShort (line : Bytes) : Prop := RightShort line ∧ LeftConverts line

/-- Within the limit the lines fit exactly if their parts leave that room. -/
theorem linesFit_iff_short
    {text file : Bytes} (within : WithinLimit file) :
    LinesFit text (fileLines file) ↔
      TriedLines RightShort PartsShort text (fileLines file) := by
  rw [linesFit_iff_triedLines]
  apply triedLines_congr
  · intro line present
    obtain ⟨separated, leftFits, -⟩ := within line present
    exact ⟨fun fits => fits.right_short, fun short => ⟨separated, leftFits, short⟩⟩
  · intro line present
    obtain ⟨separated, leftFits, -⟩ := within line present
    exact ⟨fun fits => ⟨fits.right_short, fits.left_converts⟩,
      fun short => ⟨⟨separated, leftFits, short.1⟩, short.2⟩⟩

/-- Both accessors stay in bounds exactly when they do not walk the table, or
try only lines that leave room for the terminators; what the getter dumps can be
dumped. -/
theorem staysInBounds_iff
    {file : Bytes} {endPointer : UInt32} {globals : Globals}
    (loaded : Loaded file endPointer globals)
    (within : WithinLimit file)
    (arg : UInt32) (arg1 : Option Region) (arg2 arg3 : UInt32)
    (string : Il2CppString) (tail : Nat -> UInt8) (dumpable : Dumpable arg1 string.size) :
    (StaysInBounds
        (newFuncSet globals arg (some (readable (string.image tail))) arg2 arg3) ↔
      string.units = [] ∨
        TriedLines RightShort PartsShort (searchedText endPointer string)
          (fileLines file)) ∧
    (StaysInBounds
        (newFuncGet globals (some (readable (string.image tail))) arg arg1 arg2 arg3) ↔
      GetterSkips arg string ∨
        TriedLines RightShort PartsShort (searchedText endPointer string)
          (fileLines file)) := by
  rw [← linesFit_iff_short within]
  exact ⟨newFuncSet_returns_iff loaded arg arg2 arg3 string tail,
    newFuncGet_returns_iff loaded arg arg1 arg2 arg3 string tail dumpable⟩

/-- The line `a|` with a right part of the given length. -/
def lineOfLength (length : Nat) : Bytes :=
  [0x61] ++ separator :: List.replicate length 0x62

theorem parts_lineOfLength (length : Nat) :
    leftPart (lineOfLength length) = [0x61] ∧
      rightPart (lineOfLength length) = List.replicate length 0x62 :=
  parts_of_split _ (by decide)

/-- The file `0|0` with one entry of that kind. -/
def rightOfLength (length : Nat) : Bytes :=
  renderLines [[0x30, 0x7C, 0x30], lineOfLength length]

theorem fileLines_rightOfLength (length : Nat) :
    fileLines (rightOfLength length) = [[0x30, 0x7C, 0x30], lineOfLength length] := by
  apply fileLines_renderLines
  · simp [lineOfLength]
  · intro line present byte inside
    rcases List.mem_pair.mp present with rfl | rfl
    · simp only [List.mem_cons, List.not_mem_nil, or_false] at inside
      rcases inside with rfl | rfl | rfl <;> decide
    · simp only [lineOfLength, List.mem_append, List.mem_cons, List.not_mem_nil,
        or_false, List.mem_replicate] at inside
      rcases inside with rfl | rfl | ⟨-, rfl⟩ <;> decide

theorem withinLimit_rightOfLength {length : Nat} (short : length ≤ splitSize) :
    WithinLimit (rightOfLength length) := by
  intro line present
  rw [fileLines_rightOfLength] at present
  rcases List.mem_pair.mp present with rfl | rfl
  · decide
  · obtain ⟨left, right⟩ := parts_lineOfLength length
    rw [left, right, List.length_replicate]
    exact ⟨by simp [lineOfLength], by decide, short⟩

theorem staysInBounds_iff_rightOfLength :
    (StaysInBounds
        (newFuncSet (afterLoad (rightOfLength 99) 0x10) 1
          (some (readable (Il2CppString.lateCapital.image fun _ => 0))) 2 3) ↔
      Il2CppString.lateCapital.units = [] ∨
        TriedLines RightShort PartsShort (searchedText 0x10 .lateCapital)
          (fileLines (rightOfLength 99))) ∧
    (StaysInBounds
        (newFuncGet (afterLoad (rightOfLength 99) 0x10)
          (some (readable (Il2CppString.lateCapital.image fun _ => 0))) 1 none 2 3) ↔
      GetterSkips 1 .lateCapital ∨
        TriedLines RightShort PartsShort (searchedText 0x10 .lateCapital)
          (fileLines (rightOfLength 99))) :=
  staysInBounds_iff (loaded_afterLoad (rightOfLength 99) 0x10)
    (withinLimit_rightOfLength (by decide)) 1 none 2 3 .lateCapital (fun _ => 0)
    (dumpable_none _)

/-- A right part of `splitSize` bytes is within the limit and overflows its
buffer in both accessors. -/
theorem overflow_at_limit :
    WithinLimit (rightOfLength splitSize) ∧
      ¬StaysInBounds
        (newFuncSet (afterLoad (rightOfLength splitSize) 0x10) 1
          (some (readable (Il2CppString.lateCapital.image fun _ => 0))) 2 3) ∧
      ¬StaysInBounds
        (newFuncGet (afterLoad (rightOfLength splitSize) 0x10)
          (some (readable (Il2CppString.lateCapital.image fun _ => 0))) 1 none 2 3) := by
  have loaded := loaded_afterLoad (rightOfLength splitSize) 0x10
  have overflows :
      ¬LinesFit (searchedText 0x10 .lateCapital) (fileLines (rightOfLength splitSize)) := by
    rw [fileLines_rightOfLength]
    intro fits
    have short := (fits.entries [] _ [] rfl rfl).right_short
    rw [(parts_lineOfLength splitSize).2, List.length_replicate] at short
    exact absurd short (lt_irrefl splitSize)
  exact ⟨withinLimit_rightOfLength le_rfl,
    accessors_fault loaded (by decide) 2 3 1 none _ (dumpable_none _) overflows⟩

end TextHook
end UnityLocalization
