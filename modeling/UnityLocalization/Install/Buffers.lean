import UnityLocalization.Install.ReadFile

/-!
# The buffers of the start-up

`getPackageName` copies the package name into a block of `strlen` bytes, without room
for the terminator.  The path buffer and the part buffers have fixed sizes.
-/

namespace UnityLocalization
namespace Install

open CMemory Table

/-- `getPackageName(env)`, where `srcStr` is the C string of the name, and missing
without an application context. -/
def getPackageName (srcStr : Option Bytes) : Checked (Option Bytes) :=
  match srcStr with
  | none => .ok none
  | some srcStr => do
      let length ← strlen srcStr
      let strTmp ← strcpy (calloc length) srcStr
      return some strTmp

/-- The terminator is written behind the block, whatever the name is. -/
theorem getPackageName_overrun {name : Bytes} (terminated : 0 ∉ name) :
    getPackageName (some (name ++ [0])) = .error .outOfBounds := by
  have outside : ¬0 + (name ++ [0]).length ≤ (calloc name.length).length := by simp
  rw [getPackageName, strlen_terminated name [] terminated, ok_bind,
    strcpy_eq_write _ name [] terminated, write, if_neg outside]
  rfl

/-- The parts of the address line are written inside their buffers exactly if the left
part has at most 50 bytes and the right part, with its terminator, too. -/
theorem splitAddressLine_writes_iff
    {line : Bytes} (separated : separator ∈ line) (terminated : 0 ∉ line) :
    (∃ parts, splitAddressLine (calloc addressSize) (calloc addressSize) (line ++ [0]) =
        .ok parts) ↔
      (leftPart line).length ≤ 50 ∧ (rightPart line).length ≤ 49 := by
  have cleared : memset (calloc addressSize) 0 20 = .ok (calloc addressSize) := rfl
  rw [splitAddressLine, cleared, ok_bind, ok_bind,
    copyParts_separated _ _ separated terminated]
  constructor
  · rintro ⟨parts, written⟩
    obtain ⟨leftAfter, leftWritten, written⟩ := bind_eq_ok.mp written
    obtain ⟨rightAfter, rightWritten, -⟩ := bind_eq_ok.mp written
    have leftFits := le_of_write leftWritten
    have rightFits := le_of_write rightWritten
    simp only [List.length_append, List.length_singleton, length_calloc, addressSize]
      at leftFits rightFits
    omega
  · rintro ⟨leftFits, rightFits⟩
    rw [write_calloc leftFits, ok_bind,
      write_calloc_terminated (show (rightPart line).length < addressSize from
        Nat.lt_succ_of_le rightFits), ok_bind]
    exact ⟨_, rfl⟩

/-- Every write from `JNI_OnLoad` to the address line is inside its buffer: the copy of
the name, the path, and the parts of the first line of the file. -/
structure WritesInside (name : PackageName) (file : Bytes) : Prop where
  copy : ∃ strTmp, getPackageName (some name.string) = .ok strTmp
  path : ∃ path, buildPath (some name.string) = .ok path
  parts : ∀ line, (fileLines file).head? = some line ->
    ∃ parts, splitAddressLine (calloc addressSize) (calloc addressSize) (line ++ [0]) =
      .ok parts

/-- The path is written inside its buffer exactly for names of at most 169 bytes. -/
theorem buildPath_writes_iff (name : PackageName) :
    (∃ path, buildPath (some name.string) = .ok path) ↔ name.text.length ≤ 169 := by
  rw [PackageName.string, buildPath_eq name.text_terminated]
  by_cases fits : name.text.length ≤ 169
  · simp [fits]
  · simp [fits]

/-- The copy of the name is never inside its block. -/
theorem not_writesInside (name : PackageName) (file : Bytes) : ¬WritesInside name file := by
  intro inside
  obtain ⟨strTmp, returned⟩ := inside.copy
  rw [PackageName.string, getPackageName_overrun name.text_terminated] at returned
  cases returned

/-- The copy of the name never fits, the path fits exactly with a name of at most 169
bytes, and the parts exactly if the left one has at most 50 bytes and the right one at
most 49. -/
theorem not_writesInside_and_bounds
    (name : PackageName) {file line : Bytes}
    (first : (fileLines file).head? = some line) (separated : separator ∈ line) :
    ¬WritesInside name file ∧
      ((∃ path, buildPath (some name.string) = .ok path) ↔ name.text.length ≤ 169) ∧
      ((∃ parts, splitAddressLine (calloc addressSize) (calloc addressSize) (line ++ [0]) =
          .ok parts) ↔
        (leftPart line).length ≤ 50 ∧ (rightPart line).length ≤ 49) :=
  ⟨not_writesInside name file, buildPath_writes_iff name,
    splitAddressLine_writes_iff separated
      (zero_not_mem_fileLines (List.mem_of_mem_head? first))⟩

theorem not_writesInside_and_bounds_letters :
    ¬WritesInside shortName MappingTable.letters.file ∧
      ((∃ path, buildPath (some shortName.string) = .ok path) ↔
        shortName.text.length ≤ 169) ∧
      ((∃ parts, splitAddressLine (calloc addressSize) (calloc addressSize)
            ([0x30, 0x7C, 0x30] ++ [0]) = .ok parts) ↔
        (leftPart [0x30, 0x7C, 0x30]).length ≤ 50 ∧
          (rightPart [0x30, 0x7C, 0x30]).length ≤ 49) :=
  not_writesInside_and_bounds shortName
    (by decide +kernel : (fileLines MappingTable.letters.file).head? =
      some [0x30, 0x7C, 0x30])
    (by decide)

/-- The name `a` is copied with its terminator into a block of one byte. -/
theorem getPackageName_shortName : ¬WritesInside shortName MappingTable.letters.file :=
  not_writesInside shortName MappingTable.letters.file

end Install
end UnityLocalization
