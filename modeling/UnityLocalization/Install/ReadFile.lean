import UnityLocalization.Install.FirstLine

/-!
# Reading the mapping file

`readFile` copies the mapping file into `buffer` and removes it.  What the system
answers to its calls is arbitrary.  The memory for the file is cleared before it is
checked.
-/

namespace UnityLocalization
namespace Install

open CMemory Table

/-- A name of an Android package. -/
structure PackageName where
  text : Bytes
  text_ne_nil : text ≠ []
  text_length : text.length ≤ 255
  text_terminated : 0 ∉ text

/-- The name as a C string. -/
def PackageName.string (name : PackageName) : Bytes := name.text ++ [0]

/-- `/data/data/` -/
def dataDirectory : Bytes :=
  [0x2F, 0x64, 0x61, 0x74, 0x61, 0x2F, 0x64, 0x61, 0x74, 0x61, 0x2F]

/-- `/cache/sh_mime_type` -/
def fileInCache : Bytes :=
  [0x2F, 0x63, 0x61, 0x63, 0x68, 0x65, 0x2F, 0x73, 0x68, 0x5F, 0x6D, 0x69, 0x6D, 0x65,
    0x5F, 0x74, 0x79, 0x70, 0x65]

/-- The path of the file, where `packageName` is the pointer `getPackageName`
returns. -/
def buildPath (packageName : Option Bytes) : Checked Bytes := do
  let path ← strcat (calloc 200) (dataDirectory ++ [0])
  let name ← deref packageName
  let path ← strcat path name
  strcat path (fileInCache ++ [0])

/-- The file and what the calls made for it do: `fopen` succeeds, `malloc` returns a
block with this content or null, `fread` delivers at most so many bytes, and
`remove` succeeds. -/
structure Attempt where
  content : Bytes
  opened : Bool
  block : Option (Nat -> UInt8)
  delivered : Nat
  removed : Bool

/-- `ftell` at the end of a file, with a 32-bit `long`. -/
def ftell (size : Nat) : Int := if size < 2147483648 then size else -1

/-- Conversion to a 32-bit `size_t`. -/
def toSize (value : Int) : Nat := (value % 4294967296).toNat

/-- `fread(block, 1, count, pFile)` -/
def fread (attempt : Attempt) (block : Bytes) (count : Nat) : Checked (Bytes × Nat) := do
  let result := min attempt.delivered (min count attempt.content.length)
  let block ← write block 0 (attempt.content.take result)
  return (block, result)

/-- What a call of `readFile` leaves behind: the globals `file_size` and `buffer`, and
whether the file is still there. -/
structure ReadResult where
  returned : Int
  fileSize : Int
  buffer : Option Bytes
  onDisk : Bool
  deriving DecidableEq

/-- `readFile(pEnv)` -/
def readFile (packageName : Option Bytes) (attempt : Attempt) : Checked ReadResult := do
  let _ ← buildPath packageName
  if attempt.opened = false then return ⟨-1, 0, none, true⟩
  else do
    let fileSize := ftell attempt.content.length
    let size := toSize (fileSize + 4)
    let buffer := attempt.block.map fun content => bytesAt content 0 size
    let block ← deref buffer
    let block ← memset block 0 size
    if buffer.isNone then return ⟨-1, fileSize, none, true⟩
    else do
      let (block, result) ← fread attempt block (toSize fileSize)
      if result ≠ toSize fileSize then return ⟨-1, fileSize, some block, true⟩
      else return ⟨0, fileSize, some block, !attempt.removed⟩

/-- `JNI_OnLoad` from `readFile` on. -/
def onLoad
    (environment : Environment) (packageName : Option Bytes) (attempt : Attempt) :
    Checked (ReadResult × State) := do
  let result ← readFile packageName attempt
  if result.returned ≠ -1 then do
    let buffer ← deref result.buffer
    let addresses ← initAddressFromFile buffer result.fileSize.toNat ⟨0, 0⟩
    let state ← jniOnLoad environment
      (some (UInt32.ofInt addresses.addressGet, UInt32.ofInt addresses.addressSet))
    return (result, state)
  else do
    let state ← jniOnLoad environment none
    return (result, state)

/-! ## The path -/

/-- The path fits its buffer with a name of at most 169 bytes. -/
theorem buildPath_eq {name : Bytes} (terminated : 0 ∉ name) :
    buildPath (some (name ++ [0])) =
      if name.length ≤ 169 then
        .ok (dataDirectory ++ name ++ fileInCache ++ 0 :: calloc (169 - name.length))
      else .error .outOfBounds := by
  have started : strcat (calloc 200) (dataDirectory ++ [0]) =
      .ok (dataDirectory ++ 0 :: calloc 188) := by decide +kernel
  have inFront : (0 : UInt8) ∉ dataDirectory := by decide
  rw [buildPath, started, ok_bind, deref_some, ok_bind,
    strcat_terminated (calloc 188) [] inFront terminated]
  by_cases middle : name.length ≤ 188
  · have front : 0 ∉ dataDirectory ++ name := by
      simp [inFront, terminated]
    have room : fileInCache.length ≤ 188 - name.length ↔ name.length ≤ 169 := by
      rw [show fileInCache.length = 19 from rfl]
      omega
    have rest : 188 - name.length - fileInCache.length = 169 - name.length := by
      rw [show fileInCache.length = 19 from rfl]
      omega
    rw [length_calloc, if_pos middle, ok_bind, drop_calloc,
      strcat_terminated (calloc (188 - name.length)) [] front
        (show (0 : UInt8) ∉ fileInCache by decide), length_calloc, drop_calloc, rest]
    simp only [room]
  · rw [length_calloc, if_neg middle, if_neg (by omega)]
    rfl

/-! ## Reading the file -/

/-- The file is in the buffer, followed by zeros, and has been removed. -/
structure Stored (content : Bytes) (result : ReadResult) : Prop where
  fileSize : result.fileSize = content.length
  buffer : result.buffer = some (content ++ calloc 4)
  removed : result.onDisk = false

/-- The file is still there, and no hook is installed. -/
structure LeftAlone
    (packageName : Option Bytes) (attempt : Attempt) (result : ReadResult) : Prop where
  onDisk : result.onDisk = true
  unhooked : ∀ environment, ∃ state,
    onLoad environment packageName attempt = .ok (result, state) ∧ state.hooks = []

/-- `readFile` returns, and either has stored and removed the file or has left it
alone. -/
def AllOrNothing (packageName : Option Bytes) (attempt : Attempt) : Prop :=
  ∃ result, readFile packageName attempt = .ok result ∧
    (result.returned = 0 ∧ Stored attempt.content result ∨
      result.returned = -1 ∧ LeftAlone packageName attempt result)

/-- Without a file nothing is installed. -/
theorem onLoad_of_failed
    {packageName : Option Bytes} {attempt : Attempt} {result : ReadResult}
    (read : readFile packageName attempt = .ok result) (failed : result.returned = -1)
    (environment : Environment) :
    onLoad environment packageName attempt = .ok (result, initial 0 0) := by
  rw [onLoad, read, ok_bind, if_neg (not_not.mpr failed)]
  rfl

/-- A failed call that leaves the file leaves it alone. -/
theorem allOrNothing_of_failed
    {packageName : Option Bytes} {attempt : Attempt} {result : ReadResult}
    (read : readFile packageName attempt = .ok result) (failed : result.returned = -1)
    (onDisk : result.onDisk = true) :
    AllOrNothing packageName attempt :=
  ⟨result, read, .inr ⟨failed, onDisk, fun environment =>
    ⟨initial 0 0, onLoad_of_failed read failed environment, rfl⟩⟩⟩

theorem not_allOrNothing_of_fault
    {packageName : Option Bytes} {attempt : Attempt} {fault : Fault}
    (faulted : readFile packageName attempt = .error fault) :
    ¬AllOrNothing packageName attempt := by
  rintro ⟨result, returned, -⟩
  rw [faulted] at returned
  cases returned

section

variable {name : Bytes} (terminated : 0 ∉ name) (fits : name.length ≤ 169)
  {attempt : Attempt} (opened : attempt.opened = true)

include terminated fits opened

/-- Clearing a null block follows the null pointer. -/
theorem readFile_of_null (null : attempt.block = none) :
    readFile (some (name ++ [0])) attempt = .error .nullDereference := by
  rw [readFile, buildPath_eq terminated, if_pos fits, ok_bind, opened, if_neg (by decide),
    null]
  rfl

/-- The block has room for the file and four bytes more; all of it is zero before
`fread` fills it. -/
theorem readFile_of_block (allocated : attempt.block.isSome) :
    readFile (some (name ++ [0])) attempt =
      let fileSize := ftell attempt.content.length
      fread attempt (calloc (toSize (fileSize + 4))) (toSize fileSize) >>= fun read =>
        if read.2 ≠ toSize fileSize then .ok ⟨-1, fileSize, some read.1, true⟩
        else .ok ⟨0, fileSize, some read.1, !attempt.removed⟩ := by
  obtain ⟨content, block⟩ := Option.isSome_iff_exists.mp allocated
  have cleared : memset (bytesAt content 0 (toSize (ftell attempt.content.length + 4))) 0
      (toSize (ftell attempt.content.length + 4)) =
        .ok (calloc (toSize (ftell attempt.content.length + 4))) := by
    rw [memset_of_le _ _ _ (by simp), List.drop_of_length_le (by simp)]
    simp [calloc]
  rw [readFile, buildPath_eq terminated, if_pos fits, ok_bind, opened, if_neg (by decide),
    block]
  simp only [Option.map_some, deref_some, ok_bind, cleared]
  rfl

/-- A file whose size is a `long` is stored if it is read as a whole. -/
theorem readFile_of_small
    (allocated : attempt.block.isSome) (small : attempt.content.length < 2147483648) :
    readFile (some (name ++ [0])) attempt = .ok
      (if attempt.delivered < attempt.content.length then
        ⟨-1, attempt.content.length,
          some (attempt.content.take attempt.delivered ++
            calloc (attempt.content.length + 4 - attempt.delivered)), true⟩
      else ⟨0, attempt.content.length, some (attempt.content ++ calloc 4),
        !attempt.removed⟩) := by
  have fileSize : ftell attempt.content.length = attempt.content.length := if_pos small
  have count : toSize attempt.content.length = attempt.content.length := by
    rw [toSize]
    omega
  have size : toSize (attempt.content.length + 4 : Int) = attempt.content.length + 4 := by
    rw [toSize]
    omega
  rw [readFile_of_block terminated fits opened allocated, fileSize]
  dsimp only
  rw [count, size, fread, Nat.min_self]
  by_cases short : attempt.delivered < attempt.content.length
  · rw [if_pos short, Nat.min_eq_left (Nat.le_of_lt short), write_calloc (by
      rw [List.length_take]
      omega)]
    simp [Nat.ne_of_lt short, Nat.min_eq_left (Nat.le_of_lt short)]
  · have whole : attempt.content.length ≤ attempt.delivered := Nat.le_of_not_lt short
    rw [if_neg short, Nat.min_eq_right whole, List.take_length, write_calloc (by omega)]
    simp

/-- For a larger file `ftell` fails, the block has three bytes, and `fread` is asked
for the whole file. -/
theorem readFile_of_large
    (allocated : attempt.block.isSome) (large : 2147483648 ≤ attempt.content.length) :
    readFile (some (name ++ [0])) attempt =
      if attempt.delivered ≤ 3 then
        .ok ⟨-1, -1, some (attempt.content.take attempt.delivered ++
          calloc (3 - attempt.delivered)), true⟩
      else .error .outOfBounds := by
  have fileSize : ftell attempt.content.length = -1 := if_neg (Nat.not_lt.mpr large)
  have count : toSize (-1) = 4294967295 := rfl
  have size : toSize (-1 + 4) = 3 := rfl
  rw [readFile_of_block terminated fits opened allocated, fileSize]
  dsimp only
  rw [count, size, fread]
  by_cases few : attempt.delivered ≤ 3
  · have read : min attempt.delivered (min 4294967295 attempt.content.length) =
        attempt.delivered := by omega
    have taken : (attempt.content.take attempt.delivered).length = attempt.delivered := by
      rw [List.length_take]
      omega
    have short : attempt.delivered ≠ 4294967295 := by omega
    rw [if_pos few, read, write_calloc (by omega), taken]
    simp [short]
  · have outside : ¬0 + (attempt.content.take
        (min attempt.delivered (min 4294967295 attempt.content.length))).length ≤
          (calloc 3).length := by
      rw [List.length_take, length_calloc]
      omega
    rw [if_neg few, write, if_neg outside]
    rfl

theorem allOrNothing_iff_of_small
    (allocated : attempt.block.isSome) (small : attempt.content.length < 2147483648) :
    AllOrNothing (some (name ++ [0])) attempt ↔
      (attempt.content.length ≤ attempt.delivered -> attempt.removed = true) := by
  have read := readFile_of_small terminated fits opened allocated small
  by_cases short : attempt.delivered < attempt.content.length
  · rw [if_pos short] at read
    exact ⟨fun _ whole => absurd short (Nat.not_lt.mpr whole),
      fun _ => allOrNothing_of_failed read rfl rfl⟩
  · rw [if_neg short] at read
    constructor
    · rintro ⟨result, returned, outcome⟩ -
      rw [read] at returned
      cases returned
      rcases outcome with ⟨-, stored⟩ | ⟨failed, -⟩
      · simpa using stored.removed
      · exact absurd (show (0 : Int) = -1 from failed) (by decide)
    · intro removed
      refine ⟨_, read, .inl ⟨rfl, rfl, rfl, ?_⟩⟩
      simp [removed (Nat.le_of_not_lt short)]

theorem allOrNothing_iff_of_large
    (allocated : attempt.block.isSome) (large : 2147483648 ≤ attempt.content.length) :
    AllOrNothing (some (name ++ [0])) attempt ↔ attempt.delivered ≤ 3 := by
  have read := readFile_of_large terminated fits opened allocated large
  by_cases few : attempt.delivered ≤ 3
  · rw [if_pos few] at read
    exact ⟨fun _ => few, fun _ => allOrNothing_of_failed read rfl rfl⟩
  · rw [if_neg few] at read
    exact ⟨fun whole => absurd whole (not_allOrNothing_of_fault read),
      fun fewer => absurd fewer few⟩

end

/-- The outcomes that leave nothing half done: the file is not opened, or there is a
block for it and a file read as a whole is removed.  Of a file whose size is no `long`
at most three bytes may be read. -/
def NothingHalfDone (attempt : Attempt) : Prop :=
  attempt.opened = true ->
    attempt.block.isSome ∧
      (attempt.content.length < 2147483648 -> attempt.content.length ≤ attempt.delivered ->
        attempt.removed = true) ∧
      (2147483648 ≤ attempt.content.length -> attempt.delivered ≤ 3)

/-- `readFile` is all or nothing exactly if its path fits and the outcomes leave nothing
half done. -/
theorem allOrNothing_iff (name : PackageName) (attempt : Attempt) :
    AllOrNothing (some name.string) attempt ↔
      name.text.length ≤ 169 ∧ NothingHalfDone attempt := by
  have terminated := name.text_terminated
  by_cases fits : name.text.length ≤ 169
  · rw [and_iff_right fits, PackageName.string]
    by_cases opened : attempt.opened = true
    · by_cases allocated : attempt.block.isSome
      · by_cases small : attempt.content.length < 2147483648
        · rw [allOrNothing_iff_of_small terminated fits opened allocated small]
          exact ⟨fun removed _ => ⟨allocated, fun _ => removed,
            fun large => absurd small (Nat.not_lt.mpr large)⟩,
            fun nothing => (nothing opened).2.1 small⟩
        · have large : 2147483648 ≤ attempt.content.length := Nat.le_of_not_lt small
          rw [allOrNothing_iff_of_large terminated fits opened allocated large]
          exact ⟨fun few _ => ⟨allocated, fun less => absurd less small, fun _ => few⟩,
            fun nothing => (nothing opened).2.2 large⟩
      · have read := readFile_of_null terminated fits opened
          (Option.not_isSome_iff_eq_none.mp allocated)
        exact ⟨fun whole => absurd whole (not_allOrNothing_of_fault read),
          fun nothing => absurd (nothing opened).1 allocated⟩
    · have read : readFile (some (name.text ++ [0])) attempt = .ok ⟨-1, 0, none, true⟩ := by
        rw [readFile, buildPath_eq terminated, if_pos fits, ok_bind,
          if_pos (Bool.not_eq_true _ ▸ opened)]
        rfl
      exact ⟨fun _ again => absurd again opened, fun _ => allOrNothing_of_failed read rfl rfl⟩
  · have read : readFile (some name.string) attempt = .error .outOfBounds := by
      rw [readFile, PackageName.string, buildPath_eq terminated, if_neg fits]
      rfl
    exact ⟨fun whole => absurd whole (not_allOrNothing_of_fault read),
      fun condition => absurd condition.1 fits⟩

/-- The package `a`. -/
def shortName : PackageName := ⟨[0x61], by decide, by decide, by decide⟩

/-- The file is there, but not the memory for it. -/
def outOfMemory : Attempt := ⟨[0x30, 0x7C, 0x30], true, none, 3, true⟩

/-- The null pointer is cleared before it is checked. -/
theorem readFile_outOfMemory : ¬AllOrNothing (some shortName.string) outOfMemory :=
  not_allOrNothing_of_fault (readFile_of_null shortName.text_terminated
    (by decide : shortName.text.length ≤ 169) rfl rfl)

end Install
end UnityLocalization
