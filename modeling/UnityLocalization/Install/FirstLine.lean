import UnityLocalization.Install.Model
import UnityLocalization.Library.Strtol
import UnityLocalization.Table

/-!
# The address line

`init_address_from_file` reads the two addresses from the first line of the
mapping file.  It splits the line as the hooks split every line, into buffers of
its own.  The numbers at the start of its two parts are what `jniOnLoad` starts
from.
-/

namespace UnityLocalization
namespace Install

open CMemory Table

/-- The size of the part buffers of `init_address_from_file`. -/
abbrev addressSize : Nat := 50

/-- The globals `address_get` and `address_set`. -/
structure Addresses where
  addressGet : Int
  addressSet : Int
  deriving DecidableEq

/-- Clear the first bytes of the two buffers and copy the parts of `p`. -/
def splitAddressLine (left right p : Bytes) : Checked (Bytes × Bytes) := do
  let left ← memset left 0 20
  let right ← memset right 0 20
  copyParts left right p

/-- The loop of `init_address_from_file`, which only runs for the first line. -/
def addressLoop
    (token : Option (Bytes × Bytes)) (currentLines : Nat)
    (left right : Bytes) (addresses : Addresses) : Checked Addresses :=
  match token with
  | none => .ok addresses
  | some (p, cursor) =>
      if currentLines = 0 then do
        let (left, right) ← splitAddressLine left right p
        let addressGet ← strtolHex left
        let addressSet ← strtolHex right
        match _next : strtok lineDelimiters cursor with
        | .error fault => .error fault
        | .ok next =>
            addressLoop next (currentLines + 1) left right ⟨addressGet, addressSet⟩
      else .ok addresses
termination_by (token.map fun found => found.2.length + 1).getD 0
decreasing_by
  cases next with
  | none => simp
  | some found =>
      have shorter := length_lt_of_strtok _next
      simp
      omega

/-- `init_address_from_file()` -/
def initAddressFromFile
    (buffer : Bytes) (fileSize : Nat) (addresses : Addresses) : Checked Addresses := do
  let tempBuffer ← read (regionOf buffer) 0 (fileSize + 4)
  let token ← strtok lineDelimiters tempBuffer
  addressLoop token 0 (calloc addressSize) (calloc addressSize) addresses

/-- `JNI_OnLoad` once `readFile` has stored a file. -/
def startUp (environment : Environment) (file : Bytes) : Checked State := do
  let addresses ← initAddressFromFile (file ++ calloc 4) file.length ⟨0, 0⟩
  jniOnLoad environment
    (some (UInt32.ofInt addresses.addressGet, UInt32.ofInt addresses.addressSet))

/-- The addresses that stand in the two buffers. -/
def readAddresses (parts : Bytes × Bytes) : Checked Addresses := do
  let addressGet ← strtolHex parts.1
  let addressSet ← strtolHex parts.2
  return ⟨addressGet, addressSet⟩

/-- Behind the first line the loop ends. -/
theorem addressLoop_behind
    (token : Option (Bytes × Bytes)) {currentLines : Nat} (behind : currentLines ≠ 0)
    (left right : Bytes) (addresses : Addresses) :
    addressLoop token currentLines left right addresses = .ok addresses := by
  rw [addressLoop.eq_def]
  cases token with
  | none => rfl
  | some found => exact if_neg behind

/-- The loop splits the first line and reads its parts. -/
theorem addressLoop_first
    {cursor : Bytes} {next : Option (Bytes × Bytes)}
    (p left right : Bytes) (addresses : Addresses)
    (scanned : strtok lineDelimiters cursor = .ok next) :
    addressLoop (some (p, cursor)) 0 left right addresses =
      splitAddressLine left right p >>= readAddresses := by
  rw [addressLoop.eq_def]
  refine bind_congr fun parts => bind_congr fun addressGet =>
    bind_congr fun addressSet => ?_
  split
  · rename_i fault failed
    rw [scanned] at failed
    cases failed
  · rename_i other found
    exact addressLoop_behind other Nat.one_ne_zero _ _ _

/-- The line read is the first one a `strtok` loop over the file visits. -/
theorem initAddressFromFile_eq (file : Bytes) (addresses : Addresses) :
    initAddressFromFile (file ++ calloc 4) file.length addresses =
      (fileLines file).head?.elim (.ok addresses) fun line =>
        splitAddressLine (calloc addressSize) (calloc addressSize) (line ++ [0]) >>=
          readAddresses := by
  obtain ⟨token, first, visits⟩ := strtok_buffer file
  rw [initAddressFromFile, read_buffer, ok_bind, first, ok_bind]
  cases lines : fileLines file with
  | nil =>
      rw [lines] at visits
      rw [visits.eq_none, addressLoop.eq_def]
      rfl
  | cons line others =>
      rw [lines] at visits
      obtain ⟨cursor, next, rfl, scanned, -⟩ := visits.exists_next (by decide)
      exact addressLoop_first _ _ _ _ scanned

/-- The parts of the address line fit their buffers. -/
structure AddressLine (line : Bytes) : Prop where
  separated : separator ∈ line
  left_short : (leftPart line).length < addressSize
  right_short : (rightPart line).length < addressSize

/-- The buffers hold the parts and zeros. -/
theorem splitAddressLine_ok
    {line : Bytes} (fits : AddressLine line) (terminated : 0 ∉ line) :
    splitAddressLine (calloc addressSize) (calloc addressSize) (line ++ [0]) =
      .ok (leftPart line ++ calloc (addressSize - (leftPart line).length),
        rightPart line ++ calloc (addressSize - (rightPart line).length)) := by
  have cleared : memset (calloc addressSize) 0 20 = .ok (calloc addressSize) := rfl
  rw [splitAddressLine, cleared, ok_bind, ok_bind,
    copyParts_separated _ _ fits.separated terminated,
    write_calloc (Nat.le_of_lt fits.left_short), ok_bind,
    write_calloc_terminated fits.right_short, ok_bind]

/-- The addresses are the numbers at the start of the two parts. -/
theorem initAddressFromFile_ok
    {file line : Bytes} (first : (fileLines file).head? = some line)
    (fits : AddressLine line) (addresses : Addresses) :
    ∃ addressGet addressSet,
      strtolHex (leftPart line ++ [0]) = .ok addressGet ∧
      strtolHex (rightPart line ++ [0]) = .ok addressSet ∧
      initAddressFromFile (file ++ calloc 4) file.length addresses =
        .ok ⟨addressGet, addressSet⟩ := by
  have terminated : 0 ∉ line := zero_not_mem_fileLines (List.mem_of_mem_head? first)
  obtain ⟨addressGet, leftRead⟩ :=
    strtolHex_terminated (zero_not_mem_leftPart terminated)
  obtain ⟨addressSet, rightRead⟩ :=
    strtolHex_terminated (zero_not_mem_rightPart terminated)
  refine ⟨addressGet, addressSet, leftRead [], rightRead [], ?_⟩
  rw [initAddressFromFile_eq, first, Option.elim_some]
  simp only [splitAddressLine_ok fits terminated, ok_bind, readAddresses,
    calloc_terminated fits.left_short, calloc_terminated fits.right_short, leftRead,
    rightRead, pure_eq_ok]

/-- The start-up goes on with these numbers. -/
theorem startUp_ok
    {file line : Bytes} (first : (fileLines file).head? = some line)
    (fits : AddressLine line) (environment : Environment) :
    ∃ addressGet addressSet,
      strtolHex (leftPart line ++ [0]) = .ok addressGet ∧
      strtolHex (rightPart line ++ [0]) = .ok addressSet ∧
      startUp environment file = jniOnLoad environment
        (some (UInt32.ofInt addressGet, UInt32.ofInt addressSet)) := by
  obtain ⟨addressGet, addressSet, leftRead, rightRead, returned⟩ :=
    initAddressFromFile_ok first fits ⟨0, 0⟩
  refine ⟨addressGet, addressSet, leftRead, rightRead, ?_⟩
  rw [startUp, returned, ok_bind]

/-- Without a separator in the first line a null pointer is followed. -/
theorem initAddressFromFile_unseparated
    {file line : Bytes} (first : (fileLines file).head? = some line)
    (unseparated : separator ∉ line) (addresses : Addresses) :
    initAddressFromFile (file ++ calloc 4) file.length addresses =
      .error .nullDereference := by
  have terminated : 0 ∉ line := zero_not_mem_fileLines (List.mem_of_mem_head? first)
  have cleared : memset (calloc addressSize) 0 20 = .ok (calloc addressSize) := rfl
  rw [initAddressFromFile_eq, first, Option.elim_some]
  simp only [splitAddressLine, cleared, ok_bind,
    copyParts_unseparated _ _ unseparated terminated, error_bind]

end Install
end UnityLocalization
