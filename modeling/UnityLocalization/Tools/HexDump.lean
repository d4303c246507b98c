import UnityLocalization.Library.Memory

/-!
# The hex dump

`hexDump` prints a buffer in rows of sixteen bytes.  The rows are returned
rather than logged, since only their logging depends on the debug switch; the
buffer is read and the row buffers are written in either case.
-/

namespace UnityLocalization
namespace Tools

open CMemory

/-- One logged row: its label and the two row buffers. -/
structure DumpRow where
  label : Nat
  strHexBuffer : Bytes
  strPrintAble : Bytes
  deriving DecidableEq

/-- The digits `0123456789ABCDEF`. -/
def hexChars : Bytes :=
  [0x30, 0x31, 0x32, 0x33, 0x34, 0x35, 0x36, 0x37, 0x38, 0x39,
    0x41, 0x42, 0x43, 0x44, 0x45, 0x46]

def hexDigit (nibble : UInt8) : UInt8 := hexChars.getD (nibble &&& 0x0F).toNat 0

/-- Control characters are shown as a dot. -/
def printableByte (c : UInt8) : UInt8 :=
  if c < 32 ∨ c = 0 ∨ c = 9 ∨ c = 13 ∨ c = 10 ∨ c = 8 then 0x2E else c

/-- Store the digits of one byte, a separator and its printable form. -/
def dumpByte (strHexBuffer strPrintAble : Bytes) (j : Nat) (c separator : UInt8) :
    Checked (Bytes × Bytes) := do
  let z := j * 3
  let strHexBuffer ← store strHexBuffer z (hexDigit (c >>> 4))
  let strHexBuffer ← store strHexBuffer (z + 1) (hexDigit c)
  let strHexBuffer ← store strHexBuffer (z + 2) separator
  let strPrintAble ← store strPrintAble j (printableByte c)
  return (strHexBuffer, strPrintAble)

/-- The inner loop over the next `count` bytes of a row. -/
def dumpBytes (buf : Region) (i : Nat) (separator : Nat -> UInt8) :
    (count j : Nat) -> (strHexBuffer strPrintAble : Bytes) -> Checked (Bytes × Bytes)
  | 0, _, strHexBuffer, strPrintAble => .ok (strHexBuffer, strPrintAble)
  | count + 1, j, strHexBuffer, strPrintAble => do
      let c ← load buf (i + j)
      let (strHexBuffer, strPrintAble) ←
        dumpByte strHexBuffer strPrintAble j c (separator j)
      dumpBytes buf i separator count (j + 1) strHexBuffer strPrintAble

/-- Full rows put an underscore between their halves. -/
def fullRowSeparator (j : Nat) : UInt8 :=
  if j < 10 ∧ (j + 1) % 8 = 0 then 0x5F else 0x20

/-- The loop over the full rows, `count` of them left. -/
def dumpFullRows (buf : Region) :
    (count i : Nat) -> (strHexBuffer strPrintAble : Bytes) ->
      Checked (List DumpRow × Bytes × Bytes)
  | 0, _, strHexBuffer, strPrintAble => .ok ([], strHexBuffer, strPrintAble)
  | count + 1, i, strHexBuffer, strPrintAble => do
      let (strHexBuffer, strPrintAble) ←
        dumpBytes buf i fullRowSeparator 16 0 strHexBuffer strPrintAble
      let strHexBuffer ← store strHexBuffer (16 * 3) 0
      let strPrintAble ← store strPrintAble 16 0
      let row : DumpRow := ⟨i, strHexBuffer, strPrintAble⟩
      let (rows, strHexBuffer, strPrintAble) ←
        dumpFullRows buf count (i + 16) strHexBuffer strPrintAble
      return (row :: rows, strHexBuffer, strPrintAble)

/-- Pad the last row with spaces from position `j` on. -/
def padRow : (count j : Nat) -> (strHexBuffer : Bytes) -> Checked Bytes
  | 0, _, strHexBuffer => .ok strHexBuffer
  | count + 1, j, strHexBuffer => do
      let z := j * 3
      let strHexBuffer ← store strHexBuffer z 0x20
      let strHexBuffer ← store strHexBuffer (z + 1) 0x20
      let strHexBuffer ← store strHexBuffer (z + 2) 0x20
      padRow count (j + 1) strHexBuffer

/-- `hexDump(buf, len)` -/
def hexDump (buf : Option Region) (len : Int) : Checked (List DumpRow) :=
  match buf with
  | none => .ok []
  | some buf =>
      if len < 1 then .ok []
      else do
        let len := len.toNat
        let (rows, strHexBuffer, strPrintAble) ←
          dumpFullRows buf (len / 16) 0 (calloc (16 * 3 + 1)) (calloc 17)
        let leftSize := len % 16
        if leftSize < 1 then return rows
        else do
          let pos := (len / 16) * 16
          let (strHexBuffer, strPrintAble) ←
            dumpBytes buf pos (fun _ => 0x20) leftSize 0 strHexBuffer strPrintAble
          let strHexBuffer ← store strHexBuffer (leftSize * 3) 0
          let strPrintAble ← store strPrintAble leftSize 0
          let strHexBuffer ← padRow (16 - leftSize) leftSize strHexBuffer
          let strHexBuffer ← store strHexBuffer (16 * 3) 0
          return rows ++ [⟨pos, strHexBuffer, strPrintAble⟩]

/-! ## Absence of faults -/

/-- The two row buffers have their declared sizes. -/
def RowBuffers (strHexBuffer strPrintAble : Bytes) : Prop :=
  strHexBuffer.length = 49 ∧ strPrintAble.length = 17

theorem store_within
    (buffer : Bytes) (offset : Nat) (byte : UInt8)
    (inside : offset < buffer.length) :
    ∃ stored, store buffer offset byte = .ok stored ∧
      stored.length = buffer.length :=
  ⟨buffer.set offset byte, store_of_lt _ _ _ inside, by simp⟩

theorem dumpByte_within
    {strHexBuffer strPrintAble : Bytes}
    (sized : RowBuffers strHexBuffer strPrintAble)
    (j : Nat) (inRow : j < 16) (c separator : UInt8) :
    ∃ hex printable,
      dumpByte strHexBuffer strPrintAble j c separator = .ok (hex, printable) ∧
      RowBuffers hex printable := by
  obtain ⟨hexSize, printableSize⟩ := sized
  obtain ⟨first, storedFirst, firstSize⟩ :=
    store_within strHexBuffer (j * 3) (hexDigit (c >>> 4)) (by omega)
  obtain ⟨second, storedSecond, secondSize⟩ :=
    store_within first (j * 3 + 1) (hexDigit c) (by omega)
  obtain ⟨third, storedThird, thirdSize⟩ :=
    store_within second (j * 3 + 2) separator (by omega)
  obtain ⟨printable, storedPrintable, size⟩ :=
    store_within strPrintAble j (printableByte c) (by omega)
  refine ⟨third, printable, ?_, by omega, by omega⟩
  simp [dumpByte, storedFirst, storedSecond, storedThird, storedPrintable]

theorem dumpBytes_within
    {strHexBuffer strPrintAble : Bytes}
    (sized : RowBuffers strHexBuffer strPrintAble)
    (buf : Region) (i : Nat) (separator : Nat -> UInt8)
    (count j : Nat) (inRow : j + count ≤ 16)
    (mapped : ∀ offset, offset < j + count -> (buf (i + offset)).isSome) :
    ∃ hex printable,
      dumpBytes buf i separator count j strHexBuffer strPrintAble =
        .ok (hex, printable) ∧
      RowBuffers hex printable := by
  induction count generalizing j strHexBuffer strPrintAble with
  | zero => exact ⟨_, _, rfl, sized⟩
  | succ count inductionHypothesis =>
      obtain ⟨c, stored⟩ := Option.isSome_iff_exists.mp (mapped j (by omega))
      obtain ⟨hex, printable, dumped, sized⟩ :=
        dumpByte_within sized j (by omega) c (separator j)
      obtain ⟨hexAfter, printableAfter, rest, sizedAfter⟩ :=
        inductionHypothesis sized (j + 1) (by omega)
          fun offset before => mapped offset (by omega)
      refine ⟨hexAfter, printableAfter, ?_, sizedAfter⟩
      simp [dumpBytes, load, stored, dumped, rest]

theorem dumpFullRows_within
    {strHexBuffer strPrintAble : Bytes}
    (sized : RowBuffers strHexBuffer strPrintAble)
    (buf : Region) (count i : Nat)
    (mapped : ∀ offset, offset < i + 16 * count -> (buf offset).isSome) :
    ∃ rows hex printable,
      dumpFullRows buf count i strHexBuffer strPrintAble =
        .ok (rows, hex, printable) ∧
      RowBuffers hex printable := by
  induction count generalizing i strHexBuffer strPrintAble with
  | zero => exact ⟨_, _, _, rfl, sized⟩
  | succ count inductionHypothesis =>
      obtain ⟨hex, printable, dumped, hexSize, printableSize⟩ :=
        dumpBytes_within sized buf i fullRowSeparator 16 0 (by omega)
          fun offset before => mapped _ (by omega)
      obtain ⟨closedHex, storedHex, closedHexSize⟩ :=
        store_within hex (16 * 3) 0 (by omega)
      obtain ⟨closedPrintable, storedPrintable, closedPrintableSize⟩ :=
        store_within printable 16 0 (by omega)
      have closedSized : RowBuffers closedHex closedPrintable :=
        ⟨by omega, by omega⟩
      obtain ⟨rows, hexAfter, printableAfter, rest, sizedAfter⟩ :=
        inductionHypothesis closedSized (i + 16)
          fun offset before => mapped offset (by omega)
      refine ⟨⟨i, closedHex, closedPrintable⟩ :: rows, hexAfter, printableAfter,
        ?_, sizedAfter⟩
      simp only [dumpFullRows, dumped, ok_bind, storedHex, storedPrintable,
        rest, pure_eq_ok]

theorem padRow_within
    (count j : Nat) (strHexBuffer : Bytes)
    (sized : strHexBuffer.length = 49) (inRow : j + count ≤ 16) :
    ∃ hex, padRow count j strHexBuffer = .ok hex ∧ hex.length = 49 := by
  induction count generalizing j strHexBuffer with
  | zero => exact ⟨_, rfl, sized⟩
  | succ count inductionHypothesis =>
      obtain ⟨first, storedFirst, firstSize⟩ :=
        store_within strHexBuffer (j * 3) 0x20 (by omega)
      obtain ⟨second, storedSecond, secondSize⟩ :=
        store_within first (j * 3 + 1) 0x20 (by omega)
      obtain ⟨third, storedThird, thirdSize⟩ :=
        store_within second (j * 3 + 2) 0x20 (by omega)
      obtain ⟨hex, padded, hexSize⟩ :=
        inductionHypothesis (j + 1) third (by omega) (by omega)
      refine ⟨hex, ?_, hexSize⟩
      simp only [padRow, storedFirst, storedSecond, storedThird, ok_bind, padded]

/-- Dumping mapped bytes never leaves the row buffers. -/
theorem hexDump_within
    (buf : Region) (len : Int)
    (mapped : ∀ offset : Nat, (offset : Int) < len -> (buf offset).isSome) :
    ∃ rows, hexDump (some buf) len = .ok rows := by
  simp only [hexDump]
  split
  case isTrue => exact ⟨_, rfl⟩
  case isFalse positive =>
    have initial : RowBuffers (calloc (16 * 3 + 1)) (calloc 17) :=
      ⟨by simp, by simp⟩
    obtain ⟨rows, hex, printable, dumped, hexSize, printableSize⟩ :=
      dumpFullRows_within initial buf (len.toNat / 16) 0
        fun offset before => mapped offset (by omega)
    simp only [dumped, ok_bind]
    split
    case isTrue => exact ⟨_, rfl⟩
    case isFalse =>
      have sized : RowBuffers hex printable := ⟨hexSize, printableSize⟩
      obtain ⟨lastHex, lastPrintable, dumpedLast, lastHexSize, lastPrintableSize⟩ :=
        dumpBytes_within sized buf (len.toNat / 16 * 16) (fun _ => 0x20)
          (len.toNat % 16) 0 (by omega) fun offset before => mapped _ (by omega)
      obtain ⟨endedHex, storedHex, endedHexSize⟩ :=
        store_within lastHex (len.toNat % 16 * 3) 0 (by omega)
      obtain ⟨endedPrintable, storedPrintable, -⟩ :=
        store_within lastPrintable (len.toNat % 16) 0 (by omega)
      obtain ⟨paddedHex, padded, paddedSize⟩ :=
        padRow_within (16 - len.toNat % 16) (len.toNat % 16) endedHex
          (by omega) (by omega)
      obtain ⟨closedHex, storedClosed, -⟩ :=
        store_within paddedHex (16 * 3) 0 (by omega)
      simp only [dumpedLast, ok_bind, storedHex, storedPrintable, padded,
        storedClosed, pure_eq_ok]
      exact ⟨_, rfl⟩

/-- Dumping a prefix of a buffer. -/
theorem hexDump_regionOf
    (bytes : Bytes) (len : Int) (inside : len ≤ bytes.length) :
    ∃ rows, hexDump (some (regionOf bytes)) len = .ok rows := by
  apply hexDump_within
  intro offset before
  have bounded : offset < bytes.length := by omega
  simp [regionOf, bounded]

/-! ## The bytes a dump reads -/

theorem dumpBytes_reads
    {buf : Region} {i : Nat} {separator : Nat -> UInt8} {count j : Nat}
    {strHexBuffer strPrintAble : Bytes} {result : Bytes × Bytes}
    (returned : dumpBytes buf i separator count j strHexBuffer strPrintAble = .ok result) :
    ∀ offset, j ≤ offset -> offset < j + count -> (buf (i + offset)).isSome := by
  induction count generalizing j strHexBuffer strPrintAble with
  | zero => exact fun offset behind before => absurd before (by omega)
  | succ count inductionHypothesis =>
      intro offset behind before
      obtain ⟨c, loaded, returned⟩ := bind_eq_ok.mp returned
      obtain ⟨_, -, returned⟩ := bind_eq_ok.mp returned
      by_cases here : offset = j
      · subst here
        rw [load] at loaded
        split at loaded
        case h_1 stored present => rw [present]; rfl
        case h_2 => cases loaded
      · exact inductionHypothesis returned offset (by omega) (by omega)

theorem dumpFullRows_reads
    {buf : Region} {count i : Nat} {strHexBuffer strPrintAble : Bytes}
    {result : List DumpRow × Bytes × Bytes}
    (returned : dumpFullRows buf count i strHexBuffer strPrintAble = .ok result) :
    ∀ offset, i ≤ offset -> offset < i + 16 * count -> (buf offset).isSome := by
  induction count generalizing i strHexBuffer strPrintAble result with
  | zero => exact fun offset behind before => absurd before (by omega)
  | succ count inductionHypothesis =>
      intro offset behind before
      obtain ⟨_, row, returned⟩ := bind_eq_ok.mp returned
      obtain ⟨_, -, returned⟩ := bind_eq_ok.mp returned
      obtain ⟨_, -, returned⟩ := bind_eq_ok.mp returned
      obtain ⟨_, rest, -⟩ := bind_eq_ok.mp returned
      by_cases here : offset < i + 16
      · have present := dumpBytes_reads row (offset - i) (by omega) (by omega)
        rwa [Nat.add_sub_cancel' behind] at present
      · exact inductionHypothesis rest offset (by omega) (by omega)

/-- A dump that returns has read every byte of its range. -/
theorem hexDump_reads
    {buf : Region} {len : Int} {rows : List DumpRow}
    (returned : hexDump (some buf) len = .ok rows) :
    ∀ offset : Nat, (offset : Int) < len -> (buf offset).isSome := by
  intro offset before
  simp only [hexDump] at returned
  split at returned
  case isTrue empty => omega
  case isFalse =>
    obtain ⟨_, full, returned⟩ := bind_eq_ok.mp returned
    by_cases inFull : offset < 16 * (len.toNat / 16)
    · exact dumpFullRows_reads full offset (Nat.zero_le _) (by omega)
    · split at returned
      case isTrue => omega
      case isFalse =>
        obtain ⟨_, last, -⟩ := bind_eq_ok.mp returned
        have present := dumpBytes_reads last (offset - len.toNat / 16 * 16)
          (Nat.zero_le _) (by omega)
        rwa [Nat.add_sub_cancel' (by omega)] at present

/-- A buffer is dumped exactly up to its size. -/
theorem hexDump_regionOf_iff (bytes : Bytes) (len : Int) :
    (∃ rows, hexDump (some (regionOf bytes)) len = .ok rows) ↔ len ≤ bytes.length := by
  constructor
  · rintro ⟨rows, returned⟩
    by_contra longer
    have reached := hexDump_reads returned bytes.length (by omega)
    rw [regionOf, List.getElem?_eq_none (Nat.le_refl _)] at reached
    cases reached
  · exact hexDump_regionOf bytes len

end Tools
end UnityLocalization
