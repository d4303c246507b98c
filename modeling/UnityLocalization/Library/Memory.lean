import Mathlib.Data.List.Basic
import Mathlib.Order.MinMax
import Mathlib.Tactic.Common

/-!
# Byte memory with checked accesses

Buffers are byte lists whose length is their capacity.  Memory that is only
read through a pointer is a `Region`.  Every access is checked: leaving a
buffer, reading an unreadable offset or following the null pointer is a
`Fault`, so a computation that returns has touched only memory it owns.
-/

namespace CMemory

/-- Undefined accesses of a C program. -/
inductive Fault
  | nullDereference
  | outOfBounds
  deriving DecidableEq, Repr

/-- A computation that either returns or stops at an undefined access. -/
abbrev Checked := Except Fault

abbrev Bytes := List UInt8

/-- Memory seen from a pointer: the byte at each offset, where readable. -/
abbrev Region := Nat -> Option UInt8

/-- The readable offsets of a buffer are those below its capacity. -/
def regionOf (bytes : Bytes) : Region := fun offset => bytes[offset]?

/-- Memory that is readable at every offset. -/
def readable (memory : Nat -> UInt8) : Region := fun offset => some (memory offset)

/-- Consecutive bytes of a fully readable memory. -/
def bytesAt (memory : Nat -> UInt8) (offset : Nat) : Nat -> Bytes
  | 0 => []
  | count + 1 => memory offset :: bytesAt memory (offset + 1) count

/-- Follow a pointer that may be null. -/
def deref : Option α -> Checked α
  | some target => .ok target
  | none => .error .nullDereference

/-- The short-circuit conjunction of C: the second operand is evaluated only
when the first one holds. -/
def andAlso (first second : Checked Bool) : Checked Bool := do
  if ← first then second else return false

def load (region : Region) (offset : Nat) : Checked UInt8 :=
  match region offset with
  | some byte => .ok byte
  | none => .error .outOfBounds

/-- Read `count` consecutive bytes. -/
def read (region : Region) (offset : Nat) : Nat -> Checked Bytes
  | 0 => .ok []
  | count + 1 => do
      let byte ← load region offset
      let rest ← read region (offset + 1) count
      return byte :: rest

/-- Overwrite the bytes of a buffer from `offset` on. -/
def write (buffer : Bytes) (offset : Nat) (data : Bytes) : Checked Bytes :=
  if offset + data.length ≤ buffer.length then
    .ok (buffer.take offset ++ data ++ buffer.drop (offset + data.length))
  else
    .error .outOfBounds

def store (buffer : Bytes) (offset : Nat) (byte : UInt8) : Checked Bytes :=
  if offset < buffer.length then .ok (buffer.set offset byte)
  else .error .outOfBounds

/-- A zero-filled allocation. -/
def calloc (size : Nat) : Bytes := List.replicate size 0

def memset (buffer : Bytes) (value : UInt8) (count : Nat) : Checked Bytes :=
  write buffer 0 (List.replicate count value)

/-- The length is a C `int`; a negative one becomes a huge `size_t`. -/
def memcpy
    (destination : Bytes) (offset : Nat)
    (source : Region) (start : Nat)
    (count : Int) : Checked Bytes :=
  if count < 0 then .error .outOfBounds
  else do
    let data ← read source start count.toNat
    write destination offset data

/-- The bytes `memccpy` copies: up to and including the first stop byte, at
most `count` of them. -/
def readThrough
    (source : Region) (start : Nat) (stop : UInt8) : Nat -> Checked Bytes
  | 0 => .ok []
  | count + 1 => do
      let byte ← load source start
      if byte = stop then return [byte]
      let rest ← readThrough source (start + 1) stop count
      return byte :: rest

def memccpy
    (destination : Bytes)
    (source : Region) (start : Nat)
    (stop : UInt8) (count : Nat) : Checked Bytes := do
  let data ← readThrough source start stop count
  write destination 0 data

/-- Whether `memcmp` finds `count` equal bytes. -/
def memcmpEqual
    (left : Region) (leftStart : Nat)
    (right : Region) (rightStart : Nat)
    (count : Nat) : Checked Bool := do
  let leftBytes ← read left leftStart count
  let rightBytes ← read right rightStart count
  return leftBytes == rightBytes

/-! ## Results of checked accesses -/

@[simp] theorem ok_bind (value : α) (next : α -> Checked β) :
    (Except.ok value >>= next) = next value := rfl

@[simp] theorem error_bind (fault : Fault) (next : α -> Checked β) :
    ((Except.error fault : Checked α) >>= next) = .error fault := rfl

@[simp] theorem pure_eq_ok (value : α) : (pure value : Checked α) = .ok value := rfl

@[simp] theorem deref_some (target : α) : deref (some target) = .ok target := rfl

@[simp] theorem deref_none : deref (none : Option α) = .error .nullDereference := rfl

@[simp] theorem andAlso_ok (first : Bool) (second : Checked Bool) :
    andAlso (.ok first) second = if first then second else .ok false := rfl

/-- A computation followed by another one returns only through both. -/
theorem bind_eq_ok
    {first : Checked α} {next : α -> Checked β} {result : β} :
    (first >>= next) = .ok result ↔
      ∃ value, first = .ok value ∧ next value = .ok result := by
  cases first with
  | ok value => simp
  | error fault => simp

/-- Every result of the first computation is a result of the second one, which
sees more memory. -/
def Extends (less more : Checked α) : Prop :=
  ∀ value, less = .ok value -> more = .ok value

theorem Extends.refl (computation : Checked α) : Extends computation computation :=
  fun _ => id

theorem Extends.bind
    {less more : Checked α} {next further : α -> Checked β}
    (first : Extends less more)
    (second : ∀ value, Extends (next value) (further value)) :
    Extends (less >>= next) (more >>= further) := by
  intro result returned
  obtain ⟨value, begun, finished⟩ := bind_eq_ok.mp returned
  exact bind_eq_ok.mpr ⟨value, first value begun, second value result finished⟩

theorem Extends.ite
    {condition : Prop} [Decidable condition]
    {less more otherLess otherMore : Checked α}
    (thenCase : Extends less more)
    (elseCase : Extends otherLess otherMore) :
    Extends (if condition then less else otherLess)
      (if condition then more else otherMore) := by
  split
  · exact thenCase
  · exact elseCase

theorem Extends.andAlso
    {less more otherLess otherMore : Checked Bool}
    (first : Extends less more)
    (second : Extends otherLess otherMore) :
    Extends (andAlso less otherLess) (andAlso more otherMore) :=
  first.bind fun _ => Extends.ite second (Extends.refl _)

/-- A longer buffer is readable wherever a shorter one is. -/
theorem load_append (bytes more : Bytes) (offset : Nat) :
    Extends (load (regionOf bytes) offset) (load (regionOf (bytes ++ more)) offset) := by
  intro byte loaded
  rw [load, regionOf] at loaded ⊢
  by_cases inside : offset < bytes.length
  · rw [List.getElem?_append_left inside]
    exact loaded
  · rw [List.getElem?_eq_none (Nat.le_of_not_lt inside)] at loaded
    cases loaded

@[simp] theorem length_bytesAt (memory : Nat -> UInt8) (offset count : Nat) :
    (bytesAt memory offset count).length = count := by
  induction count generalizing offset with
  | zero => rfl
  | succ count inductionHypothesis => simp [bytesAt, inductionHypothesis]

theorem getElem?_bytesAt
    (memory : Nat -> UInt8) (offset count index : Nat)
    (inside : index < count) :
    (bytesAt memory offset count)[index]? = some (memory (offset + index)) := by
  induction count generalizing offset index with
  | zero => omega
  | succ count inductionHypothesis =>
      cases index with
      | zero => simp [bytesAt]
      | succ index =>
          have shifted := inductionHypothesis (offset + 1) index (by omega)
          simp only [bytesAt, List.getElem?_cons_succ, shifted]
          congr 2
          omega

@[simp] theorem load_readable (memory : Nat -> UInt8) (offset : Nat) :
    load (readable memory) offset = .ok (memory offset) := rfl

theorem load_regionOf
    (bytes : Bytes) (offset : Nat) (inside : offset < bytes.length) :
    load (regionOf bytes) offset = .ok bytes[offset] := by
  simp [load, regionOf, inside]

@[simp] theorem read_readable (memory : Nat -> UInt8) (offset count : Nat) :
    read (readable memory) offset count = .ok (bytesAt memory offset count) := by
  induction count generalizing offset with
  | zero => rfl
  | succ count inductionHypothesis => simp [read, bytesAt, inductionHypothesis]

theorem read_regionOf
    (bytes : Bytes) (offset count : Nat)
    (inside : offset + count ≤ bytes.length) :
    read (regionOf bytes) offset count =
      .ok ((bytes.drop offset).take count) := by
  induction count generalizing offset with
  | zero => simp [read]
  | succ count inductionHypothesis =>
      have here : offset < bytes.length := by omega
      have rest := inductionHypothesis (offset + 1) (by omega)
      rw [List.drop_eq_getElem_cons here, List.take_succ_cons]
      simp only [read, load_regionOf bytes offset here, rest, ok_bind,
        pure_eq_ok]

/-- Reading memory that holds some data gives the data. -/
theorem read_of_stored
    {region : Region} {offset : Nat} {data : Bytes}
    (stored : ∀ index byte, data[index]? = some byte -> region (offset + index) = some byte) :
    read region offset data.length = .ok data := by
  induction data generalizing offset with
  | nil => rfl
  | cons byte rest inductionHypothesis =>
      have here : load region offset = .ok byte := by
        have first : region offset = some byte := stored 0 byte rfl
        rw [load, first]
      have behind : read region (offset + 1) rest.length = .ok rest := by
        apply inductionHypothesis
        intro index next present
        rw [Nat.add_assoc, Nat.add_comm 1 index]
        exact stored (index + 1) next present
      rw [List.length_cons, read, here, ok_bind, behind]
      rfl

theorem write_of_le
    (buffer : Bytes) (offset : Nat) (data : Bytes)
    (inside : offset + data.length ≤ buffer.length) :
    write buffer offset data =
      .ok (buffer.take offset ++ data ++ buffer.drop (offset + data.length)) :=
  if_pos inside

/-- Writing never changes the capacity of a buffer. -/
theorem length_of_write
    {buffer data result : Bytes} {offset : Nat}
    (written : write buffer offset data = .ok result) :
    result.length = buffer.length := by
  unfold write at written
  split at written
  case isTrue inside =>
    cases written
    simp only [List.length_append, List.length_take, List.length_drop]
    omega
  case isFalse => cases written

theorem length_of_store
    {buffer result : Bytes} {offset : Nat} {byte : UInt8}
    (stored : store buffer offset byte = .ok result) :
    result.length = buffer.length := by
  unfold store at stored
  split at stored
  · cases stored
    simp
  · cases stored

/-- Neither does copying. -/
theorem length_of_memcpy
    {destination result : Bytes} {offset start : Nat} {source : Region} {count : Int}
    (copied : memcpy destination offset source start count = .ok result) :
    result.length = destination.length := by
  unfold memcpy at copied
  split at copied
  · cases copied
  · obtain ⟨_, _, written⟩ := bind_eq_ok.mp copied
    exact length_of_write written

theorem length_of_memccpy
    {destination result : Bytes} {source : Region} {start count : Nat} {stop : UInt8}
    (copied : memccpy destination source start stop count = .ok result) :
    result.length = destination.length := by
  obtain ⟨_, _, written⟩ := bind_eq_ok.mp copied
  exact length_of_write written

theorem store_of_lt
    (buffer : Bytes) (offset : Nat) (byte : UInt8)
    (inside : offset < buffer.length) :
    store buffer offset byte = .ok (buffer.set offset byte) :=
  if_pos inside

theorem store_of_le
    (buffer : Bytes) (offset : Nat) (byte : UInt8)
    (outside : buffer.length ≤ offset) :
    store buffer offset byte = .error .outOfBounds :=
  if_neg (Nat.not_lt.mpr outside)

@[simp] theorem length_calloc (size : Nat) : (calloc size).length = size := by
  simp [calloc]

theorem drop_calloc (size count : Nat) : (calloc size).drop count = calloc (size - count) :=
  List.drop_replicate

theorem memset_of_le
    (buffer : Bytes) (value : UInt8) (count : Nat)
    (inside : count ≤ buffer.length) :
    memset buffer value count =
      .ok (List.replicate count value ++ buffer.drop count) := by
  have fits : 0 + (List.replicate count value).length ≤ buffer.length := by
    simpa using inside
  simp [memset, write_of_le buffer 0 _ fits]

/-- Only bytes that fit are written. -/
theorem le_of_write
    {buffer data result : Bytes} {offset : Nat}
    (written : write buffer offset data = .ok result) :
    offset + data.length ≤ buffer.length := by
  unfold write at written
  split at written
  case isTrue inside => exact inside
  case isFalse => cases written

/-- Copying readable bytes writes them. -/
theorem memcpy_eq_write
    (destination source : Bytes) (offset start count : Nat)
    (readInside : start + count ≤ source.length) :
    memcpy destination offset (regionOf source) start count =
      write destination offset ((source.drop start).take count) := by
  have notNegative : ¬((count : Int) < 0) := by omega
  simp only [memcpy, notNegative, if_false, Int.toNat_natCast,
    read_regionOf source start count readInside, ok_bind]

/-- Copying from a buffer into another one, both in range. -/
theorem memcpy_regionOf
    (destination source : Bytes) (offset start count : Nat)
    (readInside : start + count ≤ source.length)
    (writeInside : offset + count ≤ destination.length) :
    memcpy destination offset (regionOf source) start count =
      .ok (destination.take offset ++ (source.drop start).take count ++
        destination.drop (offset + count)) := by
  have copied : ((source.drop start).take count).length = count := by
    simp only [List.length_take, List.length_drop]
    omega
  rw [memcpy_eq_write _ _ _ _ _ readInside, write_of_le _ _ _ (by omega), copied]

/-- Copying to the end of the filled part of a zeroed buffer. -/
theorem memcpy_fill
    (filled source : Bytes) (room start count : Nat)
    (readInside : start + count ≤ source.length) (fits : count ≤ room) :
    memcpy (filled ++ calloc room) filled.length (regionOf source) start count =
      .ok ((filled ++ (source.drop start).take count) ++ calloc (room - count)) := by
  rw [memcpy_regionOf _ _ _ _ _ readInside (by simpa using fits)]
  simp [calloc, List.drop_append]

theorem memcpy_readable
    (destination : Bytes) (memory : Nat -> UInt8) (offset start count : Nat)
    (inside : offset + count ≤ destination.length) :
    memcpy destination offset (readable memory) start count =
      .ok (destination.take offset ++ bytesAt memory start count ++
        destination.drop (offset + count)) := by
  have notNegative : ¬((count : Int) < 0) := by omega
  simp only [memcpy, notNegative, if_false, Int.toNat_natCast,
    read_readable, ok_bind]
  rw [write_of_le _ _ _ (by simpa using inside), length_bytesAt]

theorem memcmpEqual_regionOf
    (left right : Bytes) (leftStart rightStart count : Nat)
    (leftInside : leftStart + count ≤ left.length)
    (rightInside : rightStart + count ≤ right.length) :
    memcmpEqual (regionOf left) leftStart (regionOf right) rightStart count =
      .ok ((left.drop leftStart).take count ==
        (right.drop rightStart).take count) := by
  simp [memcmpEqual, read_regionOf left leftStart count leftInside,
    read_regionOf right rightStart count rightInside]

/-! ## Copying up to a stop byte -/

/-- What a zeroed buffer holds after `memccpy` with the given stop byte: the
text through its first stop byte, then zeros. -/
def cutAfter (stop : UInt8) : Bytes -> Bytes
  | [] => []
  | byte :: rest =>
      byte :: if byte = stop then List.replicate rest.length 0
        else cutAfter stop rest

@[simp] theorem length_cutAfter (stop : UInt8) (text : Bytes) :
    (cutAfter stop text).length = text.length := by
  induction text with
  | nil => rfl
  | cons byte rest inductionHypothesis =>
      simp only [cutAfter, List.length_cons]
      split <;> simp [inductionHypothesis]

/-- Cutting commutes with taking a prefix. -/
theorem take_cutAfter (stop : UInt8) (text : Bytes) (count : Nat) :
    (cutAfter stop text).take count = cutAfter stop (text.take count) := by
  induction text generalizing count with
  | nil => simp [cutAfter]
  | cons byte rest inductionHypothesis =>
      cases count with
      | zero => simp [cutAfter]
      | succ count =>
          simp only [cutAfter, List.take_succ_cons]
          split
          · simp [List.take_replicate, List.length_take]
          · rw [inductionHypothesis]

/-- A byte survives the cut exactly when no stop byte stands before it. -/
theorem getElem?_cutAfter (stop : UInt8) (text : Bytes) (index : Nat) :
    (cutAfter stop text)[index]? =
      text[index]?.map fun byte =>
        if stop ∈ text.take index then 0 else byte := by
  induction text generalizing index with
  | nil => simp [cutAfter]
  | cons byte rest inductionHypothesis =>
      cases index with
      | zero => simp [cutAfter]
      | succ index =>
          simp only [cutAfter, List.getElem?_cons_succ, List.take_succ_cons,
            List.mem_cons]
          by_cases stopped : byte = stop
          · subst stopped
            simp only [if_true, true_or, List.getElem?_replicate]
            by_cases inside : index < rest.length <;> simp [inside]
          · have different : ¬stop = byte := fun equal => stopped equal.symm
            simp [stopped, different, inductionHypothesis]

/-- A nonzero byte behind the first stop byte: the cut turns it into zero. -/
def Lost (stop : UInt8) (text : Bytes) (index : Nat) : Prop :=
  stop ∈ text.take index ∧ text.getD index 0 ≠ 0

instance (stop : UInt8) (text : Bytes) (index : Nat) :
    Decidable (Lost stop text index) :=
  inferInstanceAs (Decidable (_ ∧ _))

/-- The cut changes exactly the lost bytes. -/
theorem getElem?_cutAfter_eq_iff (stop : UInt8) (text : Bytes) (index : Nat) :
    (cutAfter stop text)[index]? = text[index]? ↔ ¬Lost stop text index := by
  rw [getElem?_cutAfter, Lost, List.getD_eq_getElem?_getD]
  cases stored : text[index]? with
  | none => simp
  | some byte =>
      by_cases stopped : stop ∈ text.take index
      · simp [stopped, eq_comm]
      · simp [stopped]

theorem getElem?_cutAfter_eq_zero_iff (stop : UInt8) (text : Bytes) (index : Nat) :
    (cutAfter stop text)[index]? = some 0 ↔
      text[index]? = some 0 ∨ Lost stop text index := by
  rw [getElem?_cutAfter, Lost, List.getD_eq_getElem?_getD]
  cases stored : text[index]? with
  | none => simp
  | some byte =>
      by_cases stopped : stop ∈ text.take index
      · simp [stopped, em]
      · simp [stopped]

/-- A lost byte is not zero in the text. -/
theorem Lost.ne_zero {stop : UInt8} {text : Bytes} {index : Nat}
    (lost : Lost stop text index) : text[index]? ≠ some 0 := by
  intro zero
  apply lost.2
  rw [List.getD_eq_getElem?_getD, zero]
  rfl

/-- Two cuts agree exactly when they lose the same bytes. -/
theorem cutAfter_eq_cutAfter_iff (first second : UInt8) (text : Bytes) :
    cutAfter first text = cutAfter second text ↔
      ∀ index, Lost first text index ↔ Lost second text index := by
  constructor
  · intro same index
    have zero := getElem?_cutAfter_eq_zero_iff first text index
    rw [same, getElem?_cutAfter_eq_zero_iff] at zero
    constructor
    · exact fun lost => (zero.mpr (Or.inr lost)).resolve_left lost.ne_zero
    · exact fun lost => (zero.mp (Or.inr lost)).resolve_left lost.ne_zero
  · intro sameLost
    apply List.ext_getElem?
    intro index
    by_cases lost : Lost first text index
    · rw [(getElem?_cutAfter_eq_zero_iff first text index).mpr (Or.inr lost),
        (getElem?_cutAfter_eq_zero_iff second text index).mpr
          (Or.inr ((sameLost index).mp lost))]
    · rw [(getElem?_cutAfter_eq_iff first text index).mpr lost,
        (getElem?_cutAfter_eq_iff second text index).mpr
          fun other => lost ((sameLost index).mpr other)]

/-- The bytes read by `memccpy`, padded with zeros, are the cut text. -/
theorem readThrough_readable
    (memory : Nat -> UInt8) (start : Nat) (stop : UInt8) (count : Nat) :
    ∃ data, readThrough (readable memory) start stop count = .ok data ∧
      data.length ≤ count ∧
      data ++ List.replicate (count - data.length) 0 =
        cutAfter stop (bytesAt memory start count) := by
  induction count generalizing start with
  | zero => exact ⟨[], rfl, by simp, rfl⟩
  | succ count inductionHypothesis =>
      by_cases stopped : memory start = stop
      · refine ⟨[memory start], ?_, by simp, ?_⟩
        · simp [readThrough, stopped]
        · simp [bytesAt, cutAfter, stopped]
      · obtain ⟨data, readData, bounded, padded⟩ :=
          inductionHypothesis (start + 1)
        refine ⟨memory start :: data, ?_, ?_, ?_⟩
        · simp [readThrough, stopped, readData]
        · simpa using bounded
        · simp [bytesAt, cutAfter, stopped, padded]

/-- `memccpy` into a buffer whose first `count` bytes are zero. -/
theorem memccpy_readable
    (rest : Bytes) (memory : Nat -> UInt8)
    (start : Nat) (stop : UInt8) (count : Nat) :
    memccpy (List.replicate count 0 ++ rest) (readable memory) start stop count =
      .ok (cutAfter stop (bytesAt memory start count) ++ rest) := by
  obtain ⟨data, readData, bounded, padded⟩ :=
    readThrough_readable memory start stop count
  have fits : 0 + data.length ≤ (List.replicate count (0 : UInt8) ++ rest).length := by
    simp only [List.length_append, List.length_replicate]
    omega
  rw [memccpy, readData, ok_bind, write_of_le _ _ _ fits, ← padded]
  have dropped : (List.replicate count (0 : UInt8) ++ rest).drop data.length =
      List.replicate (count - data.length) 0 ++ rest := by
    rw [List.drop_append_of_le_length (by simpa using bounded),
      List.drop_replicate]
  simp [dropped]

/-! ## Reading up to a stop byte -/

/-- The bytes up to and including the first stop byte, at most `count` of them,
are readable. -/
def ReadableThrough
    (source : Region) (start : Nat) (stop : UInt8) (count : Nat) : Prop :=
  ∀ offset, offset < count ->
    (∀ earlier, earlier < offset -> source (start + earlier) ≠ some stop) ->
      (source (start + offset)).isSome

/-- What the first byte asks of the bytes behind it. -/
theorem readableThrough_succ_iff
    {source : Region} {start : Nat} {stop : UInt8} {count : Nat} :
    ReadableThrough source start stop (count + 1) ↔
      ∃ byte, source start = some byte ∧
        (byte = stop ∨ ReadableThrough source (start + 1) stop count) := by
  constructor
  · intro through
    have here : (source start).isSome := by
      refine through 0 (Nat.succ_pos count) fun earlier before => ?_
      exact absurd before (Nat.not_lt_zero earlier)
    obtain ⟨byte, present⟩ := Option.isSome_iff_exists.mp here
    refine ⟨byte, present, or_iff_not_imp_left.mpr fun different => ?_⟩
    intro offset inside passed
    rw [Nat.add_assoc, Nat.add_comm 1 offset]
    refine through (offset + 1) (Nat.succ_lt_succ inside) fun earlier before => ?_
    cases earlier with
    | zero =>
        rw [Nat.add_zero, present]
        exact fun same => different (Option.some.inj same)
    | succ earlier =>
        rw [Nat.add_comm earlier 1, ← Nat.add_assoc]
        exact passed earlier (Nat.lt_of_succ_lt_succ before)
  · rintro ⟨byte, present, continues⟩ offset inside passed
    cases offset with
    | zero =>
        rw [Nat.add_zero, present]
        rfl
    | succ offset =>
        have different : byte ≠ stop := by
          rintro rfl
          exact passed 0 (Nat.succ_pos offset) present
        rw [Nat.add_comm offset 1, ← Nat.add_assoc]
        refine continues.resolve_left different offset (Nat.lt_of_succ_lt_succ inside) ?_
        intro earlier before
        rw [Nat.add_assoc, Nat.add_comm 1 earlier]
        exact passed (earlier + 1) (Nat.succ_lt_succ before)

/-- Reading up to a stop byte returns exactly if the bytes it reaches are
readable. -/
theorem readThrough_returns_iff
    {source : Region} {start : Nat} {stop : UInt8} {count : Nat} :
    (∃ data, readThrough source start stop count = .ok data) ↔
      ReadableThrough source start stop count := by
  induction count generalizing start with
  | zero =>
      refine iff_of_true ⟨[], rfl⟩ fun offset inside => ?_
      exact absurd inside (Nat.not_lt_zero offset)
  | succ count inductionHypothesis =>
      rw [readableThrough_succ_iff, ← inductionHypothesis, readThrough, load]
      cases present : source start with
      | none => simp
      | some byte =>
          simp only [ok_bind, Option.some.injEq, exists_eq_left']
          by_cases stopped : byte = stop
          · simp [stopped]
          · simp [stopped, bind_eq_ok]

/-- In a buffer: the stop byte is met, or the buffer holds all the bytes that
may be read. -/
theorem readableThrough_regionOf_iff
    (bytes : Bytes) {start : Nat} (stop : UInt8) (count : Nat)
    (inside : start ≤ bytes.length) :
    ReadableThrough (regionOf bytes) start stop count ↔
      stop ∈ (bytes.drop start).take count ∨ start + count ≤ bytes.length := by
  induction count generalizing start with
  | zero =>
      refine iff_of_true (fun offset before => ?_) (Or.inr inside)
      exact absurd before (Nat.not_lt_zero offset)
  | succ count inductionHypothesis =>
      rw [readableThrough_succ_iff]
      by_cases here : start < bytes.length
      · have shifted : start + (count + 1) = start + 1 + count := by omega
        rw [regionOf, List.getElem?_eq_getElem here, List.drop_eq_getElem_cons here,
          List.take_succ_cons, List.mem_cons, shifted, or_assoc, eq_comm (a := stop),
          ← inductionHypothesis here]
        simp only [Option.some.injEq, exists_eq_left']
      · have missing : regionOf bytes start = none :=
          List.getElem?_eq_none (Nat.le_of_not_lt here)
        have tooFew : ¬start + (count + 1) ≤ bytes.length := by omega
        rw [missing, List.drop_eq_nil_of_le (Nat.le_of_not_lt here)]
        simp [tooFew]

/-- The memory holds the readable bytes of the region. -/
def Holds (memory : Nat -> UInt8) (region : Region) : Prop :=
  ∀ offset byte, region offset = some byte -> memory offset = byte

/-- Where more memory is readable, the same bytes are read. -/
theorem Holds.load
    {memory : Nat -> UInt8} {region : Region} (holds : Holds memory region) (offset : Nat) :
    Extends (load region offset) (load (readable memory) offset) := by
  intro byte loaded
  rw [CMemory.load] at loaded
  split at loaded
  case h_1 stored present =>
    rw [load_readable, holds offset stored present]
    exact loaded
  case h_2 => cases loaded

theorem Holds.readThrough
    {memory : Nat -> UInt8} {region : Region} (holds : Holds memory region)
    (start : Nat) (stop : UInt8) (count : Nat) :
    Extends (readThrough region start stop count)
      (readThrough (readable memory) start stop count) := by
  induction count generalizing start with
  | zero => exact Extends.refl _
  | succ count inductionHypothesis =>
      exact (holds.load start).bind fun byte =>
        Extends.ite (Extends.refl _)
          ((inductionHypothesis (start + 1)).bind fun _ => Extends.refl _)

end CMemory
