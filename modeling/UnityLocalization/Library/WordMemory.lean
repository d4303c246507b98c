import Mathlib.Data.BitVec
import Mathlib.Tactic.Common
import Mathlib.Tactic.IntervalCases

/-!
# A memory of bytes with 32-bit addresses

Addresses wrap around.  Halfwords and words are little-endian and need no alignment.
A range is given by its first address and its size, and `here` is in it if the distance
from the first address is below the size.
-/

namespace WordMemory

abbrev Word := BitVec 32

abbrev Half := BitVec 16

abbrev Byte := BitVec 8

abbrev Memory := Word -> Byte

/-- The halfword at an address. -/
def halfAt (memory : Memory) (address : Word) : Half :=
  memory (address + 1) ++ memory address

/-- The word at an address. -/
def wordAt (memory : Memory) (address : Word) : Word :=
  memory (address + 3) ++ memory (address + 2) ++ memory (address + 1) ++ memory address

/-- The bytes of a halfword, the lower one first. -/
def halfBytes (half : Half) : List Byte := [half.extractLsb' 0 8, half.extractLsb' 8 8]

/-- The bytes of a word, the lowest one first. -/
def wordBytes (word : Word) : List Byte :=
  [word.extractLsb' 0 8, word.extractLsb' 8 8, word.extractLsb' 16 8, word.extractLsb' 24 8]

/-- The address is one of the `size` addresses from `start` on. -/
def InRange (start : Word) (size : Nat) (here : Word) : Prop := (here - start).toNat < size

instance (start : Word) (size : Nat) (here : Word) : Decidable (InRange start size here) :=
  inferInstanceAs (Decidable (_ < _))

/-- Overwrite consecutive bytes. -/
def storeBytes (memory : Memory) (start : Word) (bytes : List Byte) : Memory :=
  fun here => bytes[(here - start).toNat]?.getD (memory here)

/-- The `size` bytes from an address on. -/
def loadBytes (memory : Memory) (start : Word) (size : Nat) : List Byte :=
  (List.range size).map fun offset => memory (start + BitVec.ofNat 32 offset)

/-- The bytes stand in memory from an address on. -/
def HoldsBytes (memory : Memory) (start : Word) (bytes : List Byte) : Prop :=
  ∀ offset byte, bytes[offset]? = some byte ->
    memory (start + BitVec.ofNat 32 offset) = byte

/-- The words stand in memory from an address on. -/
def HoldsWords (memory : Memory) : Word -> List Word -> Prop
  | _, [] => True
  | start, word :: words => wordAt memory start = word ∧ HoldsWords memory (start + 4) words

/-- The halfwords stand in memory from an address on. -/
def HoldsHalves (memory : Memory) : Word -> List Half -> Prop
  | _, [] => True
  | start, half :: halves =>
      halfAt memory start = half ∧ HoldsHalves memory (start + 2) halves

/-- The halfwords that stand in a list of bytes. -/
def halvesOf : List Byte -> List Half
  | first :: second :: bytes => (second ++ first) :: halvesOf bytes
  | _ => []

/-- The words that stand in a list of bytes. -/
def wordsOf : List Byte -> List Word
  | first :: second :: third :: fourth :: bytes =>
      (fourth ++ third ++ second ++ first) :: wordsOf bytes
  | _ => []

/-- A last byte that fills no halfword is left out. -/
theorem length_halvesOf : ∀ bytes : List Byte, (halvesOf bytes).length = bytes.length / 2
  | [] => rfl
  | [_] => by simp [halvesOf]
  | _ :: _ :: bytes => by
      rw [halvesOf, List.length_cons, length_halvesOf bytes, List.length_cons, List.length_cons]
      omega

/-- Last bytes that fill no word are left out. -/
theorem length_wordsOf : ∀ bytes : List Byte, (wordsOf bytes).length = bytes.length / 4
  | [] => rfl
  | [_] => by simp [wordsOf]
  | [_, _] => by simp [wordsOf]
  | [_, _, _] => by simp [wordsOf]
  | _ :: _ :: _ :: _ :: bytes => by
      simp only [wordsOf, List.length_cons, length_wordsOf bytes]
      omega

/-! ## Distances -/

/-- The distance of an address that is given by its offset. -/
theorem add_sub_start (start : Word) (offset : Word) : start + offset - start = offset := by
  rw [BitVec.add_comm, BitVec.add_sub_cancel]

theorem toNat_ofNat_of_lt {offset : Nat} (small : offset < 2 ^ 32) :
    (BitVec.ofNat 32 offset).toNat = offset := by
  rw [BitVec.toNat_ofNat, Nat.mod_eq_of_lt small]

/-- An address is its start plus the distance. -/
theorem start_add_distance (start here : Word) :
    start + BitVec.ofNat 32 (here - start).toNat = here := by
  rw [BitVec.ofNat_toNat, BitVec.setWidth_eq, BitVec.add_comm, BitVec.sub_add_cancel]

/-! ## Stores -/

/-- Outside of its range a store changes nothing. -/
theorem storeBytes_outside
    {memory : Memory} {start here : Word} {bytes : List Byte}
    (outside : ¬InRange start bytes.length here) :
    storeBytes memory start bytes here = memory here := by
  rw [storeBytes, List.getElem?_eq_none (Nat.le_of_not_lt outside)]
  rfl

/-- What a store leaves at an address depends on the byte before at that address only. -/
theorem storeBytes_at
    {memory other : Memory} {here : Word} (same : memory here = other here) (start : Word)
    (bytes : List Byte) :
    storeBytes memory start bytes here = storeBytes other start bytes here := by
  rw [storeBytes, storeBytes, same]

/-- Bytes stay where the memory does not change. -/
theorem HoldsBytes.congr
    {before after : Memory} {start : Word} {bytes : List Byte}
    (holds : HoldsBytes before start bytes) (short : bytes.length ≤ 2 ^ 32)
    (same : ∀ here, InRange start bytes.length here -> after here = before here) :
    HoldsBytes after start bytes := by
  intro offset byte present
  have inside : offset < bytes.length := (List.getElem?_eq_some_iff.mp present).1
  have here : InRange start bytes.length (start + BitVec.ofNat 32 offset) := by
    rw [InRange, add_sub_start, toNat_ofNat_of_lt (by omega)]
    exact inside
  rw [same _ here, holds offset byte present]

/-- In its range a store leaves what it has stored, whatever was there before. -/
theorem storeBytes_inside
    (memory other : Memory) {start here : Word} {bytes : List Byte}
    (inside : InRange start bytes.length here) :
    storeBytes memory start bytes here = storeBytes other start bytes here := by
  rw [storeBytes, storeBytes, List.getElem?_eq_getElem inside]
  rfl

/-- A store leaves its bytes. -/
theorem storeBytes_holds
    (memory : Memory) (start : Word) {bytes : List Byte} (short : bytes.length ≤ 2 ^ 32) :
    HoldsBytes (storeBytes memory start bytes) start bytes := by
  intro offset byte present
  have inside : offset < bytes.length := (List.getElem?_eq_some_iff.mp present).1
  rw [storeBytes, add_sub_start, toNat_ofNat_of_lt (by omega), present]
  rfl

/-- Storing what stands there changes nothing. -/
theorem storeBytes_of_holds
    {memory : Memory} {start : Word} {bytes : List Byte}
    (holds : HoldsBytes memory start bytes) : storeBytes memory start bytes = memory := by
  funext here
  rw [storeBytes]
  cases present : bytes[(here - start).toNat]? with
  | none => rfl
  | some byte =>
      have same := holds _ _ present
      rw [start_add_distance] at same
      exact same.symm

theorem length_loadBytes (memory : Memory) (start : Word) (size : Nat) :
    (loadBytes memory start size).length = size := by
  simp [loadBytes]

/-- What is loaded depends on the bytes in the range only. -/
theorem loadBytes_congr
    {before after : Memory} {start : Word} {size : Nat} (fits : size ≤ 2 ^ 32)
    (same : ∀ here, InRange start size here -> after here = before here) :
    loadBytes after start size = loadBytes before start size := by
  rw [loadBytes, loadBytes]
  apply List.map_congr_left
  intro offset inside
  apply same
  rw [InRange, add_sub_start, toNat_ofNat_of_lt (by have := List.mem_range.mp inside; omega)]
  exact List.mem_range.mp inside

/-- The loaded bytes are those that stand in memory. -/
theorem loadBytes_holds (memory : Memory) (start : Word) (size : Nat) :
    HoldsBytes memory start (loadBytes memory start size) := by
  intro offset byte present
  rw [loadBytes, List.getElem?_map] at present
  cases inside : (List.range size)[offset]? with
  | none =>
      rw [inside] at present
      cases present
  | some index =>
      rw [inside] at present
      have same : index = offset := by
        rw [List.getElem?_range (by
          have bound := (List.getElem?_eq_some_iff.mp inside).1
          rwa [List.length_range] at bound)] at inside
        exact (Option.some.inj inside).symm
      rw [← same]
      exact Option.some.inj present

/-- Saved bytes that are stored back are what they were. -/
theorem storeBytes_loadBytes
    (before after : Memory) {start here : Word} {size : Nat} (inside : InRange start size here) :
    storeBytes after start (loadBytes before start size) here = before here := by
  rw [storeBytes_inside after before (by rwa [length_loadBytes]),
    storeBytes_of_holds (loadBytes_holds before start size)]

/-! ## Halfwords and words -/

theorem append_bytes_half (half : Half) :
    half.extractLsb' 8 8 ++ half.extractLsb' 0 8 = half := by
  rw [BitVec.extractLsb'_append_extractLsb'_eq_extractLsb' (by decide)]
  exact BitVec.extractLsb'_eq_self

/-- A word is put together from its bytes. -/
theorem append_bytes_word (word : Word) :
    word.extractLsb' 24 8 ++ word.extractLsb' 16 8 ++ word.extractLsb' 8 8 ++
      word.extractLsb' 0 8 = word := by
  rw [BitVec.extractLsb'_append_extractLsb'_eq_extractLsb' (by decide),
    BitVec.extractLsb'_append_extractLsb'_eq_extractLsb' (by decide),
    BitVec.extractLsb'_append_extractLsb'_eq_extractLsb' (by decide)]
  exact BitVec.extractLsb'_eq_self

theorem halfAt_of_holds
    {memory : Memory} {start : Word} {half : Half}
    (holds : HoldsBytes memory start (halfBytes half)) : halfAt memory start = half := by
  have low : memory start = half.extractLsb' 0 8 := by
    have here := holds 0 _ rfl
    rwa [BitVec.add_zero] at here
  have high : memory (start + 1) = half.extractLsb' 8 8 := holds 1 _ rfl
  rw [halfAt, low, high]
  exact append_bytes_half half

/-- Where the bytes of a word stand, the word is read. -/
theorem wordAt_of_holds
    {memory : Memory} {start : Word} {word : Word}
    (holds : HoldsBytes memory start (wordBytes word)) : wordAt memory start = word := by
  have first : memory start = word.extractLsb' 0 8 := by
    have here := holds 0 _ rfl
    rwa [BitVec.add_zero] at here
  have second : memory (start + 1) = word.extractLsb' 8 8 := holds 1 _ rfl
  have third : memory (start + 2) = word.extractLsb' 16 8 := holds 2 _ rfl
  have fourth : memory (start + 3) = word.extractLsb' 24 8 := holds 3 _ rfl
  rw [wordAt, first, second, third, fourth]
  exact append_bytes_word word

theorem wordAt_storeBytes (memory : Memory) (start word : Word) :
    wordAt (storeBytes memory start (wordBytes word)) start = word :=
  wordAt_of_holds (storeBytes_holds memory start (by simp [wordBytes]))

/-- The upper halfword of a word stands behind the lower one. -/
theorem wordAt_eq_halves (memory : Memory) (address : Word) :
    wordAt memory address = halfAt memory (address + 2) ++ halfAt memory address := by
  have next : address + 2 + 1 = address + 3 := by bv_omega
  rw [halfAt, halfAt, next, wordAt, BitVec.append_assoc]
  rfl

/-- Two ranges without a common address. -/
def Apart (start : Word) (size : Nat) (other : Word) (otherSize : Nat) : Prop :=
  ∀ here, InRange start size here -> ¬InRange other otherSize here

theorem Apart.symm
    {start other : Word} {size otherSize : Nat}
    (apart : Apart start size other otherSize) : Apart other otherSize start size :=
  fun here inOther inside => apart here inside inOther

/-- The range behind the first bytes of a range is in it. -/
theorem InRange.of_behind
    {start here : Word} {skipped size : Nat}
    (inside : InRange (start + BitVec.ofNat 32 skipped) size here) :
    InRange start (skipped + size) here := by
  have split : here - start =
      (here - (start + BitVec.ofNat 32 skipped)) + BitVec.ofNat 32 skipped := by
    bv_omega
  have bound : (here - (start + BitVec.ofNat 32 skipped)).toNat < size := inside
  rw [InRange, split, BitVec.toNat_add, BitVec.toNat_ofNat]
  have small : (here - (start + BitVec.ofNat 32 skipped)).toNat + skipped % 2 ^ 32 <
      skipped + size := by
    have below := Nat.mod_le skipped (2 ^ 32)
    omega
  exact Nat.lt_of_le_of_lt (Nat.mod_le _ _) small

theorem InRange.weaken
    {start here : Word} {size larger : Nat} (inside : InRange start size here)
    (below : size ≤ larger) : InRange start larger here := Nat.lt_of_lt_of_le inside below

theorem inRange_offset {start : Word} {offset size : Nat} (inside : offset < size)
    (fits : size ≤ 2 ^ 32) : InRange start size (start + BitVec.ofNat 32 offset) := by
  rw [InRange, add_sub_start, toNat_ofNat_of_lt (by omega)]
  exact inside

/-- A word depends on its four bytes only. -/
theorem wordAt_congr
    {before after : Memory} {start : Word}
    (same : ∀ here, InRange start 4 here -> after here = before here) :
    wordAt after start = wordAt before start := by
  have first : after start = before start := by
    have here := same (start + 0#32) (inRange_offset (by decide) (by decide))
    rwa [BitVec.add_zero] at here
  rw [wordAt, wordAt, first, same (start + 1) (inRange_offset (by decide) (by decide)),
    same (start + 2) (inRange_offset (by decide) (by decide)),
    same (start + 3) (inRange_offset (by decide) (by decide))]

/-- A halfword depends on its two bytes only. -/
theorem halfAt_congr
    {before after : Memory} {start : Word}
    (same : ∀ here, InRange start 2 here -> after here = before here) :
    halfAt after start = halfAt before start := by
  have first : after start = before start := by
    have here := same (start + 0#32) (inRange_offset (by decide) (by decide))
    rwa [BitVec.add_zero] at here
  rw [halfAt, halfAt, first, same (start + 1) (inRange_offset (by decide) (by decide))]

/-- Halfwords stay where the memory does not change. -/
theorem HoldsHalves.congr
    {before after : Memory} {start : Word} {halves : List Half}
    (holds : HoldsHalves before start halves) (fits : 2 * halves.length ≤ 2 ^ 32)
    (same : ∀ here, InRange start (2 * halves.length) here -> after here = before here) :
    HoldsHalves after start halves := by
  induction halves generalizing start with
  | nil => trivial
  | cons half halves hypothesis =>
      rw [List.length_cons] at fits same
      obtain ⟨first, rest⟩ := holds
      constructor
      · rw [halfAt_congr fun here inside => same here (inside.weaken (by omega)), first]
      · apply hypothesis rest (by omega)
        intro here inside
        have within : InRange start (2 + 2 * halves.length) here :=
          InRange.of_behind inside
        exact same here (within.weaken (by omega))

/-- Halfwords are not touched by a store elsewhere. -/
theorem HoldsHalves.storeBytes
    {memory : Memory} {start other : Word} {halves : List Half} {bytes : List Byte}
    (holds : HoldsHalves memory start halves) (fits : 2 * halves.length ≤ 2 ^ 32)
    (apart : Apart start (2 * halves.length) other bytes.length) :
    HoldsHalves (storeBytes memory other bytes) start halves :=
  holds.congr fits fun here inside => storeBytes_outside (apart here inside)

/-- Words stay where the memory does not change. -/
theorem HoldsWords.congr
    {before after : Memory} {start : Word} {words : List Word}
    (holds : HoldsWords before start words) (fits : 4 * words.length ≤ 2 ^ 32)
    (same : ∀ here, InRange start (4 * words.length) here -> after here = before here) :
    HoldsWords after start words := by
  induction words generalizing start with
  | nil => trivial
  | cons word words hypothesis =>
      rw [List.length_cons] at fits same
      obtain ⟨first, rest⟩ := holds
      constructor
      · rw [wordAt_congr fun here inside => same here (inside.weaken (by omega)), first]
      · apply hypothesis rest (by omega)
        intro here inside
        have within : InRange start (4 + 4 * words.length) here :=
          InRange.of_behind inside
        exact same here (within.weaken (by omega))

/-- Words are not touched by a store elsewhere. -/
theorem HoldsWords.storeBytes
    {memory : Memory} {start other : Word} {words : List Word} {bytes : List Byte}
    (holds : HoldsWords memory start words) (fits : 4 * words.length ≤ 2 ^ 32)
    (apart : Apart start (4 * words.length) other bytes.length) :
    HoldsWords (storeBytes memory other bytes) start words :=
  holds.congr fits fun here inside => storeBytes_outside (apart here inside)

/-! ## Storing halfwords and words -/

/-- Overwrite consecutive halfwords. -/
def storeHalves (memory : Memory) (start : Word) (halves : List Half) : Memory :=
  storeBytes memory start (halves.flatMap halfBytes)

/-- Overwrite consecutive words. -/
def storeWords (memory : Memory) (start : Word) (words : List Word) : Memory :=
  storeBytes memory start (words.flatMap wordBytes)

theorem length_flatMap_halfBytes (halves : List Half) :
    (halves.flatMap halfBytes).length = 2 * halves.length := by
  induction halves with
  | nil => rfl
  | cons half halves hypothesis =>
      rw [List.flatMap_cons, List.length_append, hypothesis, List.length_cons]
      change 2 + 2 * halves.length = 2 * (halves.length + 1)
      omega

theorem length_flatMap_wordBytes (words : List Word) :
    (words.flatMap wordBytes).length = 4 * words.length := by
  induction words with
  | nil => rfl
  | cons word words hypothesis =>
      rw [List.flatMap_cons, List.length_append, hypothesis, List.length_cons]
      change 4 + 4 * words.length = 4 * (words.length + 1)
      omega

/-- The first part of the bytes stands where all of them do. -/
theorem HoldsBytes.left
    {memory : Memory} {start : Word} {bytes more : List Byte}
    (holds : HoldsBytes memory start (bytes ++ more)) : HoldsBytes memory start bytes := by
  intro offset byte present
  have inside : offset < bytes.length := (List.getElem?_eq_some_iff.mp present).1
  exact holds offset byte (by rw [List.getElem?_append_left inside, present])

/-- The other part stands behind the first one. -/
theorem HoldsBytes.right
    {memory : Memory} {start : Word} {bytes more : List Byte}
    (holds : HoldsBytes memory start (bytes ++ more)) :
    HoldsBytes memory (start + BitVec.ofNat 32 bytes.length) more := by
  intro offset byte present
  rw [BitVec.add_assoc, ← BitVec.ofNat_add]
  apply holds
  rw [List.getElem?_append_right (Nat.le_add_right _ _), Nat.add_sub_cancel_left, present]

/-- Words stand where their bytes do. -/
theorem holdsWords_of_bytes
    {memory : Memory} {start : Word} {words : List Word}
    (holds : HoldsBytes memory start (words.flatMap wordBytes)) :
    HoldsWords memory start words := by
  induction words generalizing start with
  | nil => trivial
  | cons word words hypothesis =>
      rw [List.flatMap_cons] at holds
      exact ⟨wordAt_of_holds holds.left, hypothesis holds.right⟩

/-- Bytes that stand behind each other are one run of bytes. -/
theorem HoldsBytes.append
    {memory : Memory} {start : Word} {bytes more : List Byte}
    (first : HoldsBytes memory start bytes)
    (rest : HoldsBytes memory (start + BitVec.ofNat 32 bytes.length) more) :
    HoldsBytes memory start (bytes ++ more) := by
  intro offset byte present
  by_cases inside : offset < bytes.length
  · rw [List.getElem?_append_left inside] at present
    exact first offset byte present
  · have behind : bytes.length ≤ offset := Nat.not_lt.mp inside
    rw [List.getElem?_append_right behind] at present
    have there := rest _ byte present
    rwa [BitVec.add_assoc, ← BitVec.ofNat_add, Nat.add_sub_cancel' behind] at there

theorem holdsBytes_of_wordAt {memory : Memory} {start word : Word}
    (stands : wordAt memory start = word) : HoldsBytes memory start (wordBytes word) := by
  have home : start + BitVec.ofNat 32 0 = start := BitVec.add_zero start
  have first : word.extractLsb' 0 8 = memory start := by
    rw [← stands, wordAt, BitVec.extractLsb'_append_eq_right]
  have second : word.extractLsb' 8 8 = memory (start + 1) := by
    rw [← stands, wordAt, BitVec.extractLsb'_append_eq_of_le (by decide),
      BitVec.extractLsb'_append_eq_right]
  have third : word.extractLsb' 16 8 = memory (start + 2) := by
    rw [← stands, wordAt, BitVec.extractLsb'_append_eq_of_le (by decide),
      BitVec.extractLsb'_append_eq_of_le (by decide), BitVec.extractLsb'_append_eq_right]
  have fourth : word.extractLsb' 24 8 = memory (start + 3) := by
    rw [← stands, wordAt, BitVec.append_assoc, BitVec.append_assoc]
    exact BitVec.extractLsb'_append_eq_left
  rw [wordBytes, first, second, third, fourth]
  intro offset byte present
  match offset with
  | 0 => rw [home]; exact Option.some.inj present
  | 1 | 2 | 3 => exact Option.some.inj present
  | offset + 4 => simp at present

/-- The bytes of words stand where the words do. -/
theorem holdsBytes_of_words
    {memory : Memory} {start : Word} {words : List Word} (holds : HoldsWords memory start words) :
    HoldsBytes memory start (words.flatMap wordBytes) := by
  induction words generalizing start with
  | nil =>
      intro offset byte present
      simp at present
  | cons word words hypothesis =>
      rw [List.flatMap_cons]
      exact (holdsBytes_of_wordAt holds.1).append (hypothesis holds.2)

/-- Halfwords stand where their bytes do. -/
theorem holdsHalves_of_bytes
    {memory : Memory} {start : Word} {halves : List Half}
    (holds : HoldsBytes memory start (halves.flatMap halfBytes)) :
    HoldsHalves memory start halves := by
  induction halves generalizing start with
  | nil => trivial
  | cons half halves hypothesis =>
      rw [List.flatMap_cons] at holds
      exact ⟨halfAt_of_holds holds.left, hypothesis holds.right⟩

/-- A store of words leaves the words. -/
theorem storeWords_holds
    (memory : Memory) (start : Word) {words : List Word} (fits : 4 * words.length ≤ 2 ^ 32) :
    HoldsWords (storeWords memory start words) start words := by
  apply holdsWords_of_bytes
  apply storeBytes_holds
  rwa [length_flatMap_wordBytes]

/-- A store of halfwords leaves the halfwords. -/
theorem storeHalves_holds
    (memory : Memory) (start : Word) {halves : List Half}
    (fits : 2 * halves.length ≤ 2 ^ 32) :
    HoldsHalves (storeHalves memory start halves) start halves := by
  apply holdsHalves_of_bytes
  apply storeBytes_holds
  rwa [length_flatMap_halfBytes]

end WordMemory
