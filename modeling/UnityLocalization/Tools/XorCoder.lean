import UnityLocalization.Library.CString
import UnityLocalization.Library.XorMask
import Mathlib.Data.UInt

/-!
# The XOR coder

`encode` masks the first bytes of a buffer with a byte, with every byte of a
vector, or with the bytes of a string.  The string overload measures its key with
`strlen`, so only the part before the first zero byte takes effect.
-/

namespace UnityLocalization
namespace Tools

open CMemory XorMask

/-- The loop over the buffer, with `count` bytes left.  Lengths are below 2^31, where
the `int` index reaches them. -/
def encodeLoop (key : UInt8) : (count index : Nat) -> (start : Bytes) -> Checked Bytes
  | 0, _, start => .ok start
  | count + 1, index, start => do
      let current ← load (regionOf start) index
      let start ← store start index (key ^^^ current)
      encodeLoop key count (index + 1) start

/-- `encode(start, length, key)` for a byte -/
def encodeByte (start : Bytes) (length : Nat) (key : UInt8) : Checked Bytes :=
  encodeLoop key length 0 start

/-- `encode(start, length, key)` for a `vector<byte>` -/
def encodeVector (start : Bytes) (length : Nat) : (key : Bytes) -> Checked Bytes
  | [] => .ok start
  | index :: key => do
      let start ← encodeByte start length index
      encodeVector start length key

/-- `encode(start, length, key)` for a `string`: `c_str` ends the bytes of the key
with a zero, and `strlen` is the same in every turn of the copying loop. -/
def encodeString (start : Bytes) (length : Nat) (key : Bytes) : Checked Bytes := do
  let str := key ++ [0]
  let count ← strlen str
  let bt ← read (regionOf str) 0 count
  encodeVector start length bt

/-- Encoding with a string and then with the vector of all its bytes gives the
buffer back. -/
def Restores (start : Bytes) (length : Nat) (key : Bytes) : Prop :=
  (do
    let encoded ← encodeString start length key
    encodeVector encoded length key) = .ok start

instance (start : Bytes) (length : Nat) (key : Bytes) :
    Decidable (Restores start length key) :=
  inferInstanceAs (Decidable (_ = _))

/-! ## Encoding is masking -/

/-- One turn of the loop masks one byte more. -/
theorem set_maskBelow
    {start : Bytes} {index : Nat} (key : UInt8) (inside : index < start.length) :
    (maskBelow index key start).set index (key ^^^ start[index]) =
      maskBelow (index + 1) key start := by
  apply List.ext_getElem?
  intro offset
  by_cases here : offset = index
  · subst here
    rw [List.getElem?_set_self (by simpa using inside), getElem?_maskBelow,
      List.getElem?_eq_getElem inside]
    simp
  · have below : offset < index + 1 ↔ offset < index := by omega
    rw [List.getElem?_set_ne (Ne.symm here), getElem?_maskBelow, getElem?_maskBelow]
    simp only [below]

theorem encodeLoop_maskBelow
    {start : Bytes} {count index : Nat} (key : UInt8)
    (inside : index + count ≤ start.length) :
    encodeLoop key count index (maskBelow index key start) =
      .ok (maskBelow (index + count) key start) := by
  induction count generalizing index with
  | zero => rfl
  | succ count inductionHypothesis =>
      have here : index < start.length := by omega
      have sized : index < (maskBelow index key start).length := by simpa using here
      have current : (maskBelow index key start)[index] = start[index] := by
        apply Option.some.inj
        rw [← List.getElem?_eq_getElem sized, getElem?_maskBelow,
          List.getElem?_eq_getElem here]
        simp
      rw [encodeLoop, load_regionOf _ _ sized, ok_bind, store_of_lt _ _ _ sized, ok_bind,
        current, set_maskBelow key here, inductionHypothesis (by omega),
        show index + 1 + count = index + (count + 1) by omega]

theorem encodeByte_ok
    {start : Bytes} {length : Nat} (key : UInt8) (inside : length ≤ start.length) :
    encodeByte start length key = .ok (maskBelow length key start) := by
  have masked := @encodeLoop_maskBelow start length 0 key (by omega)
  have unmasked : maskBelow 0 key start = start :=
    (maskBelow_eq_self_iff key (Nat.zero_le _)).mpr (.inl rfl)
  rwa [unmasked, Nat.zero_add] at masked

/-- A vector of bytes masks once with the XOR of all of them. -/
theorem encodeVector_ok
    {start : Bytes} {length : Nat} (key : Bytes) (inside : length ≤ start.length) :
    encodeVector start length key = .ok (maskBelow length (xorAll key) start) := by
  induction key generalizing start with
  | nil => rw [encodeVector, xorAll_nil, maskBelow_zero]
  | cons index key inductionHypothesis =>
      rw [encodeVector, encodeByte_ok index inside, ok_bind,
        inductionHypothesis (by simpa using inside), maskBelow_maskBelow, xorAll_cons]

/-- The string overload uses the key up to its first zero byte. -/
theorem encodeString_eq (start : Bytes) (length : Nat) (key : Bytes) :
    encodeString start length key =
      encodeVector start length (key.takeWhile fun byte => byte ≠ 0) := by
  obtain ⟨more, split⟩ := exists_terminated key []
  rw [encodeString, split, strlen_terminated _ _ (zero_not_mem_takeWhile key), ok_bind,
    read_regionOf _ _ _ (by simp), ok_bind, List.drop_zero, List.take_left]

/-- The second encoding undoes the first exactly if there is nothing to undo, or the key
bytes behind the first zero byte cancel each other. -/
theorem restores_iff
    {start : Bytes} {length : Nat} (key : Bytes) (inside : length ≤ start.length) :
    Restores start length key ↔
      length = 0 ∨ xorAll (key.dropWhile fun byte => byte ≠ 0) = 0 := by
  have cancelled : xorAll (key.takeWhile fun byte => byte ≠ 0) ^^^ xorAll key =
      xorAll (key.dropWhile fun byte => byte ≠ 0) := by
    have split := xorAll_append (key.takeWhile fun byte => byte ≠ 0)
      (key.dropWhile fun byte => byte ≠ 0)
    rw [List.takeWhile_append_dropWhile] at split
    rw [split, xor_cancel_left]
  rw [Restores, encodeString_eq, encodeVector_ok _ inside, ok_bind,
    encodeVector_ok _ (by simpa using inside), maskBelow_maskBelow, cancelled,
    Except.ok.injEq, maskBelow_eq_self_iff _ inside]

theorem restores_iff_letters :
    Restores [0x41, 0x42] 1 [0x61, 0x62] ↔
      1 = 0 ∨ xorAll (([0x61, 0x62] : Bytes).dropWhile fun byte => byte ≠ 0) = 0 :=
  @restores_iff [0x41, 0x42] 1 [0x61, 0x62] (by decide)

/-- A key with a zero byte inside. -/
theorem not_restores_zeroByte : ¬Restores [0x41, 0x42] 1 [0x61, 0x00, 0x62] := by
  decide

end Tools
end UnityLocalization
