import UnityLocalization.Library.Memory

/-!
# Little-endian 32-bit integers in memory

The values are C `int`s: integers reduced to the two's-complement range.
-/

namespace CMemory

/-- Reduction to the range of a 32-bit `int`. -/
def wrapInt32 (value : Int) : Int := value.bmod 4294967296

/-- The stored bytes of an `int`, low byte first. -/
def int32Bytes (value : Int) : Bytes :=
  let word := (value % 4294967296).toNat
  [UInt8.ofNat word, UInt8.ofNat (word / 256),
    UInt8.ofNat (word / 65536), UInt8.ofNat (word / 16777216)]

/-- Dereference an `int` pointer. -/
def loadInt32 (region : Region) (offset : Nat) : Checked Int := do
  let byte0 ← load region offset
  let byte1 ← load region (offset + 1)
  let byte2 ← load region (offset + 2)
  let byte3 ← load region (offset + 3)
  return wrapInt32 (byte0.toNat + 256 * byte1.toNat + 65536 * byte2.toNat +
    16777216 * byte3.toNat)

/-- `calloc` with a computed size.  A negative size exceeds every allocation,
and the null result faults at its first use. -/
def callocSize (size : Int) : Checked Bytes :=
  if size < 0 then .error .nullDereference else .ok (calloc size.toNat)

@[simp] theorem length_int32Bytes (value : Int) : (int32Bytes value).length = 4 := rfl

theorem wrapInt32_of_lt
    {value : Int} (lower : -2147483648 ≤ value) (upper : value < 2147483648) :
    wrapInt32 value = value := by
  unfold wrapInt32
  rw [Int.bmod_def]
  omega

theorem wrapInt32_emod (value : Int) :
    wrapInt32 (value % 4294967296) = wrapInt32 value := by
  exact Int.emod_bmod value 4294967296

/-- Loading stored bytes gives the stored value back. -/
theorem loadInt32_of_stored
    (region : Region) (offset : Nat) (value : Int)
    (stored : ∀ index, index < 4 ->
      region (offset + index) = (int32Bytes value)[index]?) :
    loadInt32 region offset = .ok (wrapInt32 value) := by
  have byte0 := stored 0 (by omega)
  have byte1 := stored 1 (by omega)
  have byte2 := stored 2 (by omega)
  have byte3 := stored 3 (by omega)
  simp only [int32Bytes, List.getElem?_cons_zero, List.getElem?_cons_succ,
    Nat.add_zero] at byte0 byte1 byte2 byte3
  have range : 0 ≤ value % 4294967296 ∧ value % 4294967296 < 4294967296 := by
    omega
  obtain ⟨word, wordValue⟩ := Int.eq_ofNat_of_zero_le range.1
  simp only [loadInt32, load, byte0, byte1, byte2, byte3, ok_bind, pure_eq_ok]
  rw [← wrapInt32_emod value, wordValue]
  congr 2
  simp
  omega

end CMemory
