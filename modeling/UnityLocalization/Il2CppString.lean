import UnityLocalization.Library.Int32
import UnityLocalization.Library.Utf16
import UnityLocalization.Table

/-!
# Il2Cpp string objects

A string object is a twelve-byte header, whose last four bytes are the number
of code units, followed by the units in UTF-16LE.  Its image in memory is
followed by arbitrary bytes.
-/

namespace UnityLocalization

open CMemory Utf16

/-- A string object whose length fits its `int` field. -/
structure Il2CppString where
  /-- The class and monitor words. -/
  objectHeader : Bytes
  objectHeader_length : objectHeader.length = 8
  units : List UInt16
  units_lt : units.length < 2147483648

namespace Il2CppString

/-- The header with the length field. -/
def header (string : Il2CppString) : Bytes :=
  string.objectHeader ++ int32Bytes string.units.length

/-- The bytes of the text. -/
def payload (string : Il2CppString) : Bytes := encode string.units

/-- The memory from the object on, with the given bytes behind its last code
unit. -/
def image (string : Il2CppString) (tail : Nat -> UInt8) : Nat -> UInt8 :=
  fun offset =>
    ((string.header ++ string.payload)[offset]?).getD
      (tail (offset - (string.header ++ string.payload).length))

/-- A string object whose class and monitor words are zero. -/
def ofUnits (units : List UInt16) (units_lt : units.length < 2147483648) :
    Il2CppString :=
  ⟨calloc 8, rfl, units, units_lt⟩

/-- The string `aaB`. -/
def lateCapital : Il2CppString := ofUnits [0x61, 0x61, 0x42] (by decide)

/-- The number of payload bytes. -/
abbrev size (string : Il2CppString) : Nat := 2 * string.units.length

@[simp] theorem length_header (string : Il2CppString) :
    string.header.length = headerSize := by
  simp [header, string.objectHeader_length]

@[simp] theorem length_payload (string : Il2CppString) :
    string.payload.length = string.size := by
  simp [payload]

theorem image_of_header
    (string : Il2CppString) (tail : Nat -> UInt8) {offset : Nat}
    (inside : offset < headerSize) :
    string.header[offset]? = some (string.image tail offset) := by
  have bounded : offset < string.header.length := by simpa using inside
  rw [image, List.getElem?_append_left bounded, List.getElem?_eq_getElem bounded]
  rfl

theorem image_of_payload
    (string : Il2CppString) (tail : Nat -> UInt8) {offset : Nat}
    (inside : offset < string.size) :
    string.payload[offset]? = some (string.image tail (headerSize + offset)) := by
  have bounded : offset < string.payload.length := by simpa using inside
  have behind : string.header.length ≤ headerSize + offset := by simp
  rw [image, List.getElem?_append_right behind, length_header,
    Nat.add_sub_cancel_left, List.getElem?_eq_getElem bounded]
  rfl

/-- The header bytes in memory. -/
theorem bytesAt_image_header (string : Il2CppString) (tail : Nat -> UInt8) :
    bytesAt (string.image tail) 0 headerSize = string.header := by
  apply List.ext_getElem?
  intro offset
  by_cases inside : offset < headerSize
  · rw [getElem?_bytesAt _ _ _ _ inside, Nat.zero_add,
      image_of_header string tail inside]
  · rw [List.getElem?_eq_none (by simpa using inside),
      List.getElem?_eq_none (by simpa using inside)]

/-- The text bytes in memory. -/
theorem take_bytesAt_image
    (string : Il2CppString) (tail : Nat -> UInt8) {count : Nat}
    (covers : string.size ≤ count) :
    (bytesAt (string.image tail) headerSize count).take string.size =
      string.payload := by
  apply List.ext_getElem?
  intro offset
  rw [List.getElem?_take]
  split
  case isTrue inside =>
    rw [getElem?_bytesAt _ _ _ _ (by omega), image_of_payload string tail inside]
  case isFalse outside =>
    rw [List.getElem?_eq_none (by simpa using outside)]

/-! ## Objects in memory -/

/-- The header and the text of the object are readable through the pointer. -/
def LiesAt (string : Il2CppString) (region : Region) : Prop :=
  ∀ offset byte, (string.header ++ string.payload)[offset]? = some byte ->
    region offset = some byte

theorem liesAt_image (string : Il2CppString) (tail : Nat -> UInt8) :
    string.LiesAt (readable (string.image tail)) := by
  intro offset byte present
  rw [readable, image, present]
  rfl

/-- The object at the start of a buffer. -/
theorem liesAt_append (string : Il2CppString) (behind : Bytes) :
    string.LiesAt (regionOf (string.header ++ string.payload ++ behind)) := by
  intro offset byte present
  obtain ⟨inside, -⟩ := List.getElem?_eq_some_iff.mp present
  rw [regionOf, List.getElem?_append_left inside]
  exact present

/-- What lies behind the text, with zeros where nothing is readable. -/
def behind (string : Il2CppString) (region : Region) : Nat -> UInt8 :=
  fun offset => (region ((string.header ++ string.payload).length + offset)).getD 0

/-- The image with these bytes behind it holds what is readable. -/
theorem LiesAt.holds {string : Il2CppString} {region : Region}
    (lies : string.LiesAt region) :
    Holds (string.image (string.behind region)) region := by
  intro offset byte present
  rw [image]
  cases stored : (string.header ++ string.payload)[offset]? with
  | some own => exact Option.some.inj ((lies offset own stored).symm.trans present)
  | none =>
      have past := List.getElem?_eq_none_iff.mp stored
      rw [Option.getD_none, behind, Nat.add_sub_cancel' past, present]
      rfl

/-- The header bytes in memory. -/
theorem LiesAt.header {string : Il2CppString} {region : Region}
    (lies : string.LiesAt region) {offset : Nat} {byte : UInt8}
    (present : string.header[offset]? = some byte) : region offset = some byte := by
  obtain ⟨inside, -⟩ := List.getElem?_eq_some_iff.mp present
  refine lies offset byte ?_
  rw [List.getElem?_append_left inside]
  exact present

theorem LiesAt.read_header {string : Il2CppString} {region : Region}
    (lies : string.LiesAt region) : read region 0 headerSize = .ok string.header := by
  rw [← string.length_header]
  apply read_of_stored
  intro index byte present
  rw [Nat.zero_add]
  exact lies.header present

/-- The length field in memory. -/
theorem LiesAt.loadInt32 {string : Il2CppString} {region : Region}
    (lies : string.LiesAt region) :
    loadInt32 region 8 = .ok string.units.length := by
  have bound := string.units_lt
  rw [loadInt32_of_stored _ _ string.units.length, wrapInt32_of_lt (by omega) (by omega)]
  intro index inside
  have words := string.objectHeader_length
  have stored : string.header[8 + index]? =
      (int32Bytes string.units.length)[index]? := by
    rw [Il2CppString.header, List.getElem?_append_right (by omega), words,
      Nat.add_sub_cancel_left]
  have field : index < (int32Bytes string.units.length).length := by simpa using inside
  rw [List.getElem?_eq_getElem field] at stored ⊢
  exact lies.header stored

theorem loadInt32_image (string : Il2CppString) (tail : Nat -> UInt8) :
    CMemory.loadInt32 (readable (string.image tail)) 8 = .ok string.units.length :=
  (string.liesAt_image tail).loadInt32

/-- The first byte of a nonempty text in memory. -/
theorem LiesAt.load_first {string : Il2CppString} {region : Region}
    (lies : string.LiesAt region) (nonempty : string.units ≠ []) :
    ∃ byte, string.payload[0]? = some byte ∧ load region headerSize = .ok byte := by
  have positive := List.length_pos_of_ne_nil nonempty
  have inside : 0 < string.payload.length := by
    rw [string.length_payload]
    exact Nat.mul_pos Nat.two_pos positive
  have present : string.payload[0]? = some string.payload[0] :=
    List.getElem?_eq_getElem inside
  refine ⟨_, present, ?_⟩
  have stored : region headerSize = some string.payload[0] := by
    refine lies headerSize _ ?_
    rw [← string.length_header, List.getElem?_append_right (le_refl _), Nat.sub_self]
    exact present
  rw [load, stored]

/-- The length field of an object at the start of a block. -/
theorem loadInt32_header (string : Il2CppString) (behind : Bytes) :
    loadInt32 (regionOf (string.header ++ behind)) 8 = .ok string.units.length := by
  have bound := string.units_lt
  rw [loadInt32_of_stored _ _ string.units.length, wrapInt32_of_lt (by omega) (by omega)]
  intro index inside
  have words := string.objectHeader_length
  rw [regionOf, header, List.append_assoc, List.getElem?_append_right (by omega), words,
    Nat.add_sub_cancel_left, List.getElem?_append_left (by simpa using inside)]

end Il2CppString
end UnityLocalization
