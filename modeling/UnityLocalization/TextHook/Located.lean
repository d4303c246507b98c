import UnityLocalization.TextHook.Search

/-!
# Strings in memory

What lies behind the text of a string need not be readable.  The accessors read
there in two places: `memccpy` copies up to `SplitSize` bytes behind the header,
and the dump before a rebuild reads `EndSize` bytes behind the text.  Where these
reads stay in the memory, an accessor does what it does on an image of the string
that is readable throughout.
-/

namespace UnityLocalization
namespace TextHook

open CMemory Tools Table Utf16 TextReplace

/-- A string object in the memory of the game; its header and its text are
readable. -/
structure StringAt where
  string : Il2CppString
  /-- The memory seen from the pointer to the object. -/
  region : Region
  lies : string.LiesAt region

/-- A string with readable memory behind it. -/
def StringAt.ofImage (string : Il2CppString) (tail : Nat -> UInt8) : StringAt :=
  ⟨string, readable (string.image tail), string.liesAt_image tail⟩

/-- The `SplitSize` bytes behind the header are readable, through the first stop
byte among them. -/
def CopyReadable (endPointer : UInt32) (object : StringAt) : Prop :=
  ReadableThrough object.region headerSize (stopByte endPointer) splitSize

/-- The image of the string that holds what the memory holds. -/
def StringAt.image (object : StringAt) : Region :=
  readable (object.string.image (object.string.behind object.region))

/-- The copy of the text returns if the bytes it reaches are readable, and then
copies what the image holds. -/
theorem memccpy_at_iff
    (endPointer : UInt32) (object : StringAt) {destination copied : Bytes} :
    memccpy destination object.region headerSize (stopByte endPointer) splitSize =
        .ok copied ↔
      CopyReadable endPointer object ∧
        memccpy destination object.image headerSize (stopByte endPointer) splitSize =
          .ok copied := by
  have more := object.lies.holds.readThrough headerSize (stopByte endPointer) splitSize
  rw [CopyReadable, ← readThrough_returns_iff, memccpy, memccpy]
  constructor
  · intro returned
    obtain ⟨data, readData, written⟩ := bind_eq_ok.mp returned
    exact ⟨⟨data, readData⟩, bind_eq_ok.mpr ⟨data, more data readData, written⟩⟩
  · rintro ⟨⟨data, readData⟩, returned⟩
    have imageRead := more data readData
    rw [StringAt.image, imageRead] at returned
    exact bind_eq_ok.mpr ⟨data, readData, returned⟩

theorem memcpy_header_eq (object : StringAt) (block : Bytes) :
    memcpy block 0 object.region 0 headerSize =
      memcpy block 0 object.image 0 headerSize := by
  have imageLies := object.string.liesAt_image (object.string.behind object.region)
  have notNegative : ¬((headerSize : Int) < 0) := by decide
  simp only [memcpy, notNegative, if_false, Int.toNat_natCast, object.lies.read_header,
    StringAt.image, imageLies.read_header]

/-- The walk through the table is that on the image, once the text is copied. -/
theorem walkTable_at_iff
    {convertSize : Nat} {file : Bytes} {endPointer : UInt32} {globals : Globals}
    {dumped : Option Region} {srcLength : Int} {header middle : Bytes} {state : LoopState}
    (loaded : Loaded file endPointer globals) (object : StringAt) :
    walkTable convertSize globals object.region dumped srcLength header middle =
        .ok state ↔
      CopyReadable endPointer object ∧
        walkTable convertSize globals object.image dumped srcLength header middle =
          .ok state := by
  have stop : globals.endPointer.toUInt8 = stopByte endPointer := by
    rw [loaded.endPointer, stopByte]
  simp only [walkTable, memcpy_header_eq object, stop, bind_eq_ok, memccpy_at_iff]
  constructor
  · rintro ⟨cleared, clearedHeader, copied, copiedHeader, zeroed, zeroedMiddle, filled,
      ⟨reads, filledMiddle⟩, rest⟩
    exact ⟨reads, cleared, clearedHeader, copied, copiedHeader, zeroed, zeroedMiddle,
      filled, filledMiddle, rest⟩
  · rintro ⟨reads, cleared, clearedHeader, copied, copiedHeader, zeroed, zeroedMiddle,
      filled, filledMiddle, rest⟩
    exact ⟨cleared, clearedHeader, copied, copiedHeader, zeroed, zeroedMiddle, filled,
      ⟨reads, filledMiddle⟩, rest⟩

/-- The walk through a well-formed table, apart from what it dumps at a match. -/
theorem walkTable_located_iff
    {convertSize : Nat} {table : MappingTable} {endPointer : UInt32}
    {globals : Globals} {header middle : Bytes} {state : LoopState}
    (room : 200 ≤ convertSize)
    (loaded : Loaded table.file endPointer globals)
    (headerLength : header.length = headerSize)
    (middleLength : middle.length = middleSize)
    (object : StringAt) (dumped : Option Region) :
    walkTable convertSize globals object.region dumped
        (wrapInt32 (object.string.units.length * 2)) header middle = .ok state ↔
      (CopyReadable endPointer object ∧
        (NoneApplies (searchedText endPointer object.string) 0 table.entries ∨
          Dumpable dumped object.string.size)) ∧
        walkTable convertSize globals object.image none
          (wrapInt32 (object.string.units.length * 2)) header middle = .ok state := by
  obtain ⟨only, -, -, substituted, walked⟩ := walkTable_string room loaded headerLength
    middleLength object.string (object.string.behind object.region) (dumpable_none _)
    (linesFit_lines table _)
  have translated : only.substitution = translate table endPointer object.string :=
    substituted
  have dumps : (only.substitution.isSome ->
      DumpReturns dumped (wrapInt32 (object.string.units.length * 2))) ↔
      (NoneApplies (searchedText endPointer object.string) 0 table.entries ∨
        Dumpable dumped object.string.size) := by
    rw [← translate_eq_none_iff, translated]
    cases found : translate table endPointer object.string with
    | none => simp
    | some substitution =>
        rw [wrapInt32_double_of_short (size_lt_of_translate found), dumpReturns_iff]
        simp
  rw [walkTable_at_iff loaded, walkTable_dumped_iff dumped, ← dumps, and_assoc]
  refine and_congr_right fun reads => ?_
  rw [and_comm]
  refine and_congr_left fun walkedToo => ?_
  rw [Except.ok.inj (walked.symm.trans walkedToo)]

/-! ## The accessors -/

/-- The setter stays in the memory of the string: the text is empty, or its copy
is readable, and the dump as well where an entry applies. -/
def SetterReads
    (table : MappingTable) (endPointer : UInt32) (object : StringAt) : Prop :=
  object.string.units = [] ∨
    CopyReadable endPointer object ∧
      (NoneApplies (searchedText endPointer object.string) 0 table.entries ∨
        Dumpable (some object.region) object.string.size)

/-- The setter returns exactly if its reads stay in the memory, with the result it
has on the image. -/
theorem newFuncSet_at_iff
    {table : MappingTable} {endPointer : UInt32} {globals : Globals}
    (ready : Ready table endPointer globals)
    (arg arg2 arg3 : UInt32) (object : StringAt) {result : SetResult} :
    newFuncSet globals arg (some object.region) arg2 arg3 = .ok result ↔
      SetterReads table endPointer object ∧
        newFuncSet globals arg (some object.image) arg2 arg3 = .ok result := by
  have loaded := (ready_iff_loaded.mp ready).countSet (globals.currentSetIndex + 1)
  have imageLies := object.string.liesAt_image (object.string.behind object.region)
  have imageDumps := (dumpable_readable
    (object.string.image (object.string.behind object.region))
    object.string.size).dumpReturns (wrapInt32_double_le object.string)
  rw [SetterReads, newFuncSet_of_liesAt _ _ _ _ object.lies, StringAt.image,
    newFuncSet_of_liesAt _ _ _ _ imageLies]
  dsimp only
  split
  case isTrue empty => exact ⟨fun returned => ⟨Or.inl empty, returned⟩, fun both => both.2⟩
  case isFalse nonempty =>
    simp only [bind_eq_ok, nonempty, false_or, StringAt.image,
      walkTable_located_iff (show 200 ≤ splitSize * 2 by decide) loaded loaded.headerSet
        loaded.middleSet object,
      walkTable_dumped_iff (some (readable _)), imageDumps, implies_true, and_true]
    constructor
    · rintro ⟨state, ⟨reads, walked⟩, finished⟩
      exact ⟨reads, state, walked, finished⟩
    · rintro ⟨reads, state, walked, finished⟩
      exact ⟨state, ⟨reads, walked⟩, finished⟩

theorem newFuncSet_at_returns_iff
    {table : MappingTable} {endPointer : UInt32} {globals : Globals}
    (ready : Ready table endPointer globals)
    (arg arg2 arg3 : UInt32) (object : StringAt) :
    (∃ result, newFuncSet globals arg (some object.region) arg2 arg3 = .ok result) ↔
      SetterReads table endPointer object := by
  obtain ⟨globalsAfter, -, imageReturned⟩ := newFuncSet_ok ready arg arg2 arg3
    object.string (object.string.behind object.region)
  constructor
  · rintro ⟨result, returned⟩
    exact ((newFuncSet_at_iff ready arg arg2 arg3 object).mp returned).1
  · intro reads
    exact ⟨_, (newFuncSet_at_iff ready arg arg2 arg3 object).mpr ⟨reads, imageReturned⟩⟩

/-- The getter stays in the memory of the string that the original getter
returned, and in that of `arg1`. -/
def GetterReads
    (table : MappingTable) (endPointer arg : UInt32) (arg1 : Option Region)
    (object : StringAt) : Prop :=
  GetterSkips arg object.string ∨
    CopyReadable endPointer object ∧
      (NoneApplies (searchedText endPointer object.string) 0 table.entries ∨
        Dumpable arg1 object.string.size)

/-- The getter returns exactly if its reads stay in the memory, with the result it
has on the image. -/
theorem newFuncGet_at_iff
    {table : MappingTable} {endPointer : UInt32} {globals : Globals}
    (ready : Ready table endPointer globals)
    (arg : UInt32) (arg1 : Option Region) (arg2 arg3 : UInt32)
    (object : StringAt) {result : GetResult} :
    newFuncGet globals (some object.region) arg arg1 arg2 arg3 = .ok result ↔
      GetterReads table endPointer arg arg1 object ∧
        newFuncGet globals (some object.image) arg none arg2 arg3 = .ok result := by
  have loaded := (ready_iff_loaded.mp ready).countGet (globals.currentGetIndex + 1)
  have imageLies := object.string.liesAt_image (object.string.behind object.region)
  rw [GetterReads, newFuncGet_of_liesAt _ _ _ _ _ object.lies, StringAt.image,
    newFuncGet_of_liesAt _ _ _ _ _ imageLies]
  dsimp only
  split
  case isTrue skipped =>
    exact ⟨fun returned => ⟨Or.inl skipped, returned⟩, fun both => both.2⟩
  case isFalse walks =>
    simp only [bind_eq_ok, walks, false_or, StringAt.image,
      walkTable_located_iff (show 200 ≤ middleSize * 2 by decide) loaded loaded.headerGet
        loaded.middleGet object]
    constructor
    · rintro ⟨state, ⟨reads, walked⟩, finished⟩
      exact ⟨reads, state, walked, finished⟩
    · rintro ⟨reads, state, walked, finished⟩
      exact ⟨state, ⟨reads, walked⟩, finished⟩

end TextHook
end UnityLocalization
