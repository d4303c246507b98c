import UnityLocalization.TextHook.Located

/-!
# Reads of the source string

The setter reads the object it is given in the header copy, in a copy of at most
`SplitSize` bytes that ends at an incidental byte, and in the dump before a
rebuild.  On an object that ends with one zero unit the copy stays inside only
if it meets its stop byte or the text is long, and the dump never does.
-/

namespace UnityLocalization

open CMemory

/-- The bytes a string object occupies: header, text, one zero unit. -/
def Il2CppString.object (string : Il2CppString) : Bytes :=
  string.header ++ string.payload ++ [0, 0]

theorem Il2CppString.length_object (string : Il2CppString) :
    string.object.length = headerSize + string.size + 2 := by
  simp [object]
  omega

namespace TextHook

open Tools Table TextReplace

/-- The object in memory that ends with it. -/
def StringAt.alone (string : Il2CppString) : StringAt :=
  ⟨string, regionOf string.object, string.liesAt_append [0, 0]⟩

@[simp] theorem string_alone (string : Il2CppString) :
    (StringAt.alone string).string = string := rfl

/-! ## The copy and the dump -/

/-- `memccpy` stays inside the object: it meets its stop byte there, or the text
and its zero unit have the `SplitSize` bytes it may copy. -/
def CopyStops (endPointer : UInt32) (string : Il2CppString) : Prop :=
  stopByte endPointer ∈ (string.payload ++ [0, 0]).take splitSize ∨
    splitSize ≤ string.size + 2

instance (endPointer : UInt32) (string : Il2CppString) :
    Decidable (CopyStops endPointer string) :=
  inferInstanceAs (Decidable (_ ∨ _))

theorem copyReadable_alone_iff (endPointer : UInt32) (string : Il2CppString) :
    CopyReadable endPointer (.alone string) ↔ CopyStops endPointer string := by
  have size := string.length_object
  have through := readableThrough_regionOf_iff string.object (stopByte endPointer)
    splitSize (show headerSize ≤ string.object.length by omega)
  rw [CopyReadable, StringAt.alone, through, size, CopyStops, Il2CppString.object,
    List.append_assoc, ← string.length_header, List.drop_left]
  refine or_congr_right ?_
  omega

/-- The dump of `EndSize` bytes behind the text leaves an object with one zero
unit. -/
theorem not_dumpable_alone (string : Il2CppString) :
    ¬Dumpable (some (StringAt.alone string).region) string.size := by
  have size := string.length_object
  rw [← dumpReturns_iff, DumpReturns, StringAt.alone, hexDump_regionOf_iff, size]
  simp only [endSize]
  omega

/-! ## The setter -/

/-- The setter reads the object only where it lies: on memory that holds no
more than the object it returns. -/
def ReadsInside
    (globals : Globals) (arg arg2 arg3 : UInt32) (string : Il2CppString) : Prop :=
  ∃ result, newFuncSet globals arg (some (regionOf string.object)) arg2 arg3 = .ok result

/-- The reads stay inside the object exactly if the text is empty, or the copy
stops in time and no entry applies. -/
theorem newFuncSet_readsInside_iff
    {table : MappingTable} {endPointer : UInt32} {globals : Globals}
    (ready : Ready table endPointer globals)
    (arg arg2 arg3 : UInt32) (string : Il2CppString) :
    ReadsInside globals arg arg2 arg3 string ↔
      string.units = [] ∨
        CopyStops endPointer string ∧
          NoneApplies (searchedText endPointer string) 0 table.entries := by
  have returns := newFuncSet_at_returns_iff ready arg arg2 arg3 (.alone string)
  rw [ReadsInside]
  refine returns.trans ?_
  rw [SetterReads, copyReadable_alone_iff, string_alone,
    or_iff_left (not_dumpable_alone string)]

theorem newFuncSet_readsInside_iff_letters :
    ReadsInside (afterStart .letters 0x10) 1 2 3 .lateCapital ↔
      Il2CppString.lateCapital.units = [] ∨
        CopyStops 0x10 .lateCapital ∧
          NoneApplies (searchedText 0x10 .lateCapital) 0 MappingTable.letters.entries :=
  newFuncSet_readsInside_iff (ready_afterStart .letters 0x10) 1 2 3 .lateCapital

/-- Without a stop byte the copy runs out of the object; with one, the dump of a
match does. -/
theorem newFuncSet_reads_outside :
    ¬ReadsInside (afterStart .letters 0x10) 1 2 3 .lateCapital ∧
      ¬ReadsInside (afterStart .letters 0x100) 1 2 3 keyString := by
  have copied : newFuncSet (afterStart .letters 0x10) 1
      (some (regionOf Il2CppString.lateCapital.object)) 2 3 = .error .outOfBounds := by
    decide +kernel
  have dumped : newFuncSet (afterStart .letters 0x100) 1
      (some (regionOf keyString.object)) 2 3 = .error .outOfBounds := by
    decide +kernel
  constructor
  · rintro ⟨result, returned⟩
    rw [copied] at returned
    cases returned
  · rintro ⟨result, returned⟩
    rw [dumped] at returned
    cases returned

end TextHook
end UnityLocalization
