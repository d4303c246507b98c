import UnityLocalization.TextHook.Located

/-!
# Forwarding to the original accessors

A call of the game forwards once when the original accessor is called exactly
once, with the other arguments unchanged, and without a substitution the
caller's own string is passed on.  The memory of the caller is only read: every
store goes to the buffers of the library.  A call that reads behind that memory
does not come to its end.
-/

namespace UnityLocalization
namespace TextHook

open CMemory Tools Table Utf16

/-- A string pointer of the game: null, or an object in its memory. -/
abbrev TextPointer := Option StringAt

/-- What the pointer leads to. -/
def TextPointer.region (text : TextPointer) : Option Region :=
  text.map StringAt.region

/-- The setter calls the original setter exactly once. -/
def SetForwardsOnce (arg arg2 arg3 : UInt32) (result : Checked SetResult) : Prop :=
  ∃ after passed, result = .ok after ∧
    after.calls = [⟨arg, passed, arg2, arg3⟩] ∧
    (after.substitution = none -> passed = .caller)

/-- The getter calls the original getter exactly once. -/
def GetForwardsOnce (arg arg2 arg3 : UInt32) (result : Checked GetResult) : Prop :=
  ∃ after, result = .ok after ∧
    after.calls = [⟨arg, .caller, arg2, arg3⟩] ∧
    (after.substitution = none -> after.returned = .caller)

/-- The getter gets past its guards and finds an entry. -/
def FindsEntry
    (table : MappingTable) (endPointer arg : UInt32) (string : Il2CppString) : Prop :=
  arg ≠ 0 ∧ string.payload[0]? ≠ some 0 ∧
    ¬NoneApplies (searchedText endPointer string) 0 table.entries

/-- A null string is dereferenced for its length. -/
theorem newFuncSet_null
    (globals : Globals) (arg arg2 arg3 : UInt32) :
    newFuncSet globals arg none arg2 arg3 = .error .nullDereference := rfl

theorem newFuncGet_null
    (globals : Globals) (arg : UInt32) (arg1 : Option Region) (arg2 arg3 : UInt32) :
    newFuncGet globals none arg arg1 arg2 arg3 = .error .nullDereference := rfl

/-- The setter forwards a call once exactly when it is given a string and its
reads stay in the memory of it. -/
theorem setForwardsOnce_iff
    {table : MappingTable} {endPointer : UInt32} {globals : Globals}
    (ready : Ready table endPointer globals)
    (arg arg2 arg3 : UInt32) (text : TextPointer) :
    SetForwardsOnce arg arg2 arg3 (newFuncSet globals arg text.region arg2 arg3) ↔
      ∃ object, text = some object ∧ SetterReads table endPointer object := by
  cases text with
  | none =>
      have fault : newFuncSet globals arg (TextPointer.region none) arg2 arg3 =
          .error .nullDereference := newFuncSet_null globals arg arg2 arg3
      rw [fault]
      constructor
      · rintro ⟨after, passed, returned, -⟩
        cases returned
      · rintro ⟨object, isNull, -⟩
        cases isNull
  | some object =>
      constructor
      · rintro ⟨after, passed, returned, -⟩
        exact ⟨object, rfl, ((newFuncSet_at_iff ready arg arg2 arg3 object).mp returned).1⟩
      · rintro ⟨found, equal, reads⟩
        cases equal
        obtain ⟨globalsAfter, -, imageReturned⟩ := newFuncSet_ok ready arg arg2 arg3
          object.string (object.string.behind object.region)
        have returned :=
          (newFuncSet_at_iff ready arg arg2 arg3 object).mpr ⟨reads, imageReturned⟩
        refine ⟨_, _, returned, rfl, ?_⟩
        intro unchanged
        exact congrArg passedOn unchanged

/-- The getter substitutes exactly when it finds an entry. -/
theorem translateGet_isSome_iff
    {table : MappingTable} {endPointer arg : UInt32} {string : Il2CppString} :
    (translateGet table endPointer arg string).isSome = true ↔
      FindsEntry table endPointer arg string := by
  unfold translateGet FindsEntry
  split
  case isTrue guarded =>
    simp only [Option.isSome_none, Bool.false_eq_true, false_iff]
    rintro ⟨argNonnull, firstNonzero, -⟩
    exact guarded.elim argNonnull firstNonzero
  case isFalse passes =>
    obtain ⟨argNonnull, firstNonzero⟩ := not_or.mp passes
    rw [← translate_eq_none_iff, Option.isSome_iff_ne_none]
    exact ⟨fun found => ⟨argNonnull, firstNonzero, found⟩, fun finds => finds.2.2⟩

/-- A string that the getter skips is not searched. -/
theorem FindsEntry.not_skips
    {table : MappingTable} {endPointer arg : UInt32} {string : Il2CppString}
    (finds : FindsEntry table endPointer arg string) : ¬GetterSkips arg string := by
  intro skips
  have substituted := translateGet_isSome_iff.mpr finds
  rw [translateGet_eq, if_pos skips] at substituted
  cases substituted

/-- A getter that forwards once has substituted, and its reads have stayed in the
memory. -/
theorem findsEntry_of_getForwardsOnce
    {table : MappingTable} {endPointer : UInt32} {globals : Globals}
    (ready : Ready table endPointer globals)
    {arg : UInt32} {arg1 : Option Region} {arg2 arg3 : UInt32} {object : StringAt}
    (forwards : GetForwardsOnce arg arg2 arg3
      (newFuncGet globals (some object.region) arg arg1 arg2 arg3)) :
    FindsEntry table endPointer arg object.string ∧
      CopyReadable endPointer object ∧ Dumpable arg1 object.string.size := by
  obtain ⟨after, returned, once, -⟩ := forwards
  obtain ⟨reads, imageReturned⟩ :=
    (newFuncGet_at_iff ready arg arg1 arg2 arg3 object).mp returned
  -- on the image the result is known
  obtain ⟨globalsAfter, -, known⟩ := newFuncGet_ok ready arg none arg2 arg3
    object.string (object.string.behind object.region) (dumpable_none _)
  obtain rfl := Except.ok.inj (known.symm.trans imageReturned)
  have finds : FindsEntry table endPointer arg object.string := by
    apply translateGet_isSome_iff.mp
    by_contra unchanged
    rw [if_neg unchanged] at once
    cases once
  obtain ⟨copies, dumps⟩ := reads.resolve_left finds.not_skips
  exact ⟨finds, copies, dumps.resolve_left finds.2.2⟩

/-- The getter forwards a call once exactly when it substitutes, which takes an
entry to be found, and its reads stay in the memory of the string and of `arg1`. -/
theorem getForwardsOnce_iff
    {table : MappingTable} {endPointer : UInt32} {globals : Globals}
    (ready : Ready table endPointer globals)
    (arg : UInt32) (arg1 : Option Region) (arg2 arg3 : UInt32)
    (text : TextPointer) :
    GetForwardsOnce arg arg2 arg3
        (newFuncGet globals text.region arg arg1 arg2 arg3) ↔
      ∃ object, text = some object ∧ FindsEntry table endPointer arg object.string ∧
        CopyReadable endPointer object ∧ Dumpable arg1 object.string.size := by
  cases text with
  | none =>
      have fault : newFuncGet globals (TextPointer.region none) arg arg1 arg2 arg3 =
          .error .nullDereference :=
        newFuncGet_null globals arg arg1 arg2 arg3
      rw [fault]
      constructor
      · rintro ⟨after, returned, -⟩
        cases returned
      · rintro ⟨object, isNull, -⟩
        cases isNull
  | some object =>
      constructor
      · intro forwards
        exact ⟨object, rfl, findsEntry_of_getForwardsOnce ready forwards⟩
      · rintro ⟨found, equal, finds, copies, dumpable⟩
        cases equal
        obtain ⟨globalsAfter, -, imageReturned⟩ := newFuncGet_ok ready arg none arg2 arg3
          object.string (object.string.behind object.region) (dumpable_none _)
        have returned := (newFuncGet_at_iff ready arg arg1 arg2 arg3 object).mpr
          ⟨Or.inr ⟨copies, Or.inr dumpable⟩, imageReturned⟩
        refine ⟨_, returned, if_pos (translateGet_isSome_iff.mpr finds), ?_⟩
        intro unchanged
        exact congrArg passedOn unchanged

/-- The setter forwards once exactly when its string is not null and its reads
stay in the memory of the string, and the getter exactly when its result is not
null, it substitutes, and its reads stay in the memory of the string and of
`arg1`. -/
theorem forwardsOnce_iff
    {table : MappingTable} {endPointer : UInt32} {globals : Globals}
    (ready : Ready table endPointer globals)
    (arg : UInt32) (arg1 : Option Region) (arg2 arg3 : UInt32)
    (text : TextPointer) :
    (SetForwardsOnce arg arg2 arg3 (newFuncSet globals arg text.region arg2 arg3) ↔
      ∃ object, text = some object ∧ SetterReads table endPointer object) ∧
    (GetForwardsOnce arg arg2 arg3
        (newFuncGet globals text.region arg arg1 arg2 arg3) ↔
      ∃ object, text = some object ∧ FindsEntry table endPointer arg object.string ∧
        CopyReadable endPointer object ∧ Dumpable arg1 object.string.size) :=
  ⟨setForwardsOnce_iff ready arg arg2 arg3 text,
    getForwardsOnce_iff ready arg arg1 arg2 arg3 text⟩

/-- The string `b` in the memory of the game, with zeros behind it. -/
def keyStringAt : StringAt := .ofImage keyString fun _ => 0

theorem forwardsOnce_iff_letters :
    (SetForwardsOnce 1 2 3
        (newFuncSet (afterStart .letters 0x10) 1
          (TextPointer.region (some keyStringAt)) 2 3) ↔
      ∃ object, (some keyStringAt : TextPointer) = some object ∧
        SetterReads .letters 0x10 object) ∧
    (GetForwardsOnce 1 2 3
        (newFuncGet (afterStart .letters 0x10) (TextPointer.region (some keyStringAt)) 1
          (some (regionOf keyString.header)) 2 3) ↔
      ∃ object, (some keyStringAt : TextPointer) = some object ∧
        FindsEntry .letters 0x10 1 object.string ∧ CopyReadable 0x10 object ∧
        Dumpable (some (regionOf keyString.header)) object.string.size) :=
  forwardsOnce_iff (ready_afterStart .letters 0x10) 1
    (some (regionOf keyString.header)) 2 3 (some keyStringAt)

/-- The table without entries. -/
def headerOnly : MappingTable := .ofLines [[0x30, 0x7C, 0x30]] (by decide)

/-- A null string faults in both accessors, the getter asks the original getter
twice for a text without a translation, and for one with a translation it dumps
memory that may end before. -/
theorem forwards_never_or_twice :
    newFuncSet (afterStart headerOnly 0x10) 1 (TextPointer.region none) 2 3 =
        .error .nullDereference ∧
      newFuncGet (afterStart headerOnly 0x10) (TextPointer.region none) 1 none 2 3 =
        .error .nullDereference ∧
      (∃ after, newFuncGet (afterStart headerOnly 0x10)
          (TextPointer.region (some (.ofImage .lateCapital fun _ => 0))) 1 none 2 3 = .ok after ∧
        after.calls = [⟨1, .caller, 2, 3⟩, ⟨1, .caller, 2, 3⟩] ∧
        after.substitution = none) ∧
      newFuncGet (afterStart MappingTable.letters 0x10)
          (TextPointer.region (some keyStringAt)) 1
          (some (regionOf keyString.header)) 2 3 = .error .outOfBounds := by
  refine ⟨rfl, rfl, ?_, by decide +kernel⟩
  obtain ⟨globalsAfter, -, returned⟩ := newFuncGet_ok (ready_afterStart headerOnly 0x10)
    1 none 2 3 .lateCapital (fun _ => 0) (dumpable_none _)
  have unchanged : translateGet headerOnly 0x10 1 .lateCapital = none := by
    decide +kernel
  rw [unchanged] at returned
  exact ⟨_, returned, rfl, rfl⟩

end TextHook
end UnityLocalization
