import UnityLocalization.InlineHook.Pass

/-!
# The length field of the inline-hook setter

The setter copies the header of the source in front of the right text, with the
length field of the source.  The object handed over is a well-formed string
exactly if both texts have the same number of code units.
-/

namespace UnityLocalization
namespace InlineHook

open CMemory Tools Table Utf16 TextHook

/-! ## The setter -/

/-- The first two code units start with a zero byte: the setter passes the
string on. -/
def SetterSkips (string : Il2CppString) (tail : Nat -> UInt8) : Prop :=
  string.image tail 12 = 0 ∧ string.image tail 14 = 0

instance (string : Il2CppString) (tail : Nat -> UInt8) :
    Decidable (SetterSkips string tail) :=
  inferInstanceAs (Decidable (_ ∧ _))

/-- The pointer passed on. -/
def passedOn : Option Substitution -> StringPointer
  | some substitution => .fresh substitution.temp
  | none => .caller

/-- The setter walks the table unless the text looks blank. -/
theorem newFuncSet_string
    (globals : Globals) (arg arg2 arg3 : UInt32)
    (string : Il2CppString) (tail : Nat -> UInt8) :
    newFuncSet globals arg (some (readable (string.image tail))) arg2 arg3 =
      let counted := { globals with currentSetIndex := globals.currentSetIndex + 1 }
      let unhooked := counted.currentSetIndex == 500
      if SetterSkips string tail then
        .ok ⟨counted, unhooked, [⟨arg, .caller, arg2, arg3⟩], none⟩
      else
        walkTable setVariant counted (readable (string.image tail))
            globals.headerSet globals.middleSet >>= fun walked =>
          .ok ⟨{ counted with headerSet := walked.1, middleSet := walked.2.middle },
            unhooked, [⟨arg, passedOn walked.2.substitution, arg2, arg3⟩],
            walked.2.substitution⟩ := by
  have blank : andAlso
      (do let byte ← load (readable (string.image tail)) 12; return byte == 0)
      (do let byte ← load (readable (string.image tail)) 14; return byte == 0) =
        .ok (decide (SetterSkips string tail)) := by
    simp only [load_readable, ok_bind, pure_eq_ok, andAlso_ok, SetterSkips]
    by_cases first : string.image tail 12 = 0 <;> simp [first, Bool.beq_eq_decide_eq]
  rw [newFuncSet, deref_some, ok_bind, blank, ok_bind]
  simp only [decide_eq_true_eq, Option.isNone_some, Bool.false_eq_true, or_false]
  split
  case isTrue => rfl
  case isFalse =>
    refine bind_congr fun walked => ?_
    obtain ⟨header, state⟩ := walked
    cases state.substitution with
    | none => rfl
    | some substitution => rfl

/-- A substituting call of the setter has applied an entry and hands over the
object built for it. -/
theorem applied_of_newFuncSet
    {file : Bytes} {endPointer : UInt32} {globals : Globals}
    (loaded : Loaded file endPointer globals)
    {arg arg2 arg3 : UInt32} {string : Il2CppString} {tail : Nat -> UInt8}
    {result : SetResult} {substitution : Substitution}
    (returned : newFuncSet globals arg (some (readable (string.image tail))) arg2 arg3 =
      .ok result)
    (substituted : result.substitution = some substitution) :
    result.calls = [⟨arg, .fresh substitution.temp, arg2, arg3⟩] ∧
      ¬SetterSkips string tail ∧
      (∀ line, (fileLines file).head? = some line -> SplitFits line) ∧
      ∃ before line, Applied setVariant string.header
        (workingCopy endPointer string tail globals.middleSet) 0 1
        (fileLines file).tail before line substitution := by
  rw [newFuncSet_string] at returned
  dsimp only at returned
  split at returned
  case isTrue =>
    cases returned
    cases substituted
  case isFalse walks =>
    obtain ⟨walked, walkReturned, finished⟩ := bind_eq_ok.mp returned
    cases finished
    have found : walked.2.substitution = some substitution := substituted
    refine ⟨by simp only [found, passedOn], walks, ?_⟩
    exact applied_of_walkTable (loaded.countSet (globals.currentSetIndex + 1))
      loaded.headerSet loaded.middleSet string tail (show 200 ≤ splitSize * 2 by decide)
      walkReturned found

/-- The setter applies the first entry that matches, if the dump of its key stays
inside the text buffer. -/
theorem newFuncSet_applies
    {table : MappingTable} {endPointer : UInt32} {globals : Globals}
    (ready : Ready table endPointer globals)
    (arg arg2 arg3 : UInt32) {string : Il2CppString} {tail : Nat -> UInt8}
    {before : List Bytes} {line : Bytes}
    (walks : ¬SetterSkips string tail)
    (first : FirstMatch (workingCopy endPointer string tail globals.middleSet) 0
      table.entries before line)
    (short : keyLength line * 2 ≤ middleSize) :
    ∃ result, newFuncSet globals arg (some (readable (string.image tail))) arg2 arg3 =
        .ok result ∧
      result.substitution =
        some ⟨1 + before.length, keyLength line, objectFor string.header line⟩ := by
  have loaded := (ready_iff_loaded.mp ready).countSet (globals.currentSetIndex + 1)
  obtain ⟨state, substituted, walked⟩ := walkTable_applies
    (show 200 ≤ setVariant.convertSize by decide) loaded loaded.headerSet loaded.middleSet
    first short
  rw [newFuncSet_string]
  dsimp only
  rw [if_neg walks, walked]
  exact ⟨_, rfl, substituted⟩

/-! ## The object handed over -/

/-- The object is a string of the right text: its length field counts the code
units that follow the header, its class words are those of the source, and a
zero unit ends it. -/
structure WellFormedString (source : Il2CppString) (line object : Bytes) : Prop where
  lengthField : loadInt32 (regionOf object) 8 = .ok ((rightUnits line).length : Int)
  classWords : object.take 8 = source.objectHeader
  text : (object.drop headerSize).take (2 * (rightUnits line).length) =
    encode (rightUnits line)
  zeroUnit : ∀ index, index < 2 ->
    load (regionOf object) (headerSize + 2 * (rightUnits line).length + index) = .ok 0

/-- The copied header gives the length of the source. -/
theorem wellFormedString_objectFor_iff (string : Il2CppString) (line : Bytes) :
    WellFormedString string line (objectFor string.header line) ↔
      string.units.length = (rightUnits line).length := by
  have stored : loadInt32 (regionOf (objectFor string.header line)) 8 =
      .ok string.units.length := by
    rw [objectFor, List.append_assoc]
    exact string.loadInt32_header _
  have textLength : (replacement line).length = 2 * (rightUnits line).length := by
    rw [replacement, length_encode]
  constructor
  · intro wellFormed
    have same := Except.ok.inj (stored.symm.trans wellFormed.lengthField)
    omega
  · intro agree
    constructor
    · rw [stored, agree]
    · rw [objectFor, Il2CppString.header, List.append_assoc, List.append_assoc,
        List.take_append_of_le_length (by rw [string.objectHeader_length]),
        List.take_of_length_le (by rw [string.objectHeader_length])]
    · rw [objectFor, List.append_assoc, ← string.length_header, List.drop_left, ← textLength,
        List.take_left]
      rfl
    · intro index inside
      have front : (string.header ++ replacement line).length =
          headerSize + 2 * (rightUnits line).length := by
        rw [List.length_append, string.length_header, textLength]
      have behind : endBlock.length = 4 := rfl
      have within : (string.header ++ replacement line).length + index <
          (string.header ++ replacement line ++ endBlock).length := by
        simp only [List.length_append, behind]
        omega
      rw [objectFor, ← front, load_regionOf _ _ within,
        List.getElem_append_right (by omega)]
      simp [endBlock, calloc]

/-- Every string the setter hands over instead of the caller's is well formed. -/
def HandsOverWellFormed
    (table : MappingTable) (globals : Globals) (arg arg2 arg3 : UInt32)
    (string : Il2CppString) (tail : Nat -> UInt8) : Prop :=
  ∀ result substitution,
    newFuncSet globals arg (some (readable (string.image tail))) arg2 arg3 = .ok result ->
    result.substitution = some substitution ->
    ∃ line, table.lines[substitution.currentLines]? = some line ∧
      result.calls = [⟨arg, .fresh substitution.temp, arg2, arg3⟩] ∧
      WellFormedString string line substitution.temp

/-- The strings handed over are well formed exactly if the source is passed on, or
the first entry that matches has a right text of the source's length, or a key
whose dump leaves the text buffer. -/
theorem handsOverWellFormed_iff
    {table : MappingTable} {endPointer : UInt32} {globals : Globals}
    (ready : Ready table endPointer globals)
    (arg arg2 arg3 : UInt32) (string : Il2CppString) (tail : Nat -> UInt8) :
    HandsOverWellFormed table globals arg arg2 arg3 string tail ↔
      SetterSkips string tail ∨
        ∀ before line,
          FirstMatch (workingCopy endPointer string tail globals.middleSet) 0
              table.entries before line ->
            middleSize < keyLength line * 2 ∨
              string.units.length = (rightUnits line).length := by
  constructor
  · intro handsOver
    by_cases skips : SetterSkips string tail
    · exact .inl skips
    · refine .inr fun before line first => ?_
      by_cases short : keyLength line * 2 ≤ middleSize
      · obtain ⟨result, returned, substituted⟩ :=
          newFuncSet_applies ready arg arg2 arg3 skips first short
        obtain ⟨other, atLine, -, wellFormed⟩ := handsOver _ _ returned substituted
        have same : line = other :=
          Option.some.inj (first.getElem?_fileLines.symm.trans atLine)
        subst same
        exact .inr ((wellFormedString_objectFor_iff string line).mp wellFormed)
      · exact .inl (Nat.lt_of_not_le short)
  · intro condition result substitution returned substituted
    obtain ⟨calls, walks, -, before, line, applied⟩ :=
      applied_of_newFuncSet (ready_iff_loaded.mp ready) returned substituted
    have agree := ((condition.resolve_left walks) before line
      applied.toFirstMatch).resolve_left (Nat.not_lt.mpr applied.dumped)
    refine ⟨line, ?_, calls, ?_⟩
    · rw [applied.built]
      exact applied.getElem?_fileLines
    · rw [applied.built]
      exact (wellFormedString_objectFor_iff string line).mpr agree

theorem handsOverWellFormed_iff_letters :
    HandsOverWellFormed .letters (afterStart .letters 0x10) 1 2 3 .lateCapital (fun _ => 0) ↔
      SetterSkips .lateCapital (fun _ => 0) ∨
        ∀ before line,
          FirstMatch (workingCopy 0x10 .lateCapital (fun _ => 0) (calloc middleSize)) 0
              MappingTable.letters.entries before line ->
            middleSize < keyLength line * 2 ∨
              Il2CppString.lateCapital.units.length = (rightUnits line).length :=
  handsOverWellFormed_iff (ready_afterStart .letters 0x10) 1 2 3 .lateCapital fun _ => 0

/-- The string `bc`. -/
def longerString : Il2CppString := .ofUnits [0x62, 0x63] (by decide)

theorem firstMatch_longerString :
    FirstMatch (workingCopy 0x10 longerString (fun _ => 0) (calloc middleSize)) 0
      MappingTable.letters.entries [] [0x62, 0x7C, 0x63] where
  split := ⟨[], by decide +kernel⟩
  passed := noneMatches_nil _ _
  hit := by decide +kernel

/-- The text `c` is handed over with the length 2. -/
theorem handsOver_sourceLength :
    ¬HandsOverWellFormed .letters (afterStart .letters 0x10) 1 2 3 longerString
      (fun _ => 0) := by
  intro handsOver
  obtain ⟨result, returned, substituted⟩ := newFuncSet_applies
    (ready_afterStart .letters 0x10) 1 2 3 (by decide) firstMatch_longerString
    (by decide +kernel)
  obtain ⟨line, atLine, -, wellFormed⟩ := handsOver _ _ returned substituted
  have entry : MappingTable.letters.lines[1]? = some [0x62, 0x7C, 0x63] := by decide +kernel
  have same : line = [0x62, 0x7C, 0x63] := Option.some.inj (atLine.symm.trans entry)
  subst same
  have counts := (wellFormedString_objectFor_iff longerString _).mp wellFormed
  have right : (rightUnits [0x62, 0x7C, 0x63]).length = 1 := by decide +kernel
  rw [right] at counts
  exact absurd counts (by decide)

end InlineHook
end UnityLocalization
