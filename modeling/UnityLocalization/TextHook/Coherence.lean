import UnityLocalization.TextHook.Matching

/-!
# The two accessors together

Setter and getter translate alike except for texts whose first byte is zero.
A text stored by the setter is translated a second time by the getter, which
leaves it alone when the first pass has left no further match.
-/

namespace UnityLocalization
namespace TextHook

open CMemory Tools Table Utf16 TextReplace

/-! ## The same translation -/

/-- Called with the string, the setter hands over what the getter returns, if what
the getter dumps can be dumped. -/
def TranslateAlike
    (setGlobals getGlobals : Globals) (string : Il2CppString) : Prop :=
  ∀ setArg setArg2 setArg3 setTail getArg getArg1 getArg2 getArg3 getTail,
    getArg ≠ 0 -> Dumpable getArg1 string.size -> ∃ setResult getResult,
      newFuncSet setGlobals setArg (some (readable (string.image setTail)))
          setArg2 setArg3 = .ok setResult ∧
        newFuncGet getGlobals (some (readable (string.image getTail))) getArg getArg1
          getArg2 getArg3 = .ok getResult ∧
        (getResult.substitution.isSome ↔ setResult.substitution.isSome) ∧
        setResult.calls.map OriginalCall.arg1 = [getResult.returned]

/-- The getter misses exactly the translations of texts whose first byte is
zero. -/
theorem translateAlike_iff
    {table : MappingTable} {endPointer : UInt32} {setGlobals getGlobals : Globals}
    (setReady : Ready table endPointer setGlobals)
    (getReady : Ready table endPointer getGlobals)
    (string : Il2CppString) :
    TranslateAlike setGlobals getGlobals string ↔
      string.payload[0]? ≠ some 0 ∨
        NoneApplies (searchedText endPointer string) 0 table.entries := by
  rw [← translate_eq_none_iff]
  constructor
  · intro alike
    by_contra neither
    obtain ⟨firstZero, changed⟩ := not_or.mp neither
    obtain ⟨setResult, getResult, setRan, getRan, same, -⟩ :=
      alike 0 0 0 (fun _ => 0) 1 none 0 0 (fun _ => 0) (by decide) (dumpable_none _)
    obtain ⟨_, -, setReturned⟩ := newFuncSet_ok setReady 0 0 0 string fun _ => 0
    obtain ⟨_, -, getReturned⟩ :=
      newFuncGet_ok getReady 1 none 0 0 string (fun _ => 0) (dumpable_none _)
    rw [setReturned] at setRan
    rw [getReturned] at getRan
    cases setRan
    cases getRan
    have skipped : translateGet table endPointer 1 string = none :=
      if_pos (Or.inr (not_not.mp firstZero))
    simp only [skipped] at same
    exact absurd (same.mpr (Option.ne_none_iff_isSome.mp changed)) (by simp)
  · intro condition setArg setArg2 setArg3 setTail getArg getArg1 getArg2 getArg3 getTail
      nonnull dumpable
    obtain ⟨_, -, setReturned⟩ :=
      newFuncSet_ok setReady setArg setArg2 setArg3 string setTail
    obtain ⟨_, -, getReturned⟩ :=
      newFuncGet_ok getReady getArg getArg1 getArg2 getArg3 string getTail dumpable
    have same : translateGet table endPointer getArg string =
        translate table endPointer string := by
      unfold translateGet
      split
      case isTrue skipped =>
        have firstZero := skipped.resolve_left nonnull
        exact (condition.resolve_left (not_not_intro firstZero)).symm
      case isFalse => rfl
    exact ⟨_, _, setReturned, getReturned, by rw [same], by rw [same]; rfl⟩

/-- The table `0|0`, `一|c`. -/
def ideographTable : MappingTable :=
  .ofLines [[0x30, 0x7C, 0x30], [0xE4, 0xB8, 0x80, 0x7C, 0x63]] (by decide)

/-- The string `一`, stored as `00 4E`. -/
def ideographString : Il2CppString := .ofUnits [0x4E00] (by decide)

theorem translateAlike_iff_ideograph :
    TranslateAlike (afterStart ideographTable 0x10) (afterStart ideographTable 0x10)
        ideographString ↔
      ideographString.payload[0]? ≠ some 0 ∨
        NoneApplies (searchedText 0x10 ideographString) 0 ideographTable.entries :=
  translateAlike_iff (ready_afterStart ideographTable 0x10)
    (ready_afterStart ideographTable 0x10) ideographString

/-- The setter translates `一`, the getter does not. -/
theorem newFuncGet_misses_ideograph :
    ∃ setResult getResult,
      newFuncSet (afterStart ideographTable 0x10) 1
          (some (readable (ideographString.image fun _ => 0))) 2 3 = .ok setResult ∧
      newFuncGet (afterStart ideographTable 0x10)
          (some (readable (ideographString.image fun _ => 0))) 1 none 2 3 =
            .ok getResult ∧
      setResult.substitution.isSome ∧ getResult.substitution = none := by
  obtain ⟨_, -, setReturned⟩ := newFuncSet_ok (ready_afterStart ideographTable 0x10)
    1 2 3 ideographString fun _ => 0
  obtain ⟨_, -, getReturned⟩ := newFuncGet_ok (ready_afterStart ideographTable 0x10)
    1 none 2 3 ideographString (fun _ => 0) (dumpable_none _)
  have translated : (translate ideographTable 0x10 ideographString).isSome := by
    decide +kernel
  have skipped : translateGet ideographTable 0x10 1 ideographString = none := by
    decide +kernel
  exact ⟨_, _, setReturned, getReturned, translated, skipped⟩

/-! ## A second pass -/

/-- The pointer handed to the original setter points to the stored string. -/
def PointsTo (string : Il2CppString) : StringPointer -> Il2CppString -> Prop
  | .caller, stored => stored = string
  | .fresh object, stored => object = stored.header ++ stored.payload ++ endBlock

/-- No right text contains a key up to ASCII case. -/
def RightsFree (table : MappingTable) : Prop :=
  ∀ line, line ∈ table.entries -> ∀ other, other ∈ table.entries ->
    keyUnits other ≠ [] -> ∀ position,
      ¬OccursUpToCase (keyUnits other) (rightUnits line) position

/-- Outside the inserted text the stored string has nothing to translate, and
it is not one of the strings that are copied or compared wrongly. -/
structure Settled
    (table : MappingTable) (endPointer : UInt32) (stored : Il2CppString)
    (start length : Nat) : Prop where
  kept : ∀ offset, ¬Lost (stopByte endPointer) stored.payload offset
  aligned : ∀ line, line ∈ table.entries -> Usable line -> ∀ reach position,
    position % 2 = 1 ->
      ¬OccursAt (foldedKey line) (foldBelow reach stored.payload) position
  inserted : ∀ line, line ∈ table.entries -> Usable line -> ∀ position,
    OccursUpToCase (keyUnits line) stored.units position ->
      start ≤ position ∧ position + (keyUnits line).length ≤ start + length

/-- The object built for a hit is a string object. -/
theorem exists_stored
    {table : MappingTable} {endPointer : UInt32} {string : Il2CppString}
    {before after : List Bytes} {line : Bytes} {position : Nat}
    (split : table.entries = before ++ line :: after)
    (hit : FirstHit (searchedText endPointer string) 0 before line position) :
    ∃ stored : Il2CppString, stored.objectHeader = string.objectHeader ∧
      (substitutionFor endPointer string before line position).pReturn =
        stored.header ++ stored.payload ++ endBlock ∧
      stored.payload = splice (foldBelow (reachAt (reachAfter 0 before) line)
        (searchedText endPointer string)) position (keyLength line)
          (replacement line) := by
  obtain ⟨short, copied⟩ := searchedText_of_appliesAt hit.applies
  have inside := hit.applies.inside
  have rightShort := length_replacement_lt
    (table.wellFormed line
      (List.mem_of_getElem? (getElem?_lines_of_entries split))).right_short
  have textLength : (searchedText endPointer string).length = string.size := by
    rw [copied, length_cutAfter, string.length_payload]
  generalize payloadText : splice (foldBelow (reachAt (reachAfter 0 before) line)
    (searchedText endPointer string)) position (keyLength line)
      (replacement line) = payload
  have payloadLength : payload.length =
      string.size - keyLength line + (replacement line).length := by
    rw [← payloadText, length_splice _ _ _ _ (by simpa using inside),
      length_foldBelow, textLength]
  have evenKey := keyLength_even line
  have evenRight : (replacement line).length % 2 = 0 := by simp [replacement]
  have evenText : string.size % 2 = 0 := by simp
  obtain ⟨units, encoded⟩ := exists_encode payload (by omega)
  have unitsLength : 2 * units.length = payload.length := by
    rw [← encoded, length_encode]
  have headerKept : string.header.take 8 = string.objectHeader := by
    rw [Il2CppString.header, List.take_append_of_le_length
      (by rw [string.objectHeader_length]), List.take_of_length_le
      (by rw [string.objectHeader_length])]
  have bound : units.length < 2147483648 := by omega
  subst encoded
  refine ⟨⟨string.objectHeader, string.objectHeader_length, units, bound⟩, rfl, ?_, rfl⟩
  have halved : (encode units).length / 2 = units.length := by omega
  have rebuilt : (substitutionFor endPointer string before line position).pReturn =
      string.header.take 8 ++ int32Bytes ((encode units).length / 2 : Nat) ++
        encode units ++ endBlock := by
    rw [← payloadText]
    rfl
  rw [rebuilt, headerKept, halved]
  rfl

/-- A settled string is passed on unchanged. -/
theorem translate_settled
    {table : MappingTable} {endPointer : UInt32} {stored : Il2CppString}
    {line text : Bytes} {start length : Nat}
    (rightsFree : RightsFree table) (visited : line ∈ table.entries)
    (rebuilt : stored.payload = splice text (2 * start) length (replacement line))
    (inside : 2 * start ≤ text.length)
    (settled : Settled table endPointer stored start (rightUnits line).length) :
    translate table endPointer stored = none := by
  rw [translate_eq_none_iff]
  intro before other after split position applies
  have present : other ∈ table.entries := by
    rw [split]
    simp
  have usable := applies.1
  obtain ⟨short, copied⟩ := searchedText_of_appliesAt applies
  rcases Nat.mod_two_eq_zero_or_one position with even | odd
  · have genuine : Genuine endPointer stored position (keyLength other) :=
      ⟨even, fun ⟨offset, _, _, lost⟩ => settled.kept offset lost⟩
    obtain ⟨-, occurs, -⟩ := (appliesAt_genuine_iff short genuine).mp applies
    obtain ⟨behind, before⟩ := settled.inserted other present usable _ occurs
    -- the key occurs in the inserted right text
    have inserted : OccursAt (rightUnits line) stored.units start := by
      rw [← occursAt_encode_iff]
      have occursBytes := occursAt_splice text (2 * start) length (replacement line) inside
      rw [← rebuilt] at occursBytes
      exact occursBytes
    have keyNonempty : keyUnits other ≠ [] := by
      intro empty
      apply usable.1
      rw [keyLength, empty]
      rfl
    obtain ⟨offset, unitPosition⟩ := Nat.exists_eq_add_of_le behind
    rw [unitPosition] at occurs before
    refine rightsFree line visited other present keyNonempty offset ?_
    exact OccursAt.within occurs (inserted.map asciiLower)
      (by simp only [List.length_map]; omega)
  · have uncut : searchedText endPointer stored = stored.payload := by
      rw [copied]
      apply List.ext_getElem?
      intro offset
      rw [getElem?_cutAfter_eq_iff]
      exact settled.kept offset
    have occurs := applies.2
    rw [uncut] at occurs
    exact settled.aligned other present usable _ position odd occurs

/-- From every ready state both accessors pass the string on unchanged, if what
the getter dumps can be dumped. -/
def PassedOn
    (table : MappingTable) (endPointer : UInt32) (stored : Il2CppString) : Prop :=
  ∀ globals arg arg1 arg2 arg3 tail, Ready table endPointer globals ->
      Dumpable arg1 stored.size ->
    ∃ setResult getResult,
      newFuncSet globals arg (some (readable (stored.image tail))) arg2 arg3 =
          .ok setResult ∧
        setResult.calls = [⟨arg, .caller, arg2, arg3⟩] ∧
        newFuncGet globals (some (readable (stored.image tail))) arg arg1 arg2 arg3 =
          .ok getResult ∧
        getResult.returned = .caller

theorem passedOn_of_translate
    {table : MappingTable} {endPointer : UInt32} {stored : Il2CppString}
    (unchanged : translate table endPointer stored = none) :
    PassedOn table endPointer stored := by
  intro globals arg arg1 arg2 arg3 tail ready dumpable
  obtain ⟨_, -, setReturned⟩ := newFuncSet_ok ready arg arg2 arg3 stored tail
  obtain ⟨_, -, getReturned⟩ := newFuncGet_ok ready arg arg1 arg2 arg3 stored tail dumpable
  have skipped : translateGet table endPointer arg stored = none := by
    rw [translateGet, unchanged, ite_self]
  exact ⟨_, _, setReturned, by rw [unchanged]; rfl, getReturned, by rw [skipped]; rfl⟩

/-- If the call has substituted, the stored string is settled. -/
def SettledAfter
    (table : MappingTable) (endPointer : UInt32)
    (result : SetResult) (stored : Il2CppString) : Prop :=
  ∀ substitution line, result.substitution = some substitution ->
    table.lines[substitution.currentLines]? = some line ->
    substitution.lengthStart % 2 = 0 ∧
      Settled table endPointer stored (substitution.lengthStart / 2)
        (rightUnits line).length

/-- What a call that substitutes stores is the searched text of the source,
lower-cased up to some point, with the window of the match replaced. -/
def StoredFrom
    (table : MappingTable) (endPointer : UInt32) (string : Il2CppString)
    (result : SetResult) (stored : Il2CppString) : Prop :=
  ∀ substitution line, result.substitution = some substitution ->
    table.lines[substitution.currentLines]? = some line ->
    ∃ reach, stored.payload = splice (foldBelow reach (searchedText endPointer string))
      substitution.lengthStart substitution.lengthLeft (replacement line)

/-- What the setter has stored is passed on unchanged by later calls, if it is
settled; it always is when the setter has not substituted. -/
theorem get_after_set
    {table : MappingTable} {endPointer : UInt32} {globals : Globals}
    (ready : Ready table endPointer globals) (rightsFree : RightsFree table)
    (arg arg2 arg3 : UInt32) (string : Il2CppString) (tail : Nat -> UInt8) :
    ∃ result pointer stored,
      newFuncSet globals arg (some (readable (string.image tail))) arg2 arg3 =
          .ok result ∧
        result.calls = [⟨arg, pointer, arg2, arg3⟩] ∧
        PointsTo string pointer stored ∧
        StoredFrom table endPointer string result stored ∧
        (SettledAfter table endPointer result stored ->
          PassedOn table endPointer stored) := by
  obtain ⟨_, -, returned⟩ := newFuncSet_ok ready arg arg2 arg3 string tail
  cases translated : translate table endPointer string with
  | none =>
      rw [translated] at returned
      refine ⟨_, _, string, returned, rfl, rfl, ?_, fun _ => passedOn_of_translate translated⟩
      rintro substitution line ⟨⟩
  | some substitution =>
      obtain ⟨before, line, after, position, split, hit, rfl⟩ :=
        translate_eq_some_iff.mp translated
      obtain ⟨stored, -, object, rebuilt⟩ := exists_stored split hit
      rw [translated] at returned
      have entry := getElem?_lines_of_entries split
      refine ⟨_, _, stored, returned, rfl, object, ?_, fun condition => ?_⟩
      · rintro substitution other ⟨⟩ numbered
        obtain rfl : other = line := Option.some.inj (numbered.symm.trans entry)
        exact ⟨_, rebuilt⟩
      · obtain ⟨even, settled⟩ := condition _ line rfl entry
        have aligned : position = 2 * (position / 2) := by
          have evenPosition : position % 2 = 0 := even
          omega
        have inside := hit.applies.inside
        rw [aligned] at rebuilt
        exact passedOn_of_translate (translate_settled rightsFree (by rw [split]; simp)
          rebuilt (by rw [length_foldBelow]; omega) settled)

/-- The table `0|0`, `a|b`. -/
def chainTable : MappingTable :=
  .ofLines [[0x30, 0x7C, 0x30], [0x61, 0x7C, 0x62]] (by decide)

theorem entries_chainTable : chainTable.entries = [[0x61, 0x7C, 0x62]] := by
  simp [chainTable, MappingTable.entries]

theorem not_occursUpToCase_chainTable (position : Nat) :
    ¬OccursUpToCase (keyUnits [0x61, 0x7C, 0x62]) [0x62] position := by
  have key : keyUnits [0x61, 0x7C, 0x62] = [0x61] := by decide +kernel
  rw [key]
  intro occurs
  have bounded := occurs.length_le (by simp)
  have start : position = 0 := by
    simp only [List.length_map, List.length_singleton] at bounded
    omega
  subst start
  revert occurs
  decide

theorem rightsFree_chainTable : RightsFree chainTable := by
  have right : rightUnits [0x61, 0x7C, 0x62] = [0x62] := by decide +kernel
  intro line visited other otherVisited _ position
  rw [entries_chainTable, List.mem_singleton] at visited otherVisited
  rw [visited, otherVisited, right]
  exact not_occursUpToCase_chainTable position

/-- The string `b` is settled behind a translation of `a`. -/
theorem settled_chainTable
    {stored : Il2CppString} (units : stored.units = [0x62]) :
    Settled chainTable 0x10 stored 0 1 := by
  have payload : stored.payload = [0x62, 0] := by
    rw [Il2CppString.payload, units]
    rfl
  have keySize : keyLength [0x61, 0x7C, 0x62] = 2 := by decide +kernel
  constructor
  · intro offset lost
    have stopped := List.mem_of_mem_take lost.1
    rw [payload] at stopped
    exact absurd stopped (by decide)
  · intro line visited usable reach position odd occurs
    rw [entries_chainTable, List.mem_singleton] at visited
    subst visited
    have bounded := occurs.length_le (foldedKey_ne_nil usable.1)
    rw [length_foldedKey, length_foldBelow, payload, keySize, List.length_cons,
      List.length_singleton] at bounded
    omega
  · intro line visited usable position occurs
    rw [entries_chainTable, List.mem_singleton] at visited
    subst visited
    rw [units] at occurs
    exact absurd occurs (not_occursUpToCase_chainTable position)

/-- `a` is stored as `b` and stays so. -/
theorem get_after_set_chainTable :
    ∃ result stored,
      newFuncSet (afterStart chainTable 0x10) 1
          (some (readable ((Il2CppString.ofUnits [0x61] (by decide)).image
            fun _ => 0))) 2 3 = .ok result ∧
        stored.units = [0x62] ∧ PassedOn chainTable 0x10 stored := by
  obtain ⟨result, pointer, stored, ran, calls, points, -, passes⟩ :=
    get_after_set (ready_afterStart chainTable 0x10) rightsFree_chainTable 1 2 3
      (.ofUnits [0x61] (by decide)) fun _ => 0
  obtain ⟨_, -, returned⟩ := newFuncSet_ok (ready_afterStart chainTable 0x10) 1 2 3
    (.ofUnits [0x61] (by decide)) fun _ => 0
  have translated : translate chainTable 0x10 (.ofUnits [0x61] (by decide)) =
      some ⟨1, 0, 2, calloc 8 ++ [1, 0, 0, 0, 0x62, 0, 0, 0, 0, 0]⟩ := by
    decide +kernel
  rw [returned, translated] at ran
  cases ran
  have sameCall := List.cons.inj calls
  have pointerObject : pointer =
      .fresh (calloc 8 ++ [1, 0, 0, 0, 0x62, 0, 0, 0, 0, 0]) :=
    (congrArg OriginalCall.arg1 sameCall.1).symm
  subst pointerObject
  have payload : encode stored.units = encode [0x62] := by
    have object : calloc 8 ++ [1, 0, 0, 0, 0x62, 0, 0, 0, 0, 0] =
        stored.header ++ (stored.payload ++ endBlock) := by
      rw [← List.append_assoc]
      exact points
    have behind := congrArg (List.drop headerSize) object
    rw [List.drop_left' stored.length_header] at behind
    exact (List.append_cancel_right (show [0x62, 0] ++ endBlock = _ from behind)).symm
  have units : stored.units = [0x62] := encode_injective payload
  refine ⟨_, stored, by rw [returned, translated], units, passes ?_⟩
  rintro substitution line ⟨⟩ found
  have entry : chainTable.lines[1]? = some [0x61, 0x7C, 0x62] := by
    simp [chainTable]
  have sameLine : line = [0x61, 0x7C, 0x62] := Option.some.inj (found.symm.trans entry)
  subst sameLine
  have right : (rightUnits [0x61, 0x7C, 0x62]).length = 1 := by decide +kernel
  rw [right]
  exact ⟨rfl, settled_chainTable units⟩

/-- `aa` is stored as `ba` and read back as `bb`. -/
theorem newFuncGet_translates_again :
    RightsFree chainTable ∧
    ∃ setResult getResult object,
      newFuncSet (afterStart chainTable 0x10) 1
          (some (readable ((Il2CppString.ofUnits [0x61, 0x61] (by decide)).image
            fun _ => 0))) 2 3 = .ok setResult ∧
        setResult.calls = [⟨1, .fresh object, 2, 3⟩] ∧
        PointsTo (.ofUnits [0x61, 0x61] (by decide)) (.fresh object)
          (.ofUnits [0x62, 0x61] (by decide)) ∧
        newFuncGet (afterStart chainTable 0x10)
          (some (readable ((Il2CppString.ofUnits [0x62, 0x61] (by decide)).image
            fun _ => 0))) 1 none 2 3 = .ok getResult ∧
        getResult.returned ≠ .caller := by
  refine ⟨rightsFree_chainTable, ?_⟩
  obtain ⟨_, -, setReturned⟩ := newFuncSet_ok (ready_afterStart chainTable 0x10) 1 2 3
    (.ofUnits [0x61, 0x61] (by decide)) fun _ => 0
  obtain ⟨_, -, getReturned⟩ := newFuncGet_ok (ready_afterStart chainTable 0x10) 1 none
    2 3 (.ofUnits [0x62, 0x61] (by decide)) (fun _ => 0) (dumpable_none _)
  have stored : translate chainTable 0x10 (.ofUnits [0x61, 0x61] (by decide)) =
      some ⟨1, 0, 2, calloc 8 ++ [2, 0, 0, 0, 0x62, 0, 0x61, 0, 0, 0, 0, 0]⟩ := by
    decide +kernel
  have again : translateGet chainTable 0x10 1 (.ofUnits [0x62, 0x61] (by decide)) =
      some ⟨1, 2, 2, calloc 8 ++ [2, 0, 0, 0, 0x62, 0, 0x62, 0, 0, 0, 0, 0]⟩ := by
    decide +kernel
  rw [stored] at setReturned
  rw [again] at getReturned
  refine ⟨_, _, _, setReturned, rfl, ?_, getReturned, by simp [passedOn]⟩
  simp only [PointsTo]
  decide +kernel

end TextHook
end UnityLocalization
