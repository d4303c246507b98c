import UnityLocalization.TextHook.Search

/-!
# What a substitution depends on

Besides the entry found, the new text depends on how far earlier entries have
lower-cased the working copy and on where the copy was cut.  Both show in the
text itself: two different copies are told apart by some table.
-/

namespace UnityLocalization
namespace TextHook

open CMemory Tools Table Utf16 TextReplace

/-- The text of the new object, if there is one. -/
def newPayload
    (table : MappingTable) (endPointer : UInt32) (string : Il2CppString) :
    Option Bytes :=
  (findHit table endPointer string).map fun hit =>
    hit.payload (searchedText endPointer string)

/-- The pointer passed on is decided by the new text. -/
theorem passedOn_translate_eq_iff
    {left right : MappingTable} {leftEnd rightEnd : UInt32} {string : Il2CppString} :
    passedOn (translate left leftEnd string) =
        passedOn (translate right rightEnd string) ↔
      newPayload left leftEnd string = newPayload right rightEnd string := by
  unfold translate newPayload
  cases leftHit : findHit left leftEnd string with
  | none => cases findHit right rightEnd string <;> simp [passedOn]
  | some first =>
      cases rightHit : findHit right rightEnd string with
      | none => simp [passedOn]
      | some second =>
          simp only [Option.map_some, passedOn, Hit.substitution,
            StringPointer.fresh.injEq, Option.some.injEq]
          constructor
          · intro sameObject
            rw [← objectPayload_object string.length_header, sameObject,
              objectPayload_object string.length_header]
          · intro samePayload
            rw [Hit.object, Hit.object, samePayload]

/-! ## Lines that tell texts apart -/

/-- The line whose key is one given unit and whose right text is one byte. -/
def probeLine (unit : UInt16) (symbol : UInt8) : Bytes :=
  spellUnit unit ++ [separator, symbol]

theorem parts_probeLine (unit : UInt16) (symbol : UInt8) :
    leftPart (probeLine unit symbol) = spellUnit unit ∧
      rightPart (probeLine unit symbol) = [symbol] := by
  apply parts_of_split
  intro present
  exact absurd (le_of_mem_spellUnit present) (by decide)

theorem keyUnits_probeLine (unit : UInt16) (symbol : UInt8) :
    keyUnits (probeLine unit symbol) = [unit] := by
  rw [keyUnits, (parts_probeLine unit symbol).1, codeUnits_spellUnit]

/-- An ASCII letter as right text. -/
theorem replacement_probeLine
    (unit : UInt16) {symbol : UInt8} (letter : symbol = 0x61 ∨ symbol = 0x62) :
    replacement (probeLine unit symbol) = [symbol, 0] := by
  rw [replacement, rightUnits, (parts_probeLine unit symbol).2]
  rcases letter with rfl | rfl <;> decide +kernel

theorem writable_probeLine
    (unit : UInt16) {symbol : UInt8} (letter : symbol = 0x61 ∨ symbol = 0x62) :
    Writable (probeLine unit symbol) := by
  obtain ⟨left, right⟩ := parts_probeLine unit symbol
  refine ⟨⟨by simp [probeLine], ?_, ?_⟩, ?_⟩
  · rw [left]
    exact (by decide : 3 < 100)
  · rw [right]
    exact (by decide : 1 < 100)
  · intro byte present
    rcases List.mem_append.mp present with spelled | behind
    · have high := le_of_mem_spellUnit spelled
      refine ⟨?_, ?_⟩
      · rintro rfl
        exact absurd high (by decide)
      · intro delimiter
        simp only [List.mem_cons, List.not_mem_nil, or_false] at delimiter
        rcases delimiter with rfl | rfl <;> exact absurd high (by decide)
    · simp only [List.mem_cons, List.not_mem_nil, or_false] at behind
      rcases behind with rfl | rfl
      · decide
      · rcases letter with rfl | rfl <;> decide

/-- Two different copies of a text are told apart by a line whose key is the
first unit. -/
theorem exists_telling_line
    {text other : Bytes} {limit : Nat}
    (even : text.length % 2 = 0) (positive : 0 < limit)
    (sameLength : text.length = other.length)
    (different : foldBelow limit text ≠ other) :
    ∃ line, Writable line ∧ keyLength line = 2 ∧
      replaceFirst (foldedKey line) (replacement line) (foldBelow limit text) ≠
        replaceFirst (foldedKey line) (replacement line) other := by
  obtain ⟨units, rfl⟩ := exists_encode text even
  cases units with
  | nil =>
      have empty : other = [] := List.length_eq_zero_iff.mp sameLength.symm
      exact absurd (by rw [empty]; rfl) different
  | cons unit units =>
      have key : foldedKey (probeLine unit 0x61) = encode ([unit].map asciiLower) ∧
          foldedKey (probeLine unit 0x62) = encode ([unit].map asciiLower) :=
        ⟨by rw [foldedKey, keyUnits_probeLine], by rw [foldedKey, keyUnits_probeLine]⟩
      -- the first unit is found at the beginning
      have occurs : OccursAt (encode ([unit].map asciiLower))
          (foldBelow limit (encode (unit :: units))) 0 := by
        refine (occursAt_foldBelow_encode_iff [unit] (unit :: units) limit 0).mpr
          ⟨by simp [OccursUpToCase, OccursAt], fun index _ inside _ => ?_⟩
        simp only [List.length_singleton] at inside
        omega
      have nonempty : encode ([unit].map asciiLower) ≠ [] := by simp
      have found := (firstOccurrence_eq_some_iff nonempty).mpr
        ⟨occurs, fun earlier before => absurd before (Nat.not_lt_zero _)⟩
      obtain ⟨avoided, tellsApart⟩ := replaceFirst_ne_replaceFirst nonempty
        (by rw [length_foldBelow, sameLength]) different found
      have keySize (symbol : UInt8) : keyLength (probeLine unit symbol) = 2 := by
        rw [keyLength, keyUnits_probeLine]
        rfl
      by_cases first : (0x61 : UInt8) = avoided
      · refine ⟨probeLine unit 0x62, writable_probeLine unit (Or.inr rfl), keySize _, ?_⟩
        rw [key.2, replacement_probeLine unit (Or.inr rfl)]
        exact tellsApart 0x62 [0] (by rw [← first]; decide)
      · refine ⟨probeLine unit 0x61, writable_probeLine unit (Or.inl rfl), keySize _, ?_⟩
        rw [key.1, replacement_probeLine unit (Or.inl rfl)]
        exact tellsApart 0x61 [0] first

theorem tryLine_payload
    (text : Bytes) (reach lineNumber : Nat) {line : Bytes} (usable : Usable line) :
    (tryLine text reach lineNumber line).map (fun hit => hit.payload text) =
      replaceFirst (foldedKey line) (replacement line)
        (foldBelow (reachAt reach line) text) := by
  rw [tryLine, if_pos (show keyLength line ≠ 0 ∧ keyLength line < 100 from usable),
    replaceFirst, Option.map_map]
  rw [length_foldedKey]
  rfl

/-! ## The address of the closing zeros -/

/-- The setter called from two states passes the same on. -/
def SetSameCalls
    (first second : Globals) (string : Il2CppString) (tail : Nat -> UInt8) : Prop :=
  ∀ arg arg2 arg3, ∃ left right,
    newFuncSet first arg (some (readable (string.image tail))) arg2 arg3 = .ok left ∧
      newFuncSet second arg (some (readable (string.image tail))) arg2 arg3 =
        .ok right ∧
      left.calls = right.calls

/-- The getter called from two states returns the same, if what it dumps can be
dumped. -/
def GetSameResult
    (first second : Globals) (string : Il2CppString) (tail : Nat -> UInt8) : Prop :=
  ∀ arg arg1 arg2 arg3, Dumpable arg1 string.size -> ∃ left right,
    newFuncGet first (some (readable (string.image tail))) arg arg1 arg2 arg3 =
        .ok left ∧
      newFuncGet second (some (readable (string.image tail))) arg arg1 arg2 arg3 =
        .ok right ∧
      left.returned = right.returned ∧ left.calls = right.calls

/-- Under every table the accessors treat the string alike for both addresses
of the block `end`. -/
def HeapIndependent (string : Il2CppString) (firstEnd secondEnd : UInt32) : Prop :=
  ∀ table first second tail,
    Ready table firstEnd first -> Ready table secondEnd second ->
    SetSameCalls first second string tail ∧ GetSameResult first second string tail

theorem setSameCalls_iff
    {firstTable secondTable : MappingTable} {firstEnd secondEnd : UInt32}
    {first second : Globals}
    (readyFirst : Ready firstTable firstEnd first)
    (readySecond : Ready secondTable secondEnd second)
    (string : Il2CppString) (tail : Nat -> UInt8) :
    SetSameCalls first second string tail ↔
      newPayload firstTable firstEnd string =
        newPayload secondTable secondEnd string := by
  rw [← passedOn_translate_eq_iff]
  constructor
  · intro same
    obtain ⟨left, right, ranFirst, ranSecond, equal⟩ := same 0 0 0
    obtain ⟨_, -, returnedFirst⟩ := newFuncSet_ok readyFirst 0 0 0 string tail
    obtain ⟨_, -, returnedSecond⟩ := newFuncSet_ok readySecond 0 0 0 string tail
    rw [returnedFirst] at ranFirst
    rw [returnedSecond] at ranSecond
    cases ranFirst
    cases ranSecond
    simpa using equal
  · intro same arg arg2 arg3
    obtain ⟨_, -, returnedFirst⟩ := newFuncSet_ok readyFirst arg arg2 arg3 string tail
    obtain ⟨_, -, returnedSecond⟩ := newFuncSet_ok readySecond arg arg2 arg3 string tail
    exact ⟨_, _, returnedFirst, returnedSecond, by rw [same]⟩

/-- What the copy keeps decides the substitution. -/
theorem newPayload_congr
    (table : MappingTable) {firstEnd secondEnd : UInt32} {string : Il2CppString}
    (same : searchedText firstEnd string = searchedText secondEnd string) :
    newPayload table firstEnd string = newPayload table secondEnd string := by
  rw [newPayload, newPayload, findHit, findHit, same]

theorem getSameResult_of_translate
    {table : MappingTable} {firstEnd secondEnd : UInt32} {first second : Globals}
    (readyFirst : Ready table firstEnd first)
    (readySecond : Ready table secondEnd second)
    {string : Il2CppString} (tail : Nat -> UInt8)
    (same : translate table firstEnd string = translate table secondEnd string) :
    GetSameResult first second string tail := by
  intro arg arg1 arg2 arg3 dumpable
  obtain ⟨_, -, returnedFirst⟩ :=
    newFuncGet_ok readyFirst arg arg1 arg2 arg3 string tail dumpable
  obtain ⟨_, -, returnedSecond⟩ :=
    newFuncGet_ok readySecond arg arg1 arg2 arg3 string tail dumpable
  have sameGet : translateGet table firstEnd arg string =
      translateGet table secondEnd arg string := by
    rw [translateGet, translateGet, same]
  exact ⟨_, _, returnedFirst, returnedSecond, by rw [sameGet], by rw [sameGet]⟩

/-- The table with a header line and one more line. -/
def oneEntry (line : Bytes) (writable : Writable line) : MappingTable :=
  .ofLines [[0x30, 0x7C, 0x30], line] (by
    intro other present
    rcases List.mem_cons.mp present with rfl | present
    · decide
    · rw [List.mem_singleton.mp present]
      exact writable)

theorem newPayload_oneEntry
    {line : Bytes} (writable : Writable line) (usable : Usable line)
    (endPointer : UInt32) (string : Il2CppString) :
    newPayload (oneEntry line writable) endPointer string =
      replaceFirst (foldedKey line) (replacement line)
        (foldBelow (reachAt 0 line) (searchedText endPointer string)) := by
  have entries : (oneEntry line writable).entries = [line] := by
    simp [oneEntry, MappingTable.entries]
  rw [newPayload, findHit, entries, searchEntries_singleton,
    tryLine_payload _ _ _ usable]

/-- Folding hides no difference between two cut copies: they differ in lost
bytes, and folding makes no zeros. -/
theorem foldBelow_cutAfter_ne
    {firstStop secondStop : UInt8} {text : Bytes} (reach : Nat)
    (different : cutAfter firstStop text ≠ cutAfter secondStop text) :
    foldBelow reach (cutAfter firstStop text) ≠
      foldBelow reach (cutAfter secondStop text) := by
  intro same
  apply different
  rw [cutAfter_eq_cutAfter_iff]
  intro index
  have zero := congrArg (fun bytes => bytes[index]? = some 0) same
  simp only [getElem?_foldBelow_eq_zero_iff, getElem?_cutAfter_eq_zero_iff,
    eq_iff_iff] at zero
  constructor
  · exact fun lost => (zero.mp (Or.inr lost)).resolve_left lost.ne_zero
  · exact fun lost => (zero.mpr (Or.inr lost)).resolve_left lost.ne_zero

/-- Two different copies are told apart by a table with one entry. -/
theorem searchedText_eq_of_heapIndependent
    {string : Il2CppString} {firstEnd secondEnd : UInt32}
    (independent : HeapIndependent string firstEnd secondEnd)
    (short : string.size < 100) :
    searchedText firstEnd string = searchedText secondEnd string := by
  have firstCopy : searchedText firstEnd string =
      cutAfter (stopByte firstEnd) string.payload := if_pos short
  have secondCopy : searchedText secondEnd string =
      cutAfter (stopByte secondEnd) string.payload := if_pos short
  by_contra different
  have foldedDifferent : foldBelow 4 (searchedText firstEnd string) ≠
      foldBelow 4 (searchedText secondEnd string) := by
    rw [firstCopy, secondCopy] at different ⊢
    exact foldBelow_cutAfter_ne 4 different
  obtain ⟨line, writable, keySize, tellsApart⟩ := exists_telling_line
    (by rw [firstCopy]; simp) (by decide)
    (by rw [length_foldBelow, firstCopy, secondCopy]; simp) foldedDifferent
  have usable : Usable line := by
    rw [Usable, keySize]
    decide
  have reach : reachAt 0 line = 4 := by
    rw [reachAt, keySize]
    rfl
  have same := (setSameCalls_iff (ready_afterStart (oneEntry line writable) firstEnd)
    (ready_afterStart (oneEntry line writable) secondEnd) string fun _ => 0).mp
      (independent _ _ _ _ (ready_afterStart _ _) (ready_afterStart _ _)).1
  rw [newPayload_oneEntry writable usable, newPayload_oneEntry writable usable,
    reach] at same
  exact tellsApart same

/-- The address of `end` shows exactly when its low byte changes what the copy
loses. -/
theorem heapIndependent_iff
    (string : Il2CppString) (firstEnd secondEnd : UInt32)
    (short : string.units.length < 50) :
    HeapIndependent string firstEnd secondEnd ↔
      ∀ offset, Lost (stopByte firstEnd) string.payload offset ↔
        Lost (stopByte secondEnd) string.payload offset := by
  have size : string.size < 100 := by
    simp only [Il2CppString.size]
    omega
  have firstCopy : searchedText firstEnd string =
      cutAfter (stopByte firstEnd) string.payload := if_pos size
  have secondCopy : searchedText secondEnd string =
      cutAfter (stopByte secondEnd) string.payload := if_pos size
  rw [← cutAfter_eq_cutAfter_iff, ← firstCopy, ← secondCopy]
  constructor
  · intro independent
    exact searchedText_eq_of_heapIndependent independent size
  · intro same table first second tail readyFirst readySecond
    have samePayload := newPayload_congr table same
    have sameTranslation : translate table firstEnd string =
        translate table secondEnd string := by
      rw [translate, translate, findHit, findHit, same]
    exact ⟨(setSameCalls_iff readyFirst readySecond string tail).mpr samePayload,
      getSameResult_of_translate readyFirst readySecond tail sameTranslation⟩

/-- The string `@b`; its first byte is the low byte of some addresses. -/
def atSignString : Il2CppString := .ofUnits [0x40, 0x62] (by decide)

theorem heapIndependent_iff_atSign :
    HeapIndependent atSignString 0xB4000010 0xB4000040 ↔
      ∀ offset, Lost (stopByte 0xB4000010) atSignString.payload offset ↔
        Lost (stopByte 0xB4000040) atSignString.payload offset :=
  heapIndependent_iff atSignString 0xB4000010 0xB4000040 (by decide)

/-- With `end` at an address ending in 40 the copy stops behind the first byte,
and `b` is not translated. -/
theorem newFuncSet_depends_on_end :
    ∃ left right,
      newFuncSet (afterStart MappingTable.letters 0xB4000010) 1
          (some (readable (atSignString.image fun _ => 0))) 2 3 = .ok left ∧
      newFuncSet (afterStart MappingTable.letters 0xB4000040) 1
          (some (readable (atSignString.image fun _ => 0))) 2 3 = .ok right ∧
      left.substitution.isSome ∧ right.substitution = none := by
  obtain ⟨_, -, returnedLeft⟩ := newFuncSet_ok
    (ready_afterStart MappingTable.letters 0xB4000010) 1 2 3 atSignString fun _ => 0
  obtain ⟨_, -, returnedRight⟩ := newFuncSet_ok
    (ready_afterStart MappingTable.letters 0xB4000040) 1 2 3 atSignString fun _ => 0
  have translated :
      (translate MappingTable.letters 0xB4000010 atSignString).isSome := by
    decide +kernel
  have unchanged : translate MappingTable.letters 0xB4000040 atSignString = none := by
    decide +kernel
  exact ⟨_, _, returnedLeft, returnedRight, translated, unchanged⟩

/-! ## Entries that are not found -/

/-- Lower-casing further is not noticed by later entries when no capital lies
between; a usable entry itself lower-cases the first two units. -/
theorem searchEntries_payload_congr
    {text : Bytes} {smaller larger : Nat} (first second : Nat) (lines : List Bytes)
    (ordered : smaller ≤ larger)
    (noCapital : ∀ offset, max 4 smaller ≤ offset -> offset < larger ->
      ¬CapitalAt text offset) :
    (searchEntries text smaller first lines).map (fun hit => hit.payload text) =
      (searchEntries text larger second lines).map fun hit => hit.payload text := by
  induction lines generalizing smaller larger first second with
  | nil => rfl
  | cons line lines inductionHypothesis =>
      have orderedAfter : reachAt smaller line ≤ reachAt larger line := by
        simp only [reachAt]
        omega
      have noCapitalAfter : ∀ offset, max 4 (reachAt smaller line) ≤ offset ->
          offset < reachAt larger line -> ¬CapitalAt text offset := by
        intro offset behind below
        simp only [reachAt] at behind below
        exact noCapital offset (by omega) (by omega)
      have sameTried :
          (tryLine text smaller first line).map (fun hit => hit.payload text) =
            (tryLine text larger second line).map fun hit => hit.payload text := by
        by_cases usable : Usable line
        · have sameCopy : foldBelow (reachAt larger line) text =
              foldBelow (reachAt smaller line) text := by
            rw [foldBelow_eq_foldBelow_iff orderedAfter]
            intro offset behind below
            have nonempty := usable.1
            have even := keyLength_even line
            refine noCapitalAfter offset ?_ below
            simp only [reachAt] at behind ⊢
            omega
          rw [tryLine_payload _ _ _ usable, tryLine_payload _ _ _ usable, sameCopy]
        · rw [tryLine, tryLine, if_neg (show ¬(_ ∧ _) from usable),
            if_neg (show ¬(_ ∧ _) from usable)]
      have rest := inductionHypothesis (first + 1) (second + 1) orderedAfter noCapitalAfter
      simp only [reachAt] at rest
      rw [searchEntries, searchEntries]
      cases tried : tryLine text smaller first line with
      | some hit =>
          cases triedLarger : tryLine text larger second line with
          | some other => simpa [tried, triedLarger] using sameTried
          | none => simp [tried, triedLarger] at sameTried
      | none =>
          cases triedLarger : tryLine text larger second line with
          | some other => simp [tried, triedLarger] at sameTried
          | none => exact rest

/-- Whatever lines follow, the setter passes the same on with and without the
entry. -/
def NoInfluence
    (endPointer : UInt32) (string : Il2CppString)
    (header : Bytes) (before : List Bytes) (entry : Bytes) : Prop :=
  ∀ (full reduced : MappingTable) after,
    full.lines = header :: (before ++ entry :: after) ->
    reduced.lines = header :: (before ++ after) ->
    ∀ first second tail,
      Ready full endPointer first -> Ready reduced endPointer second ->
      SetSameCalls first second string tail

theorem newPayload_of_noneApplies
    {table : MappingTable} {endPointer : UInt32} {string : Il2CppString}
    {before rest : List Bytes} {header : Bytes}
    (lines : table.lines = header :: (before ++ rest))
    (noneApplies : NoneApplies (searchedText endPointer string) 0 before) :
    newPayload table endPointer string =
      (searchEntries (searchedText endPointer string) (reachAfter 0 before)
        (1 + before.length) rest).map
          fun hit => hit.payload (searchedText endPointer string) := by
  rw [newPayload, findHit, MappingTable.entries, lines, List.tail_cons,
    searchEntries_append_of_noneApplies 1 noneApplies]

theorem newPayload_of_not_noneApplies
    {table : MappingTable} {endPointer : UInt32} {string : Il2CppString}
    {before rest : List Bytes} {header : Bytes}
    (lines : table.lines = header :: (before ++ rest))
    (someApplies : ¬NoneApplies (searchedText endPointer string) 0 before) :
    newPayload table endPointer string =
      (searchEntries (searchedText endPointer string) 0 1 before).map
        fun hit => hit.payload (searchedText endPointer string) := by
  rw [newPayload, findHit, MappingTable.entries, lines, List.tail_cons,
    searchEntries_append_of_not_noneApplies 1 someApplies]

/-- Without influence, the entry may be skipped in front of any lines. -/
theorem NoInfluence.payload_eq
    {endPointer : UInt32} {string : Il2CppString}
    {header entry : Bytes} {before : List Bytes}
    (independent : NoInfluence endPointer string header before entry)
    (noneApplies : NoneApplies (searchedText endPointer string) 0 before)
    (writable : ∀ line, line ∈ header :: (before ++ [entry]) -> Writable line)
    (rest : List Bytes) (writableRest : ∀ line, line ∈ rest -> Writable line) :
    (searchEntries (searchedText endPointer string) (reachAfter 0 before)
        (1 + before.length) (entry :: rest)).map
          (fun hit => hit.payload (searchedText endPointer string)) =
      (searchEntries (searchedText endPointer string) (reachAfter 0 before)
        (1 + before.length) rest).map
          fun hit => hit.payload (searchedText endPointer string) := by
  have writableFull : ∀ line, line ∈ header :: (before ++ entry :: rest) ->
      Writable line := by
    intro line present
    by_cases later : line ∈ rest
    · exact writableRest line later
    · refine writable line ?_
      simp only [List.mem_cons, List.mem_append] at present ⊢
      tauto
  have writableReduced : ∀ line, line ∈ header :: (before ++ rest) ->
      Writable line := by
    intro line present
    refine writableFull line ?_
    simp only [List.mem_cons, List.mem_append] at present ⊢
    tauto
  have same := independent (.ofLines _ writableFull) (.ofLines _ writableReduced) rest
    (MappingTable.lines_ofLines _ _) (MappingTable.lines_ofLines _ _) _ _
    (fun _ => 0) (ready_afterStart _ _) (ready_afterStart _ _)
  rw [setSameCalls_iff (ready_afterStart _ _) (ready_afterStart _ _),
    newPayload_of_noneApplies (MappingTable.lines_ofLines _ _) noneApplies,
    newPayload_of_noneApplies (MappingTable.lines_ofLines _ _) noneApplies] at same
  exact same

theorem searchEntries_cons_of_absent
    {text : Bytes} {reach : Nat} {entry : Bytes} (lineNumber : Nat)
    (absent : ∀ position, ¬AppliesAt text reach entry position) (rest : List Bytes) :
    searchEntries text reach lineNumber (entry :: rest) =
      searchEntries text (reachAt reach entry) (lineNumber + 1) rest := by
  rw [searchEntries, tryLine_eq_none_iff.mpr absent]
  rfl

/-- An entry without influence is not found, for nothing follows it in some
table. -/
theorem NoInfluence.absent
    {endPointer : UInt32} {string : Il2CppString}
    {header entry : Bytes} {before : List Bytes}
    (independent : NoInfluence endPointer string header before entry)
    (noneApplies : NoneApplies (searchedText endPointer string) 0 before)
    (writable : ∀ line, line ∈ header :: (before ++ [entry]) -> Writable line) :
    ∀ position, ¬AppliesAt (searchedText endPointer string)
      (reachAfter 0 before) entry position := by
  have alone := independent.payload_eq noneApplies writable [] (by simp)
  rw [searchEntries_singleton, searchEntries, Option.map_none,
    Option.map_eq_none_iff, tryLine_eq_none_iff] at alone
  exact alone

/-- An entry without influence lower-cases no capital that the entries before
it and a key of one unit leave: such a key behind it would show the capital. -/
theorem NoInfluence.noCapital
    {endPointer : UInt32} {string : Il2CppString}
    {header entry : Bytes} {before : List Bytes}
    (independent : NoInfluence endPointer string header before entry)
    (noneApplies : NoneApplies (searchedText endPointer string) 0 before)
    (writable : ∀ line, line ∈ header :: (before ++ [entry]) -> Writable line) :
    ∀ offset, max 4 (reachAfter 0 before) ≤ offset -> offset < keyLength entry + 2 ->
      ¬CapitalAt (searchedText endPointer string) offset := by
  intro offset behind below capital
  have ordered : max (reachAfter 0 before) 4 ≤
      max (reachAt (reachAfter 0 before) entry) 4 := by
    simp only [reachAt]
    omega
  have different :
      foldBelow (max (reachAfter 0 before) 4) (searchedText endPointer string) ≠
      foldBelow (max (reachAt (reachAfter 0 before) entry) 4)
        (searchedText endPointer string) := by
    intro same
    refine (foldBelow_eq_foldBelow_iff ordered _).mp same.symm offset ?_ ?_ capital
    · omega
    · simp only [reachAt]
      omega
  obtain ⟨line, writableLine, keySize, tellsApart⟩ := exists_telling_line
    (searched_searchedText endPointer string).even (by omega) (by simp) different
  have usable : Usable line := by
    rw [Usable, keySize]
    decide
  have reached : ∀ reach, reachAt reach line = max reach 4 := by
    intro reach
    rw [reachAt, keySize]
  have shown := independent.payload_eq noneApplies writable [line] (by simpa using writableLine)
  rw [searchEntries_cons_of_absent _ (independent.absent noneApplies writable),
    searchEntries_singleton, searchEntries_singleton, tryLine_payload _ _ _ usable,
    tryLine_payload _ _ _ usable, reached, reached] at shown
  exact tellsApart shown.symm

/-- Behind an earlier hit an entry has no influence. -/
theorem noInfluence_of_not_noneApplies
    {endPointer : UInt32} {string : Il2CppString}
    {header entry : Bytes} {before : List Bytes}
    (found : ¬NoneApplies (searchedText endPointer string) 0 before) :
    NoInfluence endPointer string header before entry := by
  intro full reduced rest fullLines reducedLines first second tail readyFull readyReduced
  rw [setSameCalls_iff readyFull readyReduced,
    newPayload_of_not_noneApplies fullLines found,
    newPayload_of_not_noneApplies reducedLines found]

/-- An entry that is not found and lower-cases no capital has no influence. -/
theorem noInfluence_of_noCapital
    {endPointer : UInt32} {string : Il2CppString}
    {header entry : Bytes} {before : List Bytes}
    (noneApplies : NoneApplies (searchedText endPointer string) 0 before)
    (absent : ∀ position, ¬AppliesAt (searchedText endPointer string)
      (reachAfter 0 before) entry position)
    (noCapital : ∀ offset, max 4 (reachAfter 0 before) ≤ offset ->
      offset < keyLength entry + 2 ->
      ¬CapitalAt (searchedText endPointer string) offset) :
    NoInfluence endPointer string header before entry := by
  intro full reduced rest fullLines reducedLines first second tail readyFull readyReduced
  rw [setSameCalls_iff readyFull readyReduced,
    newPayload_of_noneApplies fullLines noneApplies,
    newPayload_of_noneApplies reducedLines noneApplies,
    searchEntries_cons_of_absent _ absent]
  refine (searchEntries_payload_congr _ _ rest (le_max_left _ _) ?_).symm
  intro offset behind below
  have reached : offset < max (reachAfter 0 before) (keyLength entry + 2) := below
  exact noCapital offset behind (by omega)

/-- An entry has no influence at its place exactly when an earlier one is found
anyway, or it is not found itself and lower-cases no capital that earlier and
later entries leave. -/
theorem noInfluence_iff
    {table : MappingTable} {header entry : Bytes} {before after : List Bytes}
    (lines : table.lines = header :: (before ++ entry :: after))
    (endPointer : UInt32) (string : Il2CppString) :
    NoInfluence endPointer string header before entry ↔
      ¬NoneApplies (searchedText endPointer string) 0 before ∨
        (∀ position, ¬AppliesAt (searchedText endPointer string)
          (reachAfter 0 before) entry position) ∧
        ∀ offset, max 4 (reachAfter 0 before) ≤ offset ->
          offset < keyLength entry + 2 ->
          ¬CapitalAt (searchedText endPointer string) offset := by
  have writable : ∀ line, line ∈ header :: (before ++ [entry]) -> Writable line := by
    intro line present
    have visited : line ∈ table.lines := by
      rw [lines]
      simp only [List.mem_cons, List.mem_append, List.not_mem_nil, or_false] at present ⊢
      tauto
    exact writable_of_mem_lines visited
  by_cases none : NoneApplies (searchedText endPointer string) 0 before
  · constructor
    · intro independent
      right
      exact ⟨independent.absent none writable, independent.noCapital none writable⟩
    · intro condition
      obtain ⟨absent, noCapital⟩ := condition.resolve_left (not_not_intro none)
      exact noInfluence_of_noCapital none absent noCapital
  · exact ⟨fun _ => Or.inl none, fun _ => noInfluence_of_not_noneApplies none⟩

/-- The table `0|0`, `zzz|q`, `b|c`. -/
def sleepyTable : MappingTable :=
  .ofLines [[0x30, 0x7C, 0x30], [0x7A, 0x7A, 0x7A, 0x7C, 0x71], [0x62, 0x7C, 0x63]]
    (by decide)

theorem noInfluence_iff_sleepy :
    NoInfluence 0x10 .lateCapital [0x30, 0x7C, 0x30] []
        [0x7A, 0x7A, 0x7A, 0x7C, 0x71] ↔
      ¬NoneApplies (searchedText 0x10 .lateCapital) 0 [] ∨
        (∀ position, ¬AppliesAt (searchedText 0x10 .lateCapital)
          (reachAfter 0 []) [0x7A, 0x7A, 0x7A, 0x7C, 0x71] position) ∧
        ∀ offset, max 4 (reachAfter 0 []) ≤ offset ->
          offset < keyLength [0x7A, 0x7A, 0x7A, 0x7C, 0x71] + 2 ->
          ¬CapitalAt (searchedText 0x10 .lateCapital) offset := by
  have lines : sleepyTable.lines = [0x30, 0x7C, 0x30] ::
      ([] ++ [0x7A, 0x7A, 0x7A, 0x7C, 0x71] :: [[0x62, 0x7C, 0x63]]) :=
    MappingTable.lines_ofLines _ _
  exact noInfluence_iff lines 0x10 .lateCapital

/-- The entry `zzz` does not occur in `aaB`, but only with it `b` is found. -/
theorem newFuncSet_influenced_by_absent_entry :
    sleepyTable.lines.eraseIdx 1 = MappingTable.letters.lines ∧
    (∀ position, ¬OccursUpToCase (keyUnits [0x7A, 0x7A, 0x7A, 0x7C, 0x71])
      Il2CppString.lateCapital.units position) ∧
    ∃ left right,
      newFuncSet (afterStart sleepyTable 0x10) 1
          (some (readable (Il2CppString.lateCapital.image fun _ => 0))) 2 3 = .ok left ∧
      newFuncSet (afterStart MappingTable.letters 0x10) 1
          (some (readable (Il2CppString.lateCapital.image fun _ => 0))) 2 3 = .ok right ∧
      left.substitution.isSome ∧ right.substitution = none := by
  refine ⟨by simp [sleepyTable, MappingTable.letters], ?_, ?_⟩
  · intro position occurs
    have key : keyUnits [0x7A, 0x7A, 0x7A, 0x7C, 0x71] = [0x7A, 0x7A, 0x7A] := by
      decide +kernel
    rw [key] at occurs
    have bounded := occurs.length_le (by simp)
    have start : position = 0 := by
      simp only [List.length_map] at bounded
      exact Nat.eq_zero_of_le_zero (Nat.le_of_add_le_add_right
        (show position + 3 ≤ 0 + 3 from bounded))
    subst start
    revert occurs
    decide +kernel
  · obtain ⟨_, -, returnedLeft⟩ := newFuncSet_ok
      (ready_afterStart sleepyTable 0x10) 1 2 3 .lateCapital fun _ => 0
    obtain ⟨_, -, returnedRight⟩ := newFuncSet_ok
      (ready_afterStart MappingTable.letters 0x10) 1 2 3 .lateCapital fun _ => 0
    have translated : (translate sleepyTable 0x10 .lateCapital).isSome := by
      decide +kernel
    have unchanged : translate MappingTable.letters 0x10 .lateCapital = none := by
      decide +kernel
    exact ⟨_, _, returnedLeft, returnedRight, translated, unchanged⟩

end TextHook
end UnityLocalization
