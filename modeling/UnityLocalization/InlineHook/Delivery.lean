import UnityLocalization.InlineHook.LengthField

/-!
# What the inline-hook getter returns

A matching call frees the object it has built and returns what the original
getter answers to one more call.  The translation reaches the game only if the
game already has it.
-/

namespace UnityLocalization
namespace InlineHook

open CMemory Tools Table TextHook

/-- The getter returns the first answer when `arg1` is null or the text starts
with a zero byte. -/
def GetterPasses (arg1 : UInt32) (string : Il2CppString) (tail : Nat -> UInt8) : Prop :=
  arg1 = 0 ∨ string.image tail headerSize = 0

instance (arg1 : UInt32) (string : Il2CppString) (tail : Nat -> UInt8) :
    Decidable (GetterPasses arg1 string tail) :=
  inferInstanceAs (Decidable (_ ∨ _))

section

variable (oldFuncGet : List GetCall -> GetPointer) (arg arg1 arg2 arg3 : UInt32)

/-- The first call of the original getter. -/
def firstCall : GetCall := ⟨arg, arg1, arg2, .caller arg3⟩

/-- The call made once `temp` is freed. -/
def secondCall : GetCall := ⟨arg, arg1, arg2, .temp⟩

/-- The result of a call that has walked the table. -/
def walkResult (globals : Globals) : Option Substitution -> GetResult
  | some substitution =>
      let calls := [firstCall arg arg1 arg2 arg3, secondCall arg arg1 arg2]
      ⟨globals, calls, oldFuncGet calls, some ⟨substitution.temp, true⟩, some substitution⟩
  | none =>
      let calls := [firstCall arg arg1 arg2 arg3, firstCall arg arg1 arg2 arg3]
      ⟨globals, calls, oldFuncGet calls, none, none⟩

/-- The getter on an answer that is a string of the game. -/
theorem newFuncGet_string
    (globals : Globals) {string : Il2CppString} {tail : Nat -> UInt8}
    (answer : oldFuncGet [firstCall arg arg1 arg2 arg3] =
      .game (readable (string.image tail))) :
    newFuncGet globals oldFuncGet arg arg1 arg2 arg3 =
      let counted := { globals with currentGetIndex := globals.currentGetIndex + 1 }
      if GetterPasses arg1 string tail then
        .ok ⟨counted, [firstCall arg arg1 arg2 arg3],
          .game (readable (string.image tail)), none, none⟩
      else
        walkTable getVariant counted (readable (string.image tail))
            globals.headerGet globals.middleGet >>= fun walked =>
          .ok (walkResult oldFuncGet arg arg1 arg2 arg3
            { counted with headerGet := walked.1, middleGet := walked.2.middle }
            walked.2.substitution) := by
  rw [firstCall] at answer
  simp only [newFuncGet, answer, GetPointer.isNull, GetPointer.target, GetterPasses,
    Bool.false_eq_true, false_or, ok_bind, load_readable, firstCall]
  by_cases null : arg1 = 0
  · simp [null]
  · by_cases blank : string.image tail headerSize = 0
    · simp [null, blank]
    · simp only [null, blank, if_false, or_self]
      refine bind_congr fun walked => ?_
      obtain ⟨header, state⟩ := walked
      cases found : state.substitution with
      | none => rfl
      | some substitution => rfl

end

/-! ## Delivery -/

/-- The memory starts with the bytes. -/
def StartsWith (memory : Region) (bytes : Bytes) : Prop :=
  ∀ index (inside : index < bytes.length), load memory index = .ok bytes[index]

/-- The pointer returned leads to a live object with this content: a string of the
game, or the block `temp` if it has not been freed. -/
def Delivers (result : GetResult) (object : Bytes) : Prop :=
  match result.returned with
  | .null => False
  | .game memory => StartsWith memory object
  | .temp => result.temp = some ⟨object, false⟩

/-- Every substituting call of the getter delivers the object the setter hands
over: the header of the text and the right text of the line. -/
def DeliversTranslation
    (globals : Globals) (oldFuncGet : List GetCall -> GetPointer)
    (arg arg1 arg2 arg3 : UInt32) (table : MappingTable) (string : Il2CppString) : Prop :=
  ∀ result substitution,
    newFuncGet globals oldFuncGet arg arg1 arg2 arg3 = .ok result ->
    result.substitution = some substitution ->
    ∃ line, table.lines[substitution.currentLines]? = some line ∧
      Delivers result (objectFor string.header line)

/-- The answer to the calls is a string of the game that starts with the bytes. -/
def Answers
    (oldFuncGet : List GetCall -> GetPointer) (calls : List GetCall) (object : Bytes) :
    Prop :=
  ∃ memory, oldFuncGet calls = .game memory ∧ StartsWith memory object

section

variable (oldFuncGet : List GetCall -> GetPointer) (arg arg1 arg2 arg3 : UInt32)

/-- The freed block is never what the game gets to read. -/
theorem delivers_walkResult_iff
    (globals : Globals) (substitution : Substitution) (object : Bytes) :
    Delivers (walkResult oldFuncGet arg arg1 arg2 arg3 globals (some substitution)) object ↔
      Answers oldFuncGet [firstCall arg arg1 arg2 arg3, secondCall arg arg1 arg2] object := by
  simp only [Delivers, walkResult, Answers]
  cases oldFuncGet [firstCall arg arg1 arg2 arg3, secondCall arg arg1 arg2] with
  | null => simp
  | game memory => simp
  | temp => simp

variable {oldFuncGet} {table : MappingTable} {endPointer : UInt32} {globals : Globals}
  {string : Il2CppString} {tail : Nat -> UInt8}
  (ready : Ready table endPointer globals)
  (answer : oldFuncGet [firstCall arg arg1 arg2 arg3] =
    .game (readable (string.image tail)))

include ready answer

/-- A substituting call of the getter has applied an entry and returns what the
original getter answers to the second call. -/
theorem applied_of_newFuncGet
    {result : GetResult} {substitution : Substitution}
    (returned : newFuncGet globals oldFuncGet arg arg1 arg2 arg3 = .ok result)
    (substituted : result.substitution = some substitution) :
    ¬GetterPasses arg1 string tail ∧
      (∃ globalsAfter, result =
        walkResult oldFuncGet arg arg1 arg2 arg3 globalsAfter (some substitution)) ∧
      ∃ before line, Applied getVariant string.header
        (workingCopy endPointer string tail globals.middleGet) 0 1
        table.entries before line substitution := by
  have loaded := ready_iff_loaded.mp ready
  rw [newFuncGet_string oldFuncGet arg arg1 arg2 arg3 globals answer] at returned
  dsimp only at returned
  split at returned
  case isTrue =>
    cases returned
    cases substituted
  case isFalse walks =>
    obtain ⟨walked, walkReturned, finished⟩ := bind_eq_ok.mp returned
    cases finished
    have found : walked.2.substitution = some substitution := by
      cases outcome : walked.2.substitution with
      | none => rw [outcome] at substituted; cases substituted
      | some other => rw [outcome] at substituted; exact substituted
    refine ⟨walks, ⟨_, by rw [found]⟩, ?_⟩
    exact (applied_of_walkTable (loaded.countGet (globals.currentGetIndex + 1))
      loaded.headerGet loaded.middleGet string tail
      (show 200 ≤ middleSize * 2 by decide) walkReturned found).2

/-- The getter applies the first entry that matches. -/
theorem newFuncGet_applies
    {before : List Bytes} {line : Bytes}
    (walks : ¬GetterPasses arg1 string tail)
    (first : FirstMatch (workingCopy endPointer string tail globals.middleGet) 0
      table.entries before line) :
    ∃ globalsAfter, newFuncGet globals oldFuncGet arg arg1 arg2 arg3 =
      .ok (walkResult oldFuncGet arg arg1 arg2 arg3 globalsAfter
        (some ⟨1 + before.length, keyLength line, objectFor string.header line⟩)) := by
  have loaded := (ready_iff_loaded.mp ready).countGet (globals.currentGetIndex + 1)
  obtain ⟨after, split⟩ := first.split
  have fits : EntryFits line :=
    (table.line_wellFormed (List.mem_of_mem_tail (by
      rw [show table.lines.tail = _ from split]; simp))).1.entryFits
  have short : keyLength line * getVariant.dumpFactor ≤ middleSize := by
    have bound := keyLength_lt fits
    simp only [getVariant, middleSize]
    omega
  obtain ⟨state, substituted, walked⟩ := walkTable_applies
    (show 200 ≤ getVariant.convertSize by decide) loaded loaded.headerGet loaded.middleGet
    first short
  rw [newFuncGet_string oldFuncGet arg arg1 arg2 arg3 globals answer]
  dsimp only
  rw [if_neg walks, walked, ok_bind, substituted]
  exact ⟨_, rfl⟩

/-- Every translation is delivered exactly if the first answer is passed on, or the
original getter, asked again, answers with a string of the game that already is the
translation. -/
theorem deliversTranslation_iff :
    DeliversTranslation globals oldFuncGet arg arg1 arg2 arg3 table string ↔
      GetterPasses arg1 string tail ∨
        ∀ before line,
          FirstMatch (workingCopy endPointer string tail globals.middleGet) 0
              table.entries before line ->
            Answers oldFuncGet [firstCall arg arg1 arg2 arg3, secondCall arg arg1 arg2]
              (objectFor string.header line) := by
  constructor
  · intro delivers
    by_cases passes : GetterPasses arg1 string tail
    · exact .inl passes
    · refine .inr fun before line first => ?_
      obtain ⟨globalsAfter, returned⟩ :=
        newFuncGet_applies arg arg1 arg2 arg3 ready answer passes first
      obtain ⟨other, atLine, delivered⟩ := delivers _ _ returned rfl
      have same : other = line :=
        Option.some.inj (atLine.symm.trans first.getElem?_fileLines)
      subst same
      exact (delivers_walkResult_iff oldFuncGet arg arg1 arg2 arg3 globalsAfter _ _).mp
        delivered
  · intro condition result substitution returned substituted
    obtain ⟨walks, ⟨globalsAfter, rfl⟩, before, line, applied⟩ :=
      applied_of_newFuncGet arg arg1 arg2 arg3 ready answer returned substituted
    refine ⟨line, ?_, ?_⟩
    · rw [applied.built]
      exact applied.getElem?_fileLines
    · exact (delivers_walkResult_iff oldFuncGet arg arg1 arg2 arg3 globalsAfter _ _).mpr
        (condition.resolve_left walks before line applied.toFirstMatch)

end

/-- A getter that always answers with this string. -/
def sameAnswer (string : Il2CppString) : List GetCall -> GetPointer :=
  fun _ => .game (readable (string.image fun _ => 0))

theorem deliversTranslation_iff_letters :
    DeliversTranslation (afterStart .letters 0x10) (sameAnswer longerString) 1 2 3 4
        .letters longerString ↔
      GetterPasses 2 longerString (fun _ => 0) ∨
        ∀ before line,
          FirstMatch (workingCopy 0x10 longerString (fun _ => 0) (calloc middleSize)) 0
              MappingTable.letters.entries before line ->
            Answers (sameAnswer longerString) [firstCall 1 2 3 4, secondCall 1 2 3]
              (objectFor longerString.header line) :=
  deliversTranslation_iff 1 2 3 4 (ready_afterStart .letters 0x10) rfl

/-- The game gets the string `bc` back, although the entry `b|c` matches. -/
theorem delivers_untranslated :
    ¬DeliversTranslation (afterStart .letters 0x10) (sameAnswer longerString) 1 2 3 4
        .letters longerString := by
  intro delivers
  have answer : sameAnswer longerString [firstCall 1 2 3 4] =
      .game (readable (longerString.image fun _ => 0)) := rfl
  obtain ⟨globalsAfter, returned⟩ := newFuncGet_applies 1 2 3 4
    (ready_afterStart .letters 0x10) answer (by decide) firstMatch_longerString
  obtain ⟨line, atLine, delivered⟩ := delivers _ _ returned rfl
  have entry : MappingTable.letters.lines[1]? = some [0x62, 0x7C, 0x63] := by decide +kernel
  have same : line = [0x62, 0x7C, 0x63] := Option.some.inj (atLine.symm.trans entry)
  subst same
  have letter := delivered 12 (by decide +kernel)
  exact absurd letter (by decide +kernel)

end InlineHook
end UnityLocalization
