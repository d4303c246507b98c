import UnityLocalization.Library.Transition
import UnityLocalization.TextHook.Translation

/-!
# Calls after other calls

The static buffers are shared by all calls.  A call that returns keeps their
sizes and leaves the table alone, whatever pointers it was given, and nothing
else of the past is read.
-/

namespace UnityLocalization
namespace TextHook

open CMemory Tools Table Utf16 Transition

/-! ## Sizes are kept -/

theorem length_of_tolowerUnit
    {c result : Bytes} {currentPos : Nat}
    (folded : tolowerUnit c currentPos = .ok result) : result.length = c.length := by
  obtain ⟨high, _, folded⟩ := bind_eq_ok.mp folded
  split at folded
  · obtain ⟨low, _, folded⟩ := bind_eq_ok.mp folded
    split at folded
    · split at folded
      · exact length_of_store folded
      · cases folded
        rfl
    · cases folded
      rfl
  · cases folded
    rfl

theorem length_of_tolowerLoop
    {c result : Bytes} {length : Int} {currentPos : Nat}
    (folded : tolowerLoop c length currentPos = .ok result) :
    result.length = c.length := by
  fun_induction tolowerLoop c length currentPos with
  | case1 c currentPos more inductionHypothesis =>
      obtain ⟨next, unit, rest⟩ := bind_eq_ok.mp folded
      rw [inductionHypothesis next rest, length_of_tolowerUnit unit]
  | case2 c currentPos done =>
      cases folded
      rfl

theorem length_of_rebuild
    {dumped : Option Region} {srcLength : Int}
    {header middle right headerAfter pReturn : Bytes} {lengthStart lengthLeft : Nat}
    (rebuilt : rebuild dumped srcLength header middle right lengthStart lengthLeft =
      .ok (headerAfter, pReturn)) :
    headerAfter.length = header.length := by
  obtain ⟨_, _, rebuilt⟩ := bind_eq_ok.mp rebuilt
  obtain ⟨⟨_, _⟩, _, rebuilt⟩ := bind_eq_ok.mp rebuilt
  obtain ⟨_, _, rebuilt⟩ := bind_eq_ok.mp rebuilt
  obtain ⟨_, _, rebuilt⟩ := bind_eq_ok.mp rebuilt
  obtain ⟨written, headerWritten, rebuilt⟩ := bind_eq_ok.mp rebuilt
  -- five copies and a dump
  obtain ⟨_, _, rebuilt⟩ := bind_eq_ok.mp rebuilt
  obtain ⟨_, _, rebuilt⟩ := bind_eq_ok.mp rebuilt
  obtain ⟨_, _, rebuilt⟩ := bind_eq_ok.mp rebuilt
  obtain ⟨_, _, rebuilt⟩ := bind_eq_ok.mp rebuilt
  obtain ⟨_, _, rebuilt⟩ := bind_eq_ok.mp rebuilt
  obtain ⟨_, _, rebuilt⟩ := bind_eq_ok.mp rebuilt
  cases rebuilt
  exact length_of_write headerWritten

theorem length_of_tryEntry
    {convertSize : Nat} {dumped : Option Region} {srcLength : Int} {currentLines : Nat}
    {left right header middle : Bytes} {state : LoopState}
    (tried : tryEntry convertSize dumped srcLength currentLines left right header middle =
      .ok state) :
    state.header.length = header.length ∧ state.middle.length = middle.length := by
  obtain ⟨⟨convertStr, lengthLeft⟩, _, tried⟩ := bind_eq_ok.mp tried
  obtain ⟨folded, middleFolded, tried⟩ := bind_eq_ok.mp tried
  obtain ⟨found, _, tried⟩ := bind_eq_ok.mp tried
  have middleSize := length_of_tolowerLoop middleFolded
  cases found with
  | none =>
      cases tried
      exact ⟨rfl, middleSize⟩
  | some lengthStart =>
      obtain ⟨⟨headerAfter, pReturn⟩, rebuilt, tried⟩ := bind_eq_ok.mp tried
      cases tried
      exact ⟨length_of_rebuild rebuilt, middleSize⟩

theorem length_of_entryLoop
    {convertSize : Nat} {dumped : Option Region} {srcLength : Int}
    {token : Option (Bytes × Bytes)} {currentLines : Nat}
    {left right header middle : Bytes} {state : LoopState}
    (looped : entryLoop convertSize dumped srcLength token currentLines
      left right header middle = .ok state) :
    state.header.length = header.length ∧ state.middle.length = middle.length := by
  induction token using strtok_induction lineDelimiters
    generalizing currentLines left right header middle with
  | ended =>
      rw [entryLoop] at looped
      cases looped
      exact ⟨rfl, rfl⟩
  | found p cursor inductionHypothesis =>
      rw [entryLoop_some] at looped
      obtain ⟨parts, -, looped⟩ := bind_eq_ok.mp looped
      obtain ⟨turn, turned, looped⟩ := bind_eq_ok.mp looped
      have sizes : turn.header.length = header.length ∧
          turn.middle.length = middle.length := by
        unfold entryTurn at turned
        split at turned
        · exact length_of_tryEntry turned
        · cases turned
          exact ⟨rfl, rfl⟩
      split at looped
      · cases looped
        exact sizes
      · obtain ⟨next, scanned, looped⟩ := bind_eq_ok.mp looped
        have rest := inductionHypothesis next scanned looped
        exact ⟨rest.1.trans sizes.1, rest.2.trans sizes.2⟩

theorem length_of_walkTable
    {convertSize : Nat} {globals : Globals} {target : Region} {dumped : Option Region}
    {srcLength : Int} {header middle : Bytes} {state : LoopState}
    (walked : walkTable convertSize globals target dumped srcLength header middle =
      .ok state) :
    state.header.length = header.length ∧ state.middle.length = middle.length := by
  obtain ⟨clearedHeader, headerCleared, walked⟩ := bind_eq_ok.mp walked
  obtain ⟨copiedHeader, headerCopied, walked⟩ := bind_eq_ok.mp walked
  obtain ⟨clearedMiddle, middleCleared, walked⟩ := bind_eq_ok.mp walked
  obtain ⟨copiedMiddle, middleCopied, walked⟩ := bind_eq_ok.mp walked
  obtain ⟨_, _, walked⟩ := bind_eq_ok.mp walked
  obtain ⟨_, _, walked⟩ := bind_eq_ok.mp walked
  obtain ⟨headerSize, middleSize⟩ := length_of_entryLoop walked
  rw [headerSize, middleSize, length_of_memcpy headerCopied,
    length_of_memccpy middleCopied]
  exact ⟨length_of_write headerCleared, length_of_write middleCleared⟩

/-! ## Any call keeps the state ready -/

theorem ready_of_newFuncSet
    {table : MappingTable} {endPointer : UInt32} {globals : Globals}
    (ready : Ready table endPointer globals)
    {arg arg2 arg3 : UInt32} {arg1 : Option Region} {result : SetResult}
    (returned : newFuncSet globals arg arg1 arg2 arg3 = .ok result) :
    Ready table endPointer result.globals := by
  obtain ⟨_, _, returned⟩ := bind_eq_ok.mp returned
  obtain ⟨_, _, returned⟩ := bind_eq_ok.mp returned
  dsimp only at returned
  split at returned
  · cases returned
    exact { ready with }
  · obtain ⟨state, walked, returned⟩ := bind_eq_ok.mp returned
    obtain ⟨header, middle⟩ := length_of_walkTable walked
    split at returned <;> cases returned <;>
      exact { ready with
        headerSet := header.trans ready.headerSet
        middleSet := middle.trans ready.middleSet }

theorem ready_of_newFuncGet
    {table : MappingTable} {endPointer : UInt32} {globals : Globals}
    (ready : Ready table endPointer globals)
    {arg arg2 arg3 : UInt32} {ret arg1 : Option Region} {result : GetResult}
    (returned : newFuncGet globals ret arg arg1 arg2 arg3 = .ok result) :
    Ready table endPointer result.globals := by
  obtain ⟨_, _, returned⟩ := bind_eq_ok.mp returned
  obtain ⟨_, _, returned⟩ := bind_eq_ok.mp returned
  dsimp only at returned
  split at returned
  · cases returned
    exact { ready with }
  · obtain ⟨_, _, returned⟩ := bind_eq_ok.mp returned
    split at returned
    · cases returned
      exact { ready with }
    · obtain ⟨state, walked, returned⟩ := bind_eq_ok.mp returned
      obtain ⟨header, middle⟩ := length_of_walkTable walked
      split at returned <;> cases returned <;>
        exact { ready with
          headerGet := header.trans ready.headerGet
          middleGet := middle.trans ready.middleGet }

/-- A call of one of the hooked accessors, with any pointers. -/
inductive AccessorCall
  | set (arg : UInt32) (arg1 : Option Region) (arg2 arg3 : UInt32)
  | get (ret : Option Region) (arg : UInt32) (arg1 : Option Region) (arg2 arg3 : UInt32)

def AccessorCall.run (globals : Globals) : AccessorCall -> Checked Globals
  | .set arg arg1 arg2 arg3 => do
      let result ← newFuncSet globals arg arg1 arg2 arg3
      return result.globals
  | .get ret arg arg1 arg2 arg3 => do
      let result ← newFuncGet globals ret arg arg1 arg2 arg3
      return result.globals

/-- Calls one after the other; the run stops at a faulting call. -/
def runCalls (globals : Globals) (history : List AccessorCall) : Checked Globals :=
  run AccessorCall.run globals history

theorem ready_of_run
    {table : MappingTable} {endPointer : UInt32} {globals after : Globals}
    (ready : Ready table endPointer globals) {call : AccessorCall}
    (ran : call.run globals = .ok after) : Ready table endPointer after := by
  cases call with
  | set arg arg1 arg2 arg3 =>
      obtain ⟨result, returned, equal⟩ := bind_eq_ok.mp ran
      cases equal
      exact ready_of_newFuncSet ready returned
  | get ret arg arg1 arg2 arg3 =>
      obtain ⟨result, returned, equal⟩ := bind_eq_ok.mp ran
      cases equal
      exact ready_of_newFuncGet ready returned

/-- A whole history keeps the state ready. -/
theorem ready_of_runCalls
    {table : MappingTable} {endPointer : UInt32} {globals after : Globals}
    (ready : Ready table endPointer globals) {history : List AccessorCall}
    (ran : runCalls globals history = .ok after) : Ready table endPointer after := by
  have preserved : ∀ globals call next, Ready table endPointer globals ->
      AccessorCall.run globals call = .ok next -> Ready table endPointer next :=
    fun _ _ _ ready ran => ready_of_run ready ran
  exact run_preserves preserved ready ran

/-! ## Independence of the past -/

/-- The next setter call treats the string alike in both states, whatever
follows the string in memory and whatever the other arguments are. -/
def SetAgree (left right : Globals) (string : Il2CppString) : Prop :=
  ∀ leftArg leftArg2 leftArg3 rightArg rightArg2 rightArg3 leftTail rightTail,
    ∃ leftResult rightResult,
      newFuncSet left leftArg (some (readable (string.image leftTail)))
          leftArg2 leftArg3 = .ok leftResult ∧
        newFuncSet right rightArg (some (readable (string.image rightTail)))
          rightArg2 rightArg3 = .ok rightResult ∧
        leftResult.substitution = rightResult.substitution ∧
        leftResult.calls.map OriginalCall.arg1 =
          rightResult.calls.map OriginalCall.arg1

/-- The next getter call with a non-null object treats the string alike, if what
it dumps can be dumped. -/
def GetAgree (left right : Globals) (string : Il2CppString) : Prop :=
  ∀ leftArg leftArg1 leftArg2 leftArg3 rightArg rightArg1 rightArg2 rightArg3
      leftTail rightTail, leftArg ≠ 0 -> rightArg ≠ 0 ->
      Dumpable leftArg1 string.size -> Dumpable rightArg1 string.size ->
    ∃ leftResult rightResult,
      newFuncGet left (some (readable (string.image leftTail))) leftArg leftArg1
          leftArg2 leftArg3 = .ok leftResult ∧
        newFuncGet right (some (readable (string.image rightTail))) rightArg rightArg1
          rightArg2 rightArg3 = .ok rightResult ∧
        leftResult.substitution = rightResult.substitution ∧
        leftResult.returned = rightResult.returned

/-- After any two histories, from any contents of the static buffers, the next
call depends only on the table, the address `end` and the string. -/
theorem accessors_agree_after_histories
    {table : MappingTable} {endPointer : UInt32}
    {leftStart rightStart left right : Globals}
    (leftReady : Ready table endPointer leftStart)
    (rightReady : Ready table endPointer rightStart)
    {leftHistory rightHistory : List AccessorCall}
    (leftRan : runCalls leftStart leftHistory = .ok left)
    (rightRan : runCalls rightStart rightHistory = .ok right)
    (string : Il2CppString) :
    SetAgree left right string ∧ GetAgree left right string := by
  have leftNow := ready_of_runCalls leftReady leftRan
  have rightNow := ready_of_runCalls rightReady rightRan
  constructor
  · intro leftArg leftArg2 leftArg3 rightArg rightArg2 rightArg3 leftTail rightTail
    obtain ⟨_, -, leftReturned⟩ :=
      newFuncSet_ok leftNow leftArg leftArg2 leftArg3 string leftTail
    obtain ⟨_, -, rightReturned⟩ :=
      newFuncSet_ok rightNow rightArg rightArg2 rightArg3 string rightTail
    exact ⟨_, _, leftReturned, rightReturned, rfl, rfl⟩
  · intro leftArg leftArg1 leftArg2 leftArg3 rightArg rightArg1 rightArg2 rightArg3
      leftTail rightTail leftNonnull rightNonnull leftDumpable rightDumpable
    obtain ⟨_, -, leftReturned⟩ :=
      newFuncGet_ok leftNow leftArg leftArg1 leftArg2 leftArg3 string leftTail leftDumpable
    obtain ⟨_, -, rightReturned⟩ :=
      newFuncGet_ok rightNow rightArg rightArg1 rightArg2 rightArg3 string rightTail
        rightDumpable
    have same : translateGet table endPointer leftArg string =
        translateGet table endPointer rightArg string := by
      simp only [translateGet, leftNonnull, rightNonnull, false_or]
    exact ⟨_, _, leftReturned, rightReturned, same, by rw [same]⟩

/-- The string `b` after a setter call with `Ab`, and after none. -/
theorem accessors_agree_after_histories_letters :
    ∃ left, runCalls (afterStart MappingTable.letters 0x10)
        [.set 1 (some (readable
          ((Il2CppString.ofUnits [0x41, 0x62] (by decide)).image fun _ => 0xFF))) 2 3] =
          .ok left ∧
      SetAgree left (afterStart MappingTable.letters 0x10)
          (.ofUnits [0x62] (by decide)) ∧
        GetAgree left (afterStart MappingTable.letters 0x10)
          (.ofUnits [0x62] (by decide)) := by
  obtain ⟨left, -, returned⟩ := newFuncSet_ok
    (ready_afterStart MappingTable.letters 0x10) 1 2 3
    (.ofUnits [0x41, 0x62] (by decide)) fun _ => 0xFF
  have ran : runCalls (afterStart MappingTable.letters 0x10)
      [.set 1 (some (readable
        ((Il2CppString.ofUnits [0x41, 0x62] (by decide)).image fun _ => 0xFF))) 2 3] =
        .ok left := by
    simp only [runCalls, run, AccessorCall.run, returned, ok_bind, pure_eq_ok]
  exact ⟨left, ran, accessors_agree_after_histories
    (ready_afterStart MappingTable.letters 0x10)
    (ready_afterStart MappingTable.letters 0x10) ran
    (show runCalls _ [] = .ok _ from rfl) _⟩

end TextHook
end UnityLocalization
