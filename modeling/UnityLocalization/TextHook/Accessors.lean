import UnityLocalization.Library.Int32
import UnityLocalization.Table
import UnityLocalization.Tools.Compare
import UnityLocalization.Tools.HexDump

/-!
# The hooked text accessors of `inject_dobby.cpp`

`newFuncSet` and `newFuncGet` replace the text setter and getter of the game.
Both walk the mapping table and hand over a rebuilt string at the first entry
found in the text.  Pointer arguments are null or readable memory; the calls
of the original accessors are recorded, because their effect belongs to the
game.
-/

namespace UnityLocalization
namespace TextHook

open CMemory Tools Table

/-- The globals the accessors read and write.  `endPointer` is the address
`end` of the four zero bytes copied behind a rebuilt text. -/
structure Globals where
  buffer : Bytes
  fileSize : Nat
  endPointer : UInt32
  headerGet : Bytes
  middleGet : Bytes
  headerSet : Bytes
  middleSet : Bytes
  currentSetIndex : UInt32
  currentGetIndex : UInt32
  deriving DecidableEq

/-- The block `end` points to. -/
def endBlock : Bytes := calloc endSize

/-- A string pointer passed on: the one received, or a new object. -/
inductive StringPointer
  | caller
  | fresh (object : Bytes)
  deriving DecidableEq

/-- One call of an original accessor. -/
structure OriginalCall where
  arg : UInt32
  arg1 : StringPointer
  arg2 : UInt32
  arg3 : UInt32
  deriving DecidableEq

/-- A substitution: the line of the table, the bounds of the match in the
working copy, and the object built. -/
structure Substitution where
  currentLines : Nat
  lengthStart : Nat
  lengthLeft : Nat
  pReturn : Bytes
  deriving DecidableEq

/-- The buffers after one or more turns of the entry loop, and the
substitution that ended it, if any. -/
structure LoopState where
  header : Bytes
  middle : Bytes
  substitution : Option Substitution
  deriving DecidableEq

/-- Convert and lower-case the key of an entry: `convert_str` and
`length_left`. -/
def convertKey (convertSize : Nat) (left : Bytes) : Checked (Bytes × Nat) := do
  let (convertStr, lengthLeft) ← utf8ToUnicode (calloc convertSize) left
  let convertStr ← tolowerUnicode convertStr lengthLeft
  return (convertStr, lengthLeft)

/-- The pointer `cp_bit` as an offset into the working copy. -/
def cpBit
    (srcLength : Int) (middle convertStr : Bytes) (lengthLeft : Nat) :
    Checked (Option Nat) :=
  if srcLength < 100 ∧ lengthLeft < 100 then
    memcmpPlus (regionOf middle) (regionOf convertStr) srcLength lengthLeft
  else .ok none

/-- Rebuild the string around a match at `lengthStart` of the working copy:
the header buffer afterwards and `p_return`. -/
def rebuild
    (dumped : Option Region) (srcLength : Int)
    (header middle right : Bytes) (lengthStart lengthLeft : Nat) :
    Checked (Bytes × Bytes) := do
  let _ ← hexDump dumped (srcLength + headerSize + endSize)
  let (pNewUStr, lengthRight) ← utf8ToUnicode (calloc (middleSize * 2)) right
  let _ ← hexDump (some (regionOf pNewUStr)) lengthRight
  let lengthEnd : Int := srcLength - lengthStart - lengthLeft
  let lengthMiddle : Int := lengthStart + lengthRight + lengthEnd
  let pReturn ← callocSize (headerSize + lengthMiddle + endSize)
  let header ← write header 8 (int32Bytes (lengthMiddle.tdiv 2))
  let pReturn ← memcpy pReturn 0 (regionOf header) 0 headerSize
  let pReturn ← memcpy pReturn headerSize (regionOf middle) 0 lengthStart
  let pReturn ← memcpy pReturn (headerSize + lengthStart)
    (regionOf pNewUStr) 0 lengthRight
  let pReturn ← memcpy pReturn (headerSize + lengthStart + lengthRight)
    (regionOf middle) (lengthStart + lengthLeft) lengthEnd
  let pReturn ← memcpy pReturn
    (headerSize + lengthStart + lengthRight + lengthEnd.toNat)
    (regionOf endBlock) 0 endSize
  let _ ← hexDump (some (regionOf pReturn)) (headerSize + lengthMiddle + endSize)
  return (header, pReturn)

/-- The part of the loop body that is run for entries, behind the splitting
of the line. -/
def tryEntry
    (convertSize : Nat) (dumped : Option Region) (srcLength : Int)
    (currentLines : Nat) (left right header middle : Bytes) :
    Checked LoopState := do
  let (convertStr, lengthLeft) ← convertKey convertSize left
  let middle ← tolowerUnicode middle lengthLeft
  match ← cpBit srcLength middle convertStr lengthLeft with
  | some lengthStart =>
      let (header, pReturn) ←
        rebuild dumped srcLength header middle right lengthStart lengthLeft
      return ⟨header, middle,
        some ⟨currentLines, lengthStart, lengthLeft, pReturn⟩⟩
  | none => return ⟨header, middle, none⟩

/-- The first line is only split. -/
def entryTurn
    (convertSize : Nat) (dumped : Option Region) (srcLength : Int)
    (currentLines : Nat) (left right header middle : Bytes) :
    Checked LoopState :=
  if currentLines ≠ 0 then
    tryEntry convertSize dumped srcLength currentLines left right header middle
  else .ok ⟨header, middle, none⟩

/-- The loop over the lines of the table.  `token` is the result `p` of the
last `strtok` call together with the cursor kept by `strtok`. -/
def entryLoop
    (convertSize : Nat) (dumped : Option Region) (srcLength : Int)
    (token : Option (Bytes × Bytes))
    (currentLines : Nat) (left right header middle : Bytes) :
    Checked LoopState :=
  match token with
  | none => .ok ⟨header, middle, none⟩
  | some (p, cursor) => do
      let (left, right) ← splitLine left right p
      let state ←
        entryTurn convertSize dumped srcLength currentLines left right header middle
      if state.substitution.isSome then return state
      match _next : strtok lineDelimiters cursor with
      | .error fault => .error fault
      | .ok next =>
          entryLoop convertSize dumped srcLength next (currentLines + 1)
            left right state.header state.middle
termination_by (token.map fun found => found.2.length + 1).getD 0
decreasing_by
  cases next with
  | none => simp
  | some found =>
      have shorter := length_lt_of_strtok _next
      simp
      omega

/-- The part both accessors share: copy the header and the text of the object,
walk the table with `strtok`. -/
def walkTable
    (convertSize : Nat) (globals : Globals)
    (target : Region) (dumped : Option Region) (srcLength : Int)
    (header middle : Bytes) : Checked LoopState := do
  let header ← memset header 0 headerSize
  let header ← memcpy header 0 target 0 headerSize
  let middle ← memset middle 0 splitSize
  let middle ← memccpy middle target headerSize globals.endPointer.toUInt8 splitSize
  let tempBuffer ← read (regionOf globals.buffer) 0 (globals.fileSize + 4)
  let token ← strtok lineDelimiters tempBuffer
  entryLoop convertSize dumped srcLength token 0
    (calloc splitSize) (calloc splitSize) header middle

/-- What a call of the hooked setter does. -/
structure SetResult where
  globals : Globals
  calls : List OriginalCall
  substitution : Option Substitution
  deriving DecidableEq

/-- `new_func_set(arg, arg1, arg2, arg3)` -/
def newFuncSet
    (globals : Globals)
    (arg : UInt32) (arg1 : Option Region) (arg2 arg3 : UInt32) :
    Checked SetResult := do
  let globals := { globals with currentSetIndex := globals.currentSetIndex + 1 }
  let target ← deref arg1
  let length ← loadInt32 target 8
  let srcLength := wrapInt32 (length * 2)
  if arg1.isNone ∨ srcLength = 0 then
    return ⟨globals, [⟨arg, .caller, arg2, arg3⟩], none⟩
  else do
    let state ← walkTable (splitSize * 2) globals target arg1 srcLength
      globals.headerSet globals.middleSet
    let globals :=
      { globals with headerSet := state.header, middleSet := state.middle }
    match state.substitution with
    | some substitution =>
        return ⟨globals, [⟨arg, .fresh substitution.pReturn, arg2, arg3⟩],
          some substitution⟩
    | none => return ⟨globals, [⟨arg, .caller, arg2, arg3⟩], none⟩

/-- What a call of the hooked getter does: `returned` is the new object, or
`caller` for the result of the last call of the original getter. -/
structure GetResult where
  globals : Globals
  calls : List OriginalCall
  returned : StringPointer
  substitution : Option Substitution
  deriving DecidableEq

/-- `new_func_get(arg, arg1, arg2, arg3)`, where `ret` is what the first call
of the original getter returns.  The dump before a rebuild reads `arg1`. -/
def newFuncGet
    (globals : Globals) (ret : Option Region)
    (arg : UInt32) (arg1 : Option Region) (arg2 arg3 : UInt32) :
    Checked GetResult := do
  let globals := { globals with currentGetIndex := globals.currentGetIndex + 1 }
  let call : OriginalCall := ⟨arg, .caller, arg2, arg3⟩
  let target ← deref ret
  let length ← loadInt32 target 8
  let srcLength := wrapInt32 (length * 2)
  if srcLength = 0 ∨ ret.isNone ∨ arg = 0 then
    return ⟨globals, [call, call], .caller, none⟩
  else do
    let first ← load target headerSize
    if first = 0 then
      return ⟨globals, [call, call], .caller, none⟩
    else do
      let state ← walkTable (middleSize * 2) globals target arg1 srcLength
        globals.headerGet globals.middleGet
      let globals :=
        { globals with headerGet := state.header, middleGet := state.middle }
      match state.substitution with
      | some substitution =>
          return ⟨globals, [call], .fresh substitution.pReturn,
            some substitution⟩
      | none => return ⟨globals, [call, call], .caller, none⟩

end TextHook
end UnityLocalization
