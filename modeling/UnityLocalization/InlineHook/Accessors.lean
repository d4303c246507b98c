import UnityLocalization.TextHook.Accessors

/-!
# The hooked text accessors of `inject_inlinehook.cpp`

This build compares the start of the text with each key and hands over a new
string made of the old header and the right text.  The getter frees the new
string and asks the original getter once more.  What an original getter answers
is a function of the calls made to it so far.
-/

namespace UnityLocalization
namespace InlineHook

open CMemory Tools Table TextHook

/-- Where the two copies of the loop differ: the size of the conversion buffers,
and how many bytes are dumped for a byte of the key. -/
structure Variant where
  convertSize : Nat
  dumpFactor : Nat

def setVariant : Variant := ⟨splitSize * 2, 2⟩

def getVariant : Variant := ⟨middleSize * 2, 1⟩

/-- A substitution: the line of the table, the length of its key and the object
`temp`. -/
structure Substitution where
  currentLines : Nat
  length : Nat
  temp : Bytes
  deriving DecidableEq

/-- The working copy after one or more turns of the entry loop, and the
substitution that ended it, if any. -/
structure LoopState where
  middle : Bytes
  substitution : Option Substitution
  deriving DecidableEq

/-- Build `temp`: the header of the source, the converted right text, the end
block. -/
def buildTemp (variant : Variant) (header right : Bytes) : Checked Bytes := do
  let (p1, le) ← utf8ToUnicode (calloc variant.convertSize) right
  let _ ← hexDump (some (regionOf p1)) le
  let temp := calloc (headerSize + le + endSize)
  let temp ← memcpy temp 0 (regionOf header) 0 headerSize
  let temp ← memcpy temp headerSize (regionOf p1) 0 le
  let temp ← memcpy temp (headerSize + le) (regionOf endBlock) 0 endSize
  let _ ← hexDump (some (regionOf temp)) (headerSize + le + endSize : Nat)
  return temp

/-- The part of the loop body that is run for entries. -/
def tryEntry
    (variant : Variant) (currentLines : Nat) (left right header middle : Bytes) :
    Checked LoopState := do
  let (convertStr, length) ← convertKey variant.convertSize left
  let middle ← tolowerUnicode middle length
  if ← memcmpEqual (regionOf middle) 0 (regionOf convertStr) 0 length then
    let _ ← hexDump (some (regionOf middle)) (length * variant.dumpFactor : Nat)
    let temp ← buildTemp variant header right
    return ⟨middle, some ⟨currentLines, length, temp⟩⟩
  else return ⟨middle, none⟩

/-- The first line is only split. -/
def entryTurn
    (variant : Variant) (currentLines : Nat) (left right header middle : Bytes) :
    Checked LoopState :=
  if currentLines ≠ 0 then tryEntry variant currentLines left right header middle
  else .ok ⟨middle, none⟩

/-- The loop over the lines of the table. -/
def entryLoop
    (variant : Variant) (token : Option (Bytes × Bytes))
    (currentLines : Nat) (left right header middle : Bytes) : Checked LoopState :=
  match token with
  | none => .ok ⟨middle, none⟩
  | some (p, cursor) => do
      let (left, right) ← splitLine left right p
      let state ← entryTurn variant currentLines left right header middle
      if state.substitution.isSome then return state
      match _next : strtok lineDelimiters cursor with
      | .error fault => .error fault
      | .ok next =>
          entryLoop variant next (currentLines + 1) left right header state.middle
termination_by (token.map fun found => found.2.length + 1).getD 0
decreasing_by
  cases next with
  | none => simp
  | some found =>
      have shorter := length_lt_of_strtok _next
      simp
      omega

/-- Copy the header and the text of the object and walk the table: the header
buffer and the end of the loop. -/
def walkTable
    (variant : Variant) (globals : Globals) (target : Region) (header middle : Bytes) :
    Checked (Bytes × LoopState) := do
  let header ← memset header 0 headerSize
  let header ← memcpy header 0 target 0 headerSize
  let middle ← memset middle 0 splitSize
  let middle ← memccpy middle target headerSize globals.endPointer.toUInt8 splitSize
  let tempBuffer ← read (regionOf globals.buffer) 0 (globals.fileSize + 4)
  let token ← strtok lineDelimiters tempBuffer
  let state ←
    entryLoop variant token 0 (calloc splitSize) (calloc splitSize) header middle
  return (header, state)

/-! ## The setter -/

/-- What a call of the hooked setter does; `unhooked` tells whether it calls
`inlineUnHook(func_dlopen)`. -/
structure SetResult where
  globals : Globals
  unhooked : Bool
  calls : List OriginalCall
  substitution : Option Substitution
  deriving DecidableEq

/-- `new_func_set(arg, arg1, arg2, arg3)` -/
def newFuncSet
    (globals : Globals)
    (arg : UInt32) (arg1 : Option Region) (arg2 arg3 : UInt32) :
    Checked SetResult := do
  let globals := { globals with currentSetIndex := globals.currentSetIndex + 1 }
  let unhooked := globals.currentSetIndex == 500
  let target ← deref arg1
  let blank ← andAlso
    (do let byte ← load target 12; return byte == 0)
    (do let byte ← load target 14; return byte == 0)
  if blank ∨ arg1.isNone then
    return ⟨globals, unhooked, [⟨arg, .caller, arg2, arg3⟩], none⟩
  else do
    let (header, state) ←
      walkTable setVariant globals target globals.headerSet globals.middleSet
    let globals := { globals with headerSet := header, middleSet := state.middle }
    match state.substitution with
    | some substitution =>
        return ⟨globals, unhooked, [⟨arg, .fresh substitution.temp, arg2, arg3⟩],
          some substitution⟩
    | none => return ⟨globals, unhooked, [⟨arg, .caller, arg2, arg3⟩], none⟩

/-! ## The getter -/

/-- The last argument of a call of the original getter. -/
inductive GetArgument
  | caller (word : UInt32)
  | temp
  deriving DecidableEq

/-- One call of the original getter. -/
structure GetCall where
  arg : UInt32
  arg1 : UInt32
  arg2 : UInt32
  arg3 : GetArgument
  deriving DecidableEq

/-- A string pointer in the getter: null, a string of the game, or the object
`temp`. -/
inductive GetPointer
  | null
  | game (memory : Region)
  | temp

/-- The block `temp` points to. -/
structure Block where
  content : Bytes
  freed : Bool
  deriving DecidableEq

/-- What a call of the hooked getter does. -/
structure GetResult where
  globals : Globals
  calls : List GetCall
  returned : GetPointer
  temp : Option Block
  substitution : Option Substitution

def GetPointer.isNull : GetPointer -> Bool
  | null => true
  | game _ => false
  | temp => false

/-- Memory of a string of the game; `temp` does not exist yet when the first
answer is read. -/
def GetPointer.target : GetPointer -> Checked Region
  | null => .error .nullDereference
  | game memory => .ok memory
  | temp => .error .outOfBounds

/-- `new_func_get(arg, arg1, arg2, arg3)`, where `oldFuncGet` answers the last
of the calls made. -/
def newFuncGet
    (globals : Globals) (oldFuncGet : List GetCall -> GetPointer)
    (arg arg1 arg2 arg3 : UInt32) : Checked GetResult := do
  let globals := { globals with currentGetIndex := globals.currentGetIndex + 1 }
  let call : GetCall := ⟨arg, arg1, arg2, .caller arg3⟩
  let ret := oldFuncGet [call]
  if ret.isNull ∨ arg1 = 0 then
    return ⟨globals, [call], ret, none, none⟩
  else do
    let target ← ret.target
    let first ← load target headerSize
    if first = 0 then
      return ⟨globals, [call], ret, none, none⟩
    else do
      let (header, state) ←
        walkTable getVariant globals target globals.headerGet globals.middleGet
      let globals := { globals with headerGet := header, middleGet := state.middle }
      match state.substitution with
      | some substitution =>
          -- `free(temp)` comes before the call that is given `temp`
          let again : GetCall := ⟨arg, arg1, arg2, .temp⟩
          return ⟨globals, [call, again], oldFuncGet [call, again],
            some ⟨substitution.temp, true⟩, some substitution⟩
      | none =>
          return ⟨globals, [call, call], oldFuncGet [call, call], none, none⟩

end InlineHook
end UnityLocalization
