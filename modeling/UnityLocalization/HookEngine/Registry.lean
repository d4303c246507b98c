import UnityLocalization.HookEngine.ThumbRelocation
import UnityLocalization.Library.SlotTable

/-!
# The registry of inline hooks

`inlineHook.c` keeps an item for each function that is registered, patches the function
when it is hooked and puts its instructions back when it is unhooked.
-/

namespace UnityLocalization
namespace HookEngine

open CMemory WordMemory

/-- `enum ele7en_status`, as far as it is returned. -/
inductive Ele7enStatus
  | errorUnknown
  | ok
  | errorNotExecutable
  | errorNotRegistered
  | errorNotHooked
  | errorAlreadyRegistered
  | errorAlreadyHooked
  deriving DecidableEq, Repr

/-- `enum hook_status`, which an item keeps as a number. -/
def REGISTERED : Int := 0

def HOOKED : Int := 1

/-- `struct inlineHookItem`.  The saved instructions are kept by their bytes. -/
structure InlineHookItem where
  targetAddr : Word
  newAddr : Word
  protoAddr : Word
  origInstructions : List Byte
  boundaries : Boundaries
  trampolineInstructions : Word
  length : Nat
  status : Int

/-- An item of the static array before its first use. -/
def InlineHookItem.unused : InlineHookItem := ⟨0, 0, 0, [], .unused, 0, 0, 0⟩

/-- `struct inlineHookInfo` -/
abbrev InlineHookInfo := SlotTable InlineHookItem

/-- The process: the registry, the memory, the places of the other threads and the ranges
that `cacheflush` was called for.  Where a page has been given back, `vacated` is found,
which may be anything. -/
structure Process where
  info : InlineHookInfo
  memory : Memory
  vacated : Memory
  threads : List Word
  flushed : List (Word × Word)

def PAGE_SIZE : Nat := 4096

/-- `SET_BIT0` -/
def setBit0 (address : Word) : Word := address ||| 1

/-- `CLEAR_BIT0` -/
def clearBit0 (address : Word) : Word := address &&& 0xFFFFFFFE

/-- `TEST_BIT0` -/
def testBit0 (address : Word) : Bool := address &&& 1 ≠ 0

/-- `PAGE_START` -/
def pageStart (address : Word) : Word := ~~~(BitVec.ofNat 32 (PAGE_SIZE - 1)) &&& address

/-! ## Moving the other threads -/

inductive Action
  | enable
  | disable
  deriving DecidableEq

/-- `doProcessThreadPC`: where a thread that stands at a noted place goes on. -/
def doProcessThreadPC (item : InlineHookItem) (action : Action) (threadPc : Word) : Option Word :=
  let orig (index : Nat) : Word :=
    BitVec.ofNat 32 ((item.boundaries.orig[index]?).getD 0)
  let trampoline (index : Nat) : Word :=
    BitVec.ofNat 32 ((item.boundaries.trampoline[index]?).getD 0)
  match action with
  | .enable =>
      let offset := threadPc - clearBit0 item.targetAddr
      ((List.range item.boundaries.count).find? fun index => offset = orig index).map
        fun index => item.trampolineInstructions + trampoline index
  | .disable =>
      let offset := threadPc - item.trampolineInstructions
      ((List.range item.boundaries.count).find? fun index => offset = trampoline index).map
        fun index => clearBit0 item.targetAddr + orig index

/-- `processThreadPC` for one item or, without one, for the first item that matches. -/
def processThreadPC
    (info : InlineHookInfo) (item : Option InlineHookItem) (action : Action)
    (threadPc : Word) : Word :=
  match item with
  | some item => (doProcessThreadPC item action threadPc).getD threadPc
  | none =>
      ((List.range info.size).findSome? fun position =>
        doProcessThreadPC (info.slot position) action threadPc).getD threadPc

/-- `freeze`: every thread that is stopped is moved while it stands. -/
def freeze (process : Process) (item : Option InlineHookItem) (action : Action) : Process :=
  { process with
    threads := process.threads.map (processThreadPC process.info item action) }

/-! ## Items -/

def findInlineHookItem (info : InlineHookInfo) (targetAddr : Word) : Option Nat :=
  info.find? fun item => item.targetAddr = targetAddr

/-- `addInlineHookItem` returns the place of the next item, if there is one. -/
def addInlineHookItem (info : InlineHookInfo) : Option Nat :=
  if 1024 ≤ info.size then none else some info.size

def deleteInlineHookItem (info : InlineHookInfo) (position : Nat) : InlineHookInfo :=
  info.remove position

/-- `relocateInstruction`, with the bytes of the trampoline as its result. -/
def relocateInstruction
    (load : Word -> Word) (targetAddr : Word) (origInstructions : List Byte)
    (boundaries : Boundaries) : Checked (List Byte × Boundaries) :=
  if testBit0 targetAddr then do
    let (moved, boundaries) ← relocateInstructionInThumb load (targetAddr - 1)
      (halvesOf origInstructions) boundaries
    return (moved.flatMap halfBytes, boundaries)
  else do
    let (moved, boundaries) ← relocateInstructionInArm load targetAddr
      (wordsOf origInstructions) boundaries
    return (moved.flatMap wordBytes, boundaries)

/-- The outside answers to a registration: which addresses are executable, whether
`malloc` finds memory, and the page that `mmap` finds. -/
structure Answers where
  isExecutableAddr : Word -> Bool
  malloc : Bool
  page : Option Word

/-- `registerInlineHook` -/
def registerInlineHook
    (answers : Answers) (targetAddr newAddr protoAddr : Word) (process : Process) :
    Checked (Process × Ele7enStatus) :=
  if !answers.isExecutableAddr targetAddr || !answers.isExecutableAddr newAddr then
    .ok (process, .errorNotExecutable)
  else
    match findInlineHookItem process.info targetAddr with
    | some position =>
        let item := process.info.slot position
        if item.status = REGISTERED then .ok (process, .errorAlreadyRegistered)
        else if item.status = HOOKED then .ok (process, .errorAlreadyHooked)
        else .ok (process, .errorUnknown)
    | none => do
        -- the result of `addInlineHookItem` is used without a look at it
        let position ← deref (addInlineHookItem process.info)
        let length := if testBit0 targetAddr then 12 else 8
        let origInstructions := loadBytes process.memory (clearBit0 targetAddr) length
        -- so are the buffer and the page, which is `MAP_FAILED` if there is none
        if !answers.malloc then throw .nullDereference
        let page ← answers.page.elim (.error .outOfBounds) .ok
        let (moved, boundaries) ← relocateInstruction (wordAt process.memory) targetAddr
          origInstructions (process.info.slot position).boundaries
        return ({ process with
          info := process.info.push
            { targetAddr := targetAddr, newAddr := newAddr, protoAddr := protoAddr,
              origInstructions := origInstructions, boundaries := boundaries,
              trampolineInstructions := page, length := length, status := REGISTERED }
          memory := storeBytes process.memory page moved }, .ok)

/-! ## Hooking and unhooking -/

/-- The bytes that `doInlineHook` writes over the beginning of the function. -/
def patchBytes (item : InlineHookItem) : List Byte :=
  if testBit0 item.targetAddr then
    ((if (clearBit0 item.targetAddr).toNat % 4 ≠ 0 then [0xBF00] else []) ++
      longJump item.newAddr).flatMap halfBytes
  else [(0xE51FF004 : Word), item.newAddr].flatMap wordBytes

/-- What `*proto_addr` is set to. -/
def trampolineEntry (item : InlineHookItem) : Word :=
  if testBit0 item.targetAddr then setBit0 item.trampolineInstructions
  else item.trampolineInstructions

/-- The range that is given to `cacheflush`. -/
def flushRange (item : InlineHookItem) : Word × Word :=
  (clearBit0 item.targetAddr, clearBit0 item.targetAddr + BitVec.ofNat 32 item.length)

def doInlineHook (process : Process) (position : Nat) : Process :=
  let item := process.info.slot position
  let memory :=
    if item.protoAddr ≠ 0 then
      storeBytes process.memory item.protoAddr (wordBytes (trampolineEntry item))
    else process.memory
  { process with
    info := process.info.update position { item with status := HOOKED }
    memory := storeBytes memory (clearBit0 item.targetAddr) (patchBytes item)
    flushed := process.flushed ++ [flushRange item] }

/-- `munmap(page, PAGE_SIZE)`: nothing of the page is left. -/
def munmap (memory vacated : Memory) (page : Word) : Memory := fun here =>
  if InRange page PAGE_SIZE here then vacated here else memory here

def doInlineUnHook (process : Process) (position : Nat) : Process :=
  let item := process.info.slot position
  let memory := storeBytes process.memory (clearBit0 item.targetAddr) item.origInstructions
  let info := deleteInlineHookItem process.info position
  { process with
    info := info
    memory := munmap memory process.vacated item.trampolineInstructions
    -- the item is looked at after another one has taken its place
    flushed := process.flushed ++ [flushRange (info.slot position)] }

/-- `inlineUnHook` -/
def inlineUnHook (targetAddr : Word) (process : Process) : Process × Ele7enStatus :=
  match process.info.find? fun item => item.targetAddr = targetAddr ∧ item.status = HOOKED with
  | some position =>
      (doInlineUnHook (freeze process (some (process.info.slot position)) .disable) position, .ok)
  | none => (process, .errorNotHooked)

/-- The loop of `inlineUnHookAll` from an item on. -/
def inlineUnHookFrom (position : Nat) (process : Process) : Process :=
  if position < process.info.size then
    if (process.info.slot position).status = HOOKED then
      inlineUnHookFrom position (doInlineUnHook process position)
    else inlineUnHookFrom (position + 1) process
  else process
  termination_by process.info.size - position
  decreasing_by
    · simp only [doInlineUnHook, deleteInlineHookItem, SlotTable.remove_size]
      omega
    · omega

/-- `inlineUnHookAll` -/
def inlineUnHookAll (process : Process) : Process :=
  inlineUnHookFrom 0 (freeze process none .disable)

/-- `inlineHook` -/
def inlineHook (targetAddr : Word) (process : Process) : Process × Ele7enStatus :=
  match findInlineHookItem process.info targetAddr with
  | none => (process, .errorNotRegistered)
  | some position =>
      let item := process.info.slot position
      if item.status = REGISTERED then
        (doInlineHook (freeze process (some item) .enable) position, .ok)
      else if item.status = HOOKED then (process, .errorAlreadyHooked)
      else (process, .errorUnknown)

/-- The loop of `inlineHookAll` over the items. -/
def inlineHookFrom : (remaining : Nat) -> (position : Nat) -> Process -> Process
  | 0, _, process => process
  | remaining + 1, position, process =>
      inlineHookFrom remaining (position + 1)
        (if (process.info.slot position).status = REGISTERED then doInlineHook process position
        else process)

/-- `inlineHookAll` -/
def inlineHookAll (process : Process) : Process :=
  let process := freeze process none .enable
  inlineHookFrom process.info.size 0 process

end HookEngine
end UnityLocalization
