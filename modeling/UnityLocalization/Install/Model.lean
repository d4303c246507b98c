import UnityLocalization.Library.CString

/-!
# Installing the hooks

The start-up of `inject_dobby.cpp` as a machine: `jniOnLoad` makes the first
state, and the intercepted loader calls and the callbacks of
`il2cpp_class_get_methods` are its events.  What the loader, the module list
and the memory answer is part of the event.  A call of `DobbyHook` is recorded
and has no other effect here.
-/

namespace UnityLocalization
namespace Install

open CMemory

/-- The functions of the library that replace others. -/
inductive Replacement
  | newFuncDlopen
  | newFuncGetMethods
  | newFuncGet
  | newFuncSet
  deriving DecidableEq, Repr

/-- A call of `DobbyHook`, with the value of `libil2cpp_base` at that time. -/
structure HookCall where
  target : UInt32
  replacement : Replacement
  base : UInt32
  deriving DecidableEq, Repr

/-- Where an address comes from: the first line of the file, a method pointer
that was reported, or such a pointer from which a base was subtracted. -/
inductive Origin
  | file
  | reported (pointer : UInt32)
  | rebased (pointer base : UInt32)
  deriving DecidableEq, Repr

/-- A stored address.  The origin is a note for the proofs; no step depends on
it. -/
structure Address where
  value : UInt32
  origin : Origin
  deriving DecidableEq, Repr

/-- The globals of the start-up, the calls of `DobbyHook` so far, and the
method pointers reported so far for `get_text` and `set_text` of
`UnityEngine.UI`. -/
structure State where
  addressGet : Address
  addressSet : Address
  libil2cppBase : UInt32
  libil2cppHandle : UInt32
  isGotGetAndSet : Bool
  hooks : List HookCall
  reportedGet : List UInt32
  reportedSet : List UInt32
  deriving DecidableEq, Repr

/-- What a call finds around it: the result of `find_module_by_name(lib_name)`,
of looking up `il2cpp_class_get_methods` in a handle, the readable words of the
memory, and the address of `dlopen`. -/
structure Environment where
  moduleBase : UInt32
  dlsym : UInt32 -> UInt32
  word : UInt32 -> Option UInt32
  dlopen : UInt32

def State.dobbyHook (state : State) (target : UInt32) (replacement : Replacement) :
    State :=
  { state with hooks := state.hooks ++ [⟨target, replacement, state.libil2cppBase⟩] }

/-- `hook_dlopen()` -/
def hookDlopen (environment : Environment) (state : State) : State :=
  state.dobbyHook environment.dlopen .newFuncDlopen

/-- Hook `new_func_get` at the base plus `address_get`. -/
def hookGet (state : State) : State :=
  if state.addressGet.value ≠ 0 then
    state.dobbyHook (state.libil2cppBase + state.addressGet.value) .newFuncGet
  else state

/-- Hook `new_func_set` at the base plus `address_set`. -/
def hookSet (state : State) : State :=
  if state.addressSet.value ≠ 0 then
    state.dobbyHook (state.libil2cppBase + state.addressSet.value) .newFuncSet
  else state

/-- `hook_get_set()` -/
def hookGetSet (state : State) : State :=
  if state.libil2cppBase = 0 then state else hookSet (hookGet state)

/-- The address a branch instruction at `address` jumps to: `new_p`. -/
def branchTarget (address instruction : UInt32) : UInt32 :=
  (((instruction.toInt32 <<< 8) >>> 8) * 4 + 8).toUInt32 + address

/-- `hook_get_methods()`.  The instruction is read through the pointer that
`dlsym` returns. -/
def hookGetMethods (environment : Environment) (state : State) : Checked State := do
  let funcGetMethods := environment.dlsym state.libil2cppHandle
  let instruction ← deref (environment.word funcGetMethods)
  return state.dobbyHook (branchTarget funcGetMethods instruction) .newFuncGetMethods

/-- Both addresses are unknown. -/
def State.NoAddress (state : State) : Prop :=
  state.addressGet.value = 0 ∧ state.addressSet.value = 0

instance (state : State) : Decidable state.NoAddress :=
  inferInstanceAs (Decidable (_ ∧ _))

/-- Use the addresses if there are any, else look for them. -/
def hookText (environment : Environment) (state : State) : Checked State :=
  if state.NoAddress then hookGetMethods environment state
  else .ok (hookGetSet state)

/-- The globals before `JNI_OnLoad`, once the first line has been read. -/
def initial (firstGet firstSet : UInt32) : State :=
  ⟨⟨firstGet, .file⟩, ⟨firstSet, .file⟩, 0, 0, false, [], [], []⟩

/-- `JNI_OnLoad`, where `firstLine` holds the two addresses of the first line
and is missing when `readFile` returns -1. -/
def jniOnLoad (environment : Environment) (firstLine : Option (UInt32 × UInt32)) :
    Checked State :=
  match firstLine with
  | none => .ok (initial 0 0)
  | some (firstGet, firstSet) =>
      let state :=
        { initial firstGet firstSet with libil2cppBase := environment.moduleBase }
      if state.libil2cppBase = 0 then .ok (hookDlopen environment state)
      else hookText environment state

/-- The name of the library in file names. -/
def libraryName : Bytes :=
  [0x6C, 0x69, 0x62, 0x69, 0x6C, 0x32, 0x63, 0x70, 0x70]

/-- The arguments of a loader call. -/
structure DlopenArguments where
  filename : Option Bytes
  flags : UInt32
  callerAddr : UInt32
  deriving DecidableEq

/-- What `new_func_dlopen` does: the state, the calls of the original loader
and the handle returned. -/
structure DlopenResult where
  state : State
  calls : List DlopenArguments
  returned : UInt32

/-- `new_func_dlopen(filename, flags, caller_addr)`, where the two calls of the
original loader return `first` and `second`.  File names are given without
their terminator. -/
def newFuncDlopen
    (environment : Environment) (state : State)
    (arguments : DlopenArguments) (first second : UInt32) : Checked DlopenResult := do
  let filename ← deref arguments.filename
  let found ← strstr libraryName (filename ++ [0])
  if found.isSome ∧ arguments.callerAddr ≠ 0 then
    let state ← hookText environment
      { state with libil2cppHandle := first, libil2cppBase := environment.moduleBase }
    return ⟨state, [arguments, arguments], second⟩
  else return ⟨state, [arguments, arguments], second⟩

/-- `UnityEngine.UI` -/
def unityEngineUI : Bytes :=
  [0x55, 0x6E, 0x69, 0x74, 0x79, 0x45, 0x6E, 0x67, 0x69, 0x6E, 0x65, 0x2E, 0x55, 0x49]

/-- `get_text` -/
def getText : Bytes := [0x67, 0x65, 0x74, 0x5F, 0x74, 0x65, 0x78, 0x74]

/-- `set_text` -/
def setText : Bytes := [0x73, 0x65, 0x74, 0x5F, 0x74, 0x65, 0x78, 0x74]

/-- What il2cpp reports of a method: its native pointer, its name and the
namespace of its class. -/
structure MethodInfo where
  methodPointer : UInt32
  methodName : Bytes
  nameSpaze : Bytes
  deriving DecidableEq

/-- Store the pointer of a `get_text`. -/
def storeGet (method : MethodInfo) (state : State) : State :=
  if method.methodName = getText then
    { state with
      addressGet := ⟨method.methodPointer, .reported method.methodPointer⟩
      reportedGet := method.methodPointer :: state.reportedGet }
  else state

/-- Store the pointer of a `set_text`. -/
def storeSet (method : MethodInfo) (state : State) : State :=
  if method.methodName = setText then
    { state with
      addressSet := ⟨method.methodPointer, .reported method.methodPointer⟩
      reportedSet := method.methodPointer :: state.reportedSet }
  else state

/-- Subtract the base from a stored pointer. -/
def Address.rebase (address : Address) (base : UInt32) : Address :=
  ⟨address.value - base,
    match address.origin with
    | .reported pointer => .rebased pointer base
    | origin => origin⟩

/-- Install the accessors when both pointers are known for the first time. -/
def discover (state : State) : State :=
  if state.addressGet.value ≠ 0 ∧ state.addressSet.value ≠ 0 ∧
      state.isGotGetAndSet = false then
    { hookGetSet { state with
        addressGet := state.addressGet.rebase state.libil2cppBase
        addressSet := state.addressSet.rebase state.libil2cppBase } with
      isGotGetAndSet := true }
  else state

/-- `new_func_get_methods`, where `ret` is the method the original returns. -/
def newFuncGetMethods (state : State) (ret : Option MethodInfo) : State :=
  match ret with
  | none => state
  | some method =>
      if method.nameSpaze = unityEngineUI then
        discover (storeSet method (storeGet method state))
      else state

/-- The function has been handed to `DobbyHook`, so its target is intercepted. -/
def State.Intercepts (state : State) (replacement : Replacement) : Prop :=
  ∃ call, call ∈ state.hooks ∧ call.replacement = replacement

instance (state : State) (replacement : Replacement) :
    Decidable (state.Intercepts replacement) :=
  inferInstanceAs (Decidable (∃ call, call ∈ state.hooks ∧ call.replacement = replacement))

/-- What the game does. -/
inductive Event
  | dlopen (environment : Environment) (arguments : DlopenArguments)
      (first second : UInt32)
  | getMethods (ret : Option MethodInfo)

/-- Only calls of hooked functions reach the library. -/
def step (state : State) : Event -> Checked State
  | .dlopen environment arguments first second =>
      if state.Intercepts .newFuncDlopen then do
        let result ← newFuncDlopen environment state arguments first second
        return result.state
      else .ok state
  | .getMethods ret =>
      if state.Intercepts .newFuncGetMethods then .ok (newFuncGetMethods state ret)
      else .ok state

end Install
end UnityLocalization
