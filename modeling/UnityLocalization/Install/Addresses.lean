import UnityLocalization.Install.Model
import UnityLocalization.Library.Transition

/-!
# Where the hooked addresses come from

`OriginInvariant` ties every stored address to its origin in all runs.  From it
follows which addresses `hookGetSet` hooks: real ones, as long as no opening of
the library meets a pointer that is not rebased by the base then found.
-/

namespace UnityLocalization
namespace Install

open CMemory Transition

/-! ## What the functions change -/

/-- The calls of `DobbyHook` that `hookGetSet` makes. -/
def textHooks (state : State) : List HookCall :=
  if state.libil2cppBase = 0 then []
  else
    (if state.addressGet.value ≠ 0 then
      [⟨state.libil2cppBase + state.addressGet.value, .newFuncGet, state.libil2cppBase⟩]
    else []) ++
    if state.addressSet.value ≠ 0 then
      [⟨state.libil2cppBase + state.addressSet.value, .newFuncSet, state.libil2cppBase⟩]
    else []

/-- `hookGetSet` only adds to the calls of `DobbyHook`. -/
theorem hookGetSet_eq (state : State) :
    hookGetSet state = { state with hooks := state.hooks ++ textHooks state } := by
  unfold hookGetSet textHooks
  by_cases noBase : state.libil2cppBase = 0
  · rw [if_pos noBase, if_pos noBase, List.append_nil]
  · unfold hookSet hookGet State.dobbyHook
    by_cases noGet : state.addressGet.value = 0 <;>
      by_cases noSet : state.addressSet.value = 0 <;>
        simp [noBase, noGet, noSet]

/-- What is known of a call made by `hookGetSet`. -/
theorem of_mem_textHooks
    {state : State} {call : HookCall} (made : call ∈ textHooks state) :
    state.libil2cppBase ≠ 0 ∧ call.base = state.libil2cppBase ∧
      (call.replacement = .newFuncGet ∧ state.addressGet.value ≠ 0 ∧
          call.target = state.libil2cppBase + state.addressGet.value ∨
        call.replacement = .newFuncSet ∧ state.addressSet.value ≠ 0 ∧
          call.target = state.libil2cppBase + state.addressSet.value) := by
  unfold textHooks at made
  split at made
  case isTrue => cases made
  case isFalse base =>
    rcases List.mem_append.mp made with get | set
    · split at get
      case isTrue nonzero =>
        rw [List.mem_singleton.mp get]
        exact ⟨base, rfl, Or.inl ⟨rfl, nonzero, rfl⟩⟩
      case isFalse => cases get
    · split at set
      case isTrue nonzero =>
        rw [List.mem_singleton.mp set]
        exact ⟨base, rfl, Or.inr ⟨rfl, nonzero, rfl⟩⟩
      case isFalse => cases set

/-- `hookText` hooks the decoded branch target when no address is known, and
the accessors otherwise. -/
theorem hookText_eq_ok
    {environment : Environment} {state next : State} :
    hookText environment state = .ok next ↔
      state.NoAddress ∧ (∃ instruction,
        environment.word (environment.dlsym state.libil2cppHandle) = some instruction ∧
        next = state.dobbyHook (branchTarget (environment.dlsym state.libil2cppHandle)
          instruction) .newFuncGetMethods) ∨
      ¬state.NoAddress ∧
        next = { state with hooks := state.hooks ++ textHooks state } := by
  unfold hookText
  split
  case isTrue noAddress =>
    unfold hookGetMethods
    cases word : environment.word (environment.dlsym state.libil2cppHandle) with
    | none => simp [word, noAddress]
    | some instruction => simp [word, noAddress, eq_comm]
  case isFalse known =>
    rw [hookGetSet_eq]
    simp [known, eq_comm]

/-- A loader call that opens the library: its name is in the file name, and the
caller is known. -/
def Opens (arguments : DlopenArguments) : Prop :=
  ∃ filename found, arguments.filename = some filename ∧
    strstr libraryName (filename ++ [0]) = .ok (some found) ∧ arguments.callerAddr ≠ 0

instance (arguments : DlopenArguments) : Decidable (Opens arguments) :=
  match given : arguments.filename with
  | none => isFalse (by simp [Opens, given])
  | some filename =>
      match searched : strstr libraryName (filename ++ [0]) with
      | .ok (some found) =>
          decidable_of_iff (arguments.callerAddr ≠ 0) (by simp [Opens, given, searched])
      | .ok none => isFalse (by simp [Opens, given, searched])
      | .error _ => isFalse (by simp [Opens, given, searched])

/-- The state in which an opening of the library is handled. -/
def State.opened (state : State) (environment : Environment) (handle : UInt32) : State :=
  { state with libil2cppHandle := handle, libil2cppBase := environment.moduleBase }

/-- The loader is called twice with the arguments of the caller, whatever they
are; the state changes only when the library is opened. -/
theorem newFuncDlopen_eq_ok
    {environment : Environment} {state : State} {arguments : DlopenArguments}
    {first second : UInt32} {result : DlopenResult}
    (returned : newFuncDlopen environment state arguments first second = .ok result) :
    result.calls = [arguments, arguments] ∧ result.returned = second ∧
      (result.state = state ∨
        Opens arguments ∧
          hookText environment (state.opened environment first) = .ok result.state) := by
  obtain ⟨filename, given, returned⟩ := bind_eq_ok.mp returned
  obtain ⟨found, searched, returned⟩ := bind_eq_ok.mp returned
  have name : arguments.filename = some filename := by
    cases stored : arguments.filename with
    | none =>
        rw [stored] at given
        cases given
    | some other =>
        rw [stored] at given
        cases given
        rfl
  split at returned
  case isTrue opens =>
    obtain ⟨after, handled, equal⟩ := bind_eq_ok.mp returned
    cases equal
    obtain ⟨place, isPlace⟩ := Option.isSome_iff_exists.mp opens.1
    subst isPlace
    exact ⟨rfl, rfl, Or.inr ⟨⟨filename, place, name, searched, opens.2⟩, handled⟩⟩
  case isFalse =>
    cases returned
    exact ⟨rfl, rfl, Or.inl rfl⟩

/-- Only methods of classes in `UnityEngine.UI` are looked at. -/
theorem newFuncGetMethods_cases (state : State) (ret : Option MethodInfo) :
    newFuncGetMethods state ret = state ∨
      ∃ method, ret = some method ∧ method.nameSpaze = unityEngineUI ∧
        newFuncGetMethods state ret =
          discover (storeSet method (storeGet method state)) := by
  cases ret with
  | none => exact Or.inl rfl
  | some method =>
      by_cases inUI : method.nameSpaze = unityEngineUI
      · exact Or.inr ⟨method, rfl, inUI, if_pos inUI⟩
      · exact Or.inl (if_neg inUI)

/-- A step leaves the state alone, handles an opening of the library, or handles
a reported method. -/
theorem step_eq_ok
    {state next : State} {event : Event} (stepped : step state event = .ok next) :
    next = state ∨
    (∃ environment arguments first second,
      event = .dlopen environment arguments first second ∧
      state.Intercepts .newFuncDlopen ∧ Opens arguments ∧
      hookText environment (state.opened environment first) = .ok next) ∨
    ∃ method, event = .getMethods (some method) ∧
      state.Intercepts .newFuncGetMethods ∧ method.nameSpaze = unityEngineUI ∧
      next = discover (storeSet method (storeGet method state)) := by
  cases event with
  | dlopen environment arguments first second =>
      simp only [step] at stepped
      split at stepped
      case isTrue hooked =>
        obtain ⟨result, returned, equal⟩ := bind_eq_ok.mp stepped
        cases equal
        obtain ⟨-, -, same | ⟨opens, handled⟩⟩ := newFuncDlopen_eq_ok returned
        · exact Or.inl same
        · right
          left
          exact ⟨environment, arguments, first, second, rfl, hooked, opens, handled⟩
      case isFalse =>
        cases stepped
        exact Or.inl rfl
  | getMethods ret =>
      simp only [step] at stepped
      split at stepped
      case isTrue hooked =>
        cases stepped
        rcases newFuncGetMethods_cases state ret with same | ⟨method, rfl, inUI, changed⟩
        · exact Or.inl same
        · right
          right
          exact ⟨method, rfl, hooked, inUI, changed⟩
      case isFalse =>
        cases stepped
        exact Or.inl rfl

/-! ## Origins -/

/-- The address has the value its origin says: the offset of the file, or a
reported pointer, rebased or not. -/
def Address.Sound (offset : UInt32) (reported : List UInt32) (address : Address) :
    Prop :=
  match address.origin with
  | .file => address.value = offset
  | .reported pointer => address.value = pointer ∧ pointer ∈ reported
  | .rebased pointer base => address.value = pointer - base ∧ pointer ∈ reported

/-- A reported pointer is stored as it was reported. -/
def Address.Raw (address : Address) : Prop :=
  ∃ pointer, address.origin = .reported pointer

/-- What holds of the addresses in every run. -/
structure OriginInvariant (firstGet firstSet : UInt32) (state : State) : Prop where
  get : state.addressGet.Sound firstGet state.reportedGet
  set : state.addressSet.Sound firstSet state.reportedSet
  searched : state.Intercepts .newFuncGetMethods -> firstGet = 0 ∧ firstSet = 0
  untouched : ¬state.Intercepts .newFuncGetMethods ->
    state.addressGet.origin = .file ∧ state.addressSet.origin = .file
  undiscovered : state.isGotGetAndSet = false ->
    (state.addressGet.origin = .file ∨ state.addressGet.Raw) ∧
      (state.addressSet.origin = .file ∨ state.addressSet.Raw)

/-- An address from a file without offset is zero. -/
theorem Address.Sound.raw_of_ne_zero
    {reported : List UInt32} {address : Address}
    (sound : address.Sound 0 reported)
    (origin : address.origin = .file ∨ address.Raw) (nonzero : address.value ≠ 0) :
    address.Raw := by
  refine origin.resolve_left fun file => nonzero ?_
  rw [Address.Sound, file] at sound
  exact sound

/-- Rebasing a raw pointer is sound. -/
theorem Address.Sound.rebase
    {offset : UInt32} {reported : List UInt32} {address : Address}
    (sound : address.Sound offset reported) (raw : address.Raw) (base : UInt32) :
    (address.rebase base).Sound offset reported := by
  obtain ⟨pointer, origin⟩ := raw
  rw [Address.Sound, origin] at sound
  simp only [Address.Sound, Address.rebase, origin, sound.1, true_and]
  exact sound.2

theorem intercepts_append_iff
    {hooks more : List HookCall} {replacement : Replacement} :
    (∃ call, call ∈ hooks ++ more ∧ call.replacement = replacement) ↔
      (∃ call, call ∈ hooks ∧ call.replacement = replacement) ∨
        ∃ call, call ∈ more ∧ call.replacement = replacement := by
  simp only [List.mem_append, or_and_right, exists_or]

/-- Hooking accessors does not intercept `il2cpp_class_get_methods`. -/
theorem intercepts_textHooks_iff (state : State) :
    State.Intercepts { state with hooks := state.hooks ++ textHooks state }
        .newFuncGetMethods ↔
      state.Intercepts .newFuncGetMethods := by
  unfold State.Intercepts
  rw [intercepts_append_iff]
  refine or_iff_left ?_
  rintro ⟨call, made, isMethods⟩
  rcases (of_mem_textHooks made).2.2 with ⟨isGet, -⟩ | ⟨isSet, -⟩
  · rw [isGet] at isMethods
    cases isMethods
  · rw [isSet] at isMethods
    cases isMethods

theorem originInvariant_initial (firstGet firstSet : UInt32) :
    OriginInvariant firstGet firstSet (initial firstGet firstSet) where
  get := rfl
  set := rfl
  searched := by
    rintro ⟨call, made, -⟩
    cases made
  untouched := fun _ => ⟨rfl, rfl⟩
  undiscovered := fun _ => ⟨Or.inl rfl, Or.inl rfl⟩

/-- Handling an opening, or hooking at the start, keeps the origins. -/
theorem OriginInvariant.hookText
    {firstGet firstSet : UInt32} {environment : Environment} {state next : State}
    (holds : OriginInvariant firstGet firstSet state)
    (hooked : Install.hookText environment state = .ok next) :
    OriginInvariant firstGet firstSet next := by
  rcases hookText_eq_ok.mp hooked with
    ⟨noAddress, instruction, -, rfl⟩ | ⟨-, rfl⟩
  · have filesZero : firstGet = 0 ∧ firstSet = 0 := by
      by_cases before : state.Intercepts .newFuncGetMethods
      · exact holds.searched before
      · -- untouched addresses are those of the file, and both are zero
        obtain ⟨getFile, setFile⟩ := holds.untouched before
        have get := holds.get
        have set := holds.set
        rw [Address.Sound, getFile] at get
        rw [Address.Sound, setFile] at set
        exact ⟨get.symm.trans noAddress.1, set.symm.trans noAddress.2⟩
    exact
      { get := holds.get
        set := holds.set
        searched := fun _ => filesZero
        untouched := fun notHooked => absurd
          ⟨_, List.mem_append_right _ (List.mem_singleton_self _), rfl⟩ notHooked
        undiscovered := holds.undiscovered }
  · have same := intercepts_textHooks_iff state
    exact
      { get := holds.get
        set := holds.set
        searched := fun before => holds.searched (same.mp before)
        untouched := fun before => holds.untouched fun hooked => before (same.mpr hooked)
        undiscovered := holds.undiscovered }

/-- Opening the library changes neither the addresses nor the hooks. -/
theorem OriginInvariant.opened
    {firstGet firstSet : UInt32} {state : State}
    (holds : OriginInvariant firstGet firstSet state)
    (environment : Environment) (handle : UInt32) :
    OriginInvariant firstGet firstSet (state.opened environment handle) :=
  ⟨holds.get, holds.set, holds.searched, holds.untouched, holds.undiscovered⟩

/-- A stored `get_text` is a raw pointer that was reported. -/
theorem OriginInvariant.storeGet
    {firstGet firstSet : UInt32} {state : State}
    (holds : OriginInvariant firstGet firstSet state)
    (hooked : state.Intercepts .newFuncGetMethods) (method : MethodInfo) :
    OriginInvariant firstGet firstSet (Install.storeGet method state) := by
  unfold Install.storeGet
  split
  case isTrue =>
    exact
      { get := ⟨rfl, List.mem_cons_self⟩
        set := holds.set
        searched := holds.searched
        untouched := fun notHooked => absurd hooked notHooked
        undiscovered := fun flag =>
          ⟨Or.inr ⟨_, rfl⟩, (holds.undiscovered flag).2⟩ }
  case isFalse => exact holds

/-- A stored `set_text` is a raw pointer that was reported. -/
theorem OriginInvariant.storeSet
    {firstGet firstSet : UInt32} {state : State}
    (holds : OriginInvariant firstGet firstSet state)
    (hooked : state.Intercepts .newFuncGetMethods) (method : MethodInfo) :
    OriginInvariant firstGet firstSet (Install.storeSet method state) := by
  unfold Install.storeSet
  split
  case isTrue =>
    exact
      { get := holds.get
        set := ⟨rfl, List.mem_cons_self⟩
        searched := holds.searched
        untouched := fun notHooked => absurd hooked notHooked
        undiscovered := fun flag =>
          ⟨(holds.undiscovered flag).1, Or.inr ⟨_, rfl⟩⟩ }
  case isFalse => exact holds

/-- Storing pointers makes no call of `DobbyHook`. -/
@[simp] theorem hooks_storeGet (method : MethodInfo) (state : State) :
    (storeGet method state).hooks = state.hooks := by
  unfold storeGet
  split <;> rfl

@[simp] theorem hooks_storeSet (method : MethodInfo) (state : State) :
    (storeSet method state).hooks = state.hooks := by
  unfold storeSet
  split <;> rfl

/-- What is intercepted is still intercepted after a method has been stored. -/
theorem State.Intercepts.stored
    {state : State} {replacement : Replacement}
    (hooked : state.Intercepts replacement) (method : MethodInfo) :
    (storeGet method state).Intercepts replacement ∧
      (storeSet method (storeGet method state)).Intercepts replacement := by
  unfold State.Intercepts
  rw [hooks_storeSet, hooks_storeGet]
  exact ⟨hooked, hooked⟩

/-- The addresses relative to the base, as the discovery stores them. -/
def State.rebased (state : State) : State :=
  { state with
    addressGet := state.addressGet.rebase state.libil2cppBase
    addressSet := state.addressSet.rebase state.libil2cppBase }

/-- The discovery does nothing, or hooks the rebased addresses for the first
time. -/
theorem discover_cases (state : State) :
    discover state = state ∨
      state.addressGet.value ≠ 0 ∧ state.addressSet.value ≠ 0 ∧
        state.isGotGetAndSet = false ∧
        discover state =
          { state.rebased with
            hooks := state.hooks ++ textHooks state.rebased
            isGotGetAndSet := true } := by
  unfold discover
  split
  case isTrue first =>
    right
    refine ⟨first.1, first.2.1, first.2.2, ?_⟩
    rw [hookGetSet_eq]
    rfl
  case isFalse => exact Or.inl rfl

/-- Both addresses are raw when the discovery takes place. -/
theorem OriginInvariant.raw
    {firstGet firstSet : UInt32} {state : State}
    (holds : OriginInvariant firstGet firstSet state)
    (hooked : state.Intercepts .newFuncGetMethods)
    (undiscovered : state.isGotGetAndSet = false)
    (knownGet : state.addressGet.value ≠ 0) (knownSet : state.addressSet.value ≠ 0) :
    state.addressGet.Raw ∧ state.addressSet.Raw := by
  obtain ⟨rfl, rfl⟩ := holds.searched hooked
  exact ⟨holds.get.raw_of_ne_zero (holds.undiscovered undiscovered).1 knownGet,
    holds.set.raw_of_ne_zero (holds.undiscovered undiscovered).2 knownSet⟩

theorem OriginInvariant.discover
    {firstGet firstSet : UInt32} {state : State}
    (holds : OriginInvariant firstGet firstSet state)
    (hooked : state.Intercepts .newFuncGetMethods) :
    OriginInvariant firstGet firstSet (Install.discover state) := by
  rcases discover_cases state with same | ⟨knownGet, knownSet, undiscovered, changed⟩
  · rw [same]
    exact holds
  · obtain ⟨rawGet, rawSet⟩ := holds.raw hooked undiscovered knownGet knownSet
    rw [changed]
    exact
      { get := holds.get.rebase rawGet state.libil2cppBase
        set := holds.set.rebase rawSet state.libil2cppBase
        searched := fun _ => holds.searched hooked
        untouched := fun notHooked =>
          absurd ((intercepts_textHooks_iff state.rebased).mpr hooked) notHooked
        undiscovered := fun flag => by cases flag }

/-- Every step keeps the origins. -/
theorem OriginInvariant.step
    {firstGet firstSet : UInt32} {state next : State} {event : Event}
    (holds : OriginInvariant firstGet firstSet state)
    (stepped : Install.step state event = .ok next) :
    OriginInvariant firstGet firstSet next := by
  rcases step_eq_ok stepped with
    rfl | ⟨environment, arguments, first, second, -, -, -, handled⟩ |
      ⟨method, -, hooked, -, rfl⟩
  · exact holds
  · exact (holds.opened environment first).hookText handled
  · obtain ⟨hookedGet, hookedSet⟩ := hooked.stored method
    exact ((holds.storeGet hooked method).storeSet hookedGet method).discover hookedSet

/-- The addresses of the first line, which are zero when it cannot be read. -/
def firstAddresses (firstLine : Option (UInt32 × UInt32)) : UInt32 × UInt32 :=
  firstLine.getD (0, 0)

/-- The start hooks the loader, or what `hookText` hooks, or nothing. -/
theorem jniOnLoad_eq_ok
    {environment : Environment} {firstLine : Option (UInt32 × UInt32)} {start : State}
    (loaded : jniOnLoad environment firstLine = .ok start) :
    let read :=
      { initial (firstAddresses firstLine).1 (firstAddresses firstLine).2 with
        libil2cppBase := environment.moduleBase }
    start = initial (firstAddresses firstLine).1 (firstAddresses firstLine).2 ∨
      start = hookDlopen environment read ∧ environment.moduleBase = 0 ∨
      hookText environment read = .ok start ∧ environment.moduleBase ≠ 0 := by
  cases firstLine with
  | none =>
      cases loaded
      exact Or.inl rfl
  | some addresses =>
      obtain ⟨firstGet, firstSet⟩ := addresses
      right
      simp only [jniOnLoad] at loaded
      split at loaded
      case isTrue noBase =>
        cases loaded
        exact Or.inl ⟨rfl, noBase⟩
      case isFalse base => exact Or.inr ⟨loaded, base⟩

/-- The start establishes the origins. -/
theorem originInvariant_jniOnLoad
    {environment : Environment} {firstLine : Option (UInt32 × UInt32)} {start : State}
    (loaded : jniOnLoad environment firstLine = .ok start) :
    OriginInvariant (firstAddresses firstLine).1 (firstAddresses firstLine).2 start := by
  have fresh := originInvariant_initial (firstAddresses firstLine).1
    (firstAddresses firstLine).2
  have read := fresh.opened environment 0
  rcases jniOnLoad_eq_ok loaded with rfl | ⟨rfl, -⟩ | ⟨hooked, -⟩
  · exact fresh
  · refine ⟨read.get, read.set, ?_, fun _ => ⟨rfl, rfl⟩,
      fun _ => ⟨Or.inl rfl, Or.inl rfl⟩⟩
    -- only the loader is hooked
    rintro ⟨call, made, isMethods⟩
    rw [List.mem_singleton.mp made] at isMethods
    cases isMethods
  · exact read.hookText hooked

/-! ## Real addresses -/

/-- The call hooks an accessor at the base plus the offset of the first line,
or at a pointer that was reported for it. -/
def HookCall.Real
    (firstGet firstSet : UInt32) (reportedGet reportedSet : List UInt32)
    (call : HookCall) : Prop :=
  (call.replacement = .newFuncGet ->
    call.target = call.base + firstGet ∨ call.target ∈ reportedGet) ∧
  (call.replacement = .newFuncSet ->
    call.target = call.base + firstSet ∨ call.target ∈ reportedSet)

instance
    (firstGet firstSet : UInt32) (reportedGet reportedSet : List UInt32)
    (call : HookCall) : Decidable (call.Real firstGet firstSet reportedGet reportedSet) :=
  inferInstanceAs (Decidable ((_ -> _) ∧ (_ -> _)))

/-- Every hooked accessor is at a real address. -/
def HooksReal (firstGet firstSet : UInt32) (state : State) : Prop :=
  ∀ call, call ∈ state.hooks ->
    call.Real firstGet firstSet state.reportedGet state.reportedSet

instance (firstGet firstSet : UInt32) (state : State) :
    Decidable (HooksReal firstGet firstSet state) :=
  inferInstanceAs (Decidable (∀ call, call ∈ state.hooks -> _))

/-- Adding the base leads to a real address: the origin is the file, or the
discovery has rebased the pointer by this very base. -/
def Origin.Fits (base : UInt32) : Origin -> Prop
  | .file => True
  | .reported _ => False
  | .rebased _ other => other = base

instance (base : UInt32) (origin : Origin) : Decidable (origin.Fits base) :=
  match origin with
  | .file => isTrue trivial
  | .reported _ => isFalse id
  | .rebased _ other => inferInstanceAs (Decidable (other = base))

/-- The address is unknown or can be hooked at the base. -/
def Address.Fits (address : Address) (base : UInt32) : Prop :=
  address.value = 0 ∨ address.origin.Fits base

instance (address : Address) (base : UInt32) : Decidable (address.Fits base) :=
  inferInstanceAs (Decidable (_ ∨ _))

/-- An opening of the library that finds a base finds addresses that can be
hooked there. -/
def FittingOpening (state : State) : Event -> Prop
  | .dlopen environment arguments _ _ =>
      state.Intercepts .newFuncDlopen -> Opens arguments -> environment.moduleBase ≠ 0 ->
        state.addressGet.Fits environment.moduleBase ∧
          state.addressSet.Fits environment.moduleBase
  | .getMethods _ => True

instance (state : State) (event : Event) : Decidable (FittingOpening state event) :=
  match event with
  | .dlopen _ _ _ _ => inferInstanceAs (Decidable (_ -> _ -> _ -> _ ∧ _))
  | .getMethods _ => isTrue trivial

/-- The discovery rebases a pointer by the base it finds. -/
theorem Address.Raw.fits_rebase
    {address : Address} (raw : address.Raw) (base : UInt32) :
    (address.rebase base).Fits base := by
  obtain ⟨pointer, origin⟩ := raw
  right
  rw [Address.rebase, origin]
  rfl

/-- A sound address that fits the base is hooked at a real address. -/
theorem Address.Sound.target
    {offset base : UInt32} {reported : List UInt32} {address : Address}
    (sound : address.Sound offset reported) (fits : address.Fits base)
    (nonzero : address.value ≠ 0) :
    base + address.value = base + offset ∨ base + address.value ∈ reported := by
  have origin := fits.resolve_left nonzero
  unfold Address.Sound at sound
  split at sound
  case h_1 => exact Or.inl (congrArg (base + ·) sound)
  case h_2 pointer reported =>
    rw [reported] at origin
    exact origin.elim
  case h_3 pointer other rebased =>
    rw [rebased] at origin
    obtain rfl : other = base := origin
    have back : other + (pointer - other) = pointer := by
      rw [UInt32.add_comm, UInt32.sub_add_cancel]
    right
    rw [sound.1, back]
    exact sound.2

/-- `hookGetSet` makes real calls when the addresses fit the base. -/
theorem real_of_mem_textHooks
    {firstGet firstSet : UInt32} {state : State} {call : HookCall}
    (made : call ∈ textHooks state)
    (soundGet : state.addressGet.Sound firstGet state.reportedGet)
    (soundSet : state.addressSet.Sound firstSet state.reportedSet)
    (fitsGet : state.addressGet.Fits state.libil2cppBase)
    (fitsSet : state.addressSet.Fits state.libil2cppBase) :
    call.Real firstGet firstSet state.reportedGet state.reportedSet := by
  obtain ⟨-, base, ⟨isGet, nonzero, target⟩ | ⟨isSet, nonzero, target⟩⟩ :=
    of_mem_textHooks made
  · refine ⟨fun _ => ?_, fun isSet => ?_⟩
    · rw [target, base]
      exact soundGet.target fitsGet nonzero
    · rw [isGet] at isSet
      cases isSet
  · refine ⟨fun isGet => ?_, fun _ => ?_⟩
    · rw [isSet] at isGet
      cases isGet
    · rw [target, base]
      exact soundSet.target fitsSet nonzero

/-- Handling an opening hooks real addresses when the stored ones fit. -/
theorem HooksReal.hookText
    {firstGet firstSet : UInt32} {environment : Environment} {state next : State}
    (real : HooksReal firstGet firstSet state)
    (origins : OriginInvariant firstGet firstSet state)
    (fits : state.libil2cppBase ≠ 0 ->
      state.addressGet.Fits state.libil2cppBase ∧
        state.addressSet.Fits state.libil2cppBase)
    (hooked : Install.hookText environment state = .ok next) :
    HooksReal firstGet firstSet next := by
  rcases hookText_eq_ok.mp hooked with ⟨-, instruction, -, rfl⟩ | ⟨-, rfl⟩
  · intro call made
    rcases List.mem_append.mp made with earlier | new
    · exact real call earlier
    · -- the branch target is hooked, but not with an accessor
      rw [List.mem_singleton.mp new]
      exact ⟨fun isGet => (by cases isGet), fun isSet => (by cases isSet)⟩
  · intro call made
    rcases List.mem_append.mp made with earlier | new
    · exact real call earlier
    · obtain ⟨fitsGet, fitsSet⟩ := fits (of_mem_textHooks new).1
      exact real_of_mem_textHooks new origins.get origins.set fitsGet fitsSet

/-- More reported pointers make no call less real. -/
theorem HooksReal.mono
    {firstGet firstSet : UInt32} {state next : State}
    (real : HooksReal firstGet firstSet state) (hooks : next.hooks = state.hooks)
    (get : ∀ pointer, pointer ∈ state.reportedGet -> pointer ∈ next.reportedGet)
    (set : ∀ pointer, pointer ∈ state.reportedSet -> pointer ∈ next.reportedSet) :
    HooksReal firstGet firstSet next := by
  intro call made
  obtain ⟨realGet, realSet⟩ := real call (hooks ▸ made)
  exact ⟨fun isGet => (realGet isGet).imp_right (get _),
    fun isSet => (realSet isSet).imp_right (set _)⟩

theorem HooksReal.storeGet
    {firstGet firstSet : UInt32} {state : State}
    (real : HooksReal firstGet firstSet state) (method : MethodInfo) :
    HooksReal firstGet firstSet (Install.storeGet method state) := by
  refine real.mono (hooks_storeGet method state) ?_ ?_ <;> unfold Install.storeGet <;> split
  · exact fun pointer => List.mem_cons_of_mem _
  · exact fun pointer => id
  · exact fun pointer => id
  · exact fun pointer => id

theorem HooksReal.storeSet
    {firstGet firstSet : UInt32} {state : State}
    (real : HooksReal firstGet firstSet state) (method : MethodInfo) :
    HooksReal firstGet firstSet (Install.storeSet method state) := by
  refine real.mono (hooks_storeSet method state) ?_ ?_ <;> unfold Install.storeSet <;> split
  · exact fun pointer => id
  · exact fun pointer => id
  · exact fun pointer => List.mem_cons_of_mem _
  · exact fun pointer => id

/-- The discovery hooks the two pointers it has found. -/
theorem HooksReal.discover
    {firstGet firstSet : UInt32} {state : State}
    (real : HooksReal firstGet firstSet state)
    (origins : OriginInvariant firstGet firstSet state)
    (hooked : state.Intercepts .newFuncGetMethods) :
    HooksReal firstGet firstSet (Install.discover state) := by
  rcases discover_cases state with same | ⟨knownGet, knownSet, undiscovered, changed⟩
  · rw [same]
    exact real
  · obtain ⟨rawGet, rawSet⟩ := origins.raw hooked undiscovered knownGet knownSet
    rw [changed]
    intro call made
    rcases List.mem_append.mp made with earlier | new
    · exact real call earlier
    · exact real_of_mem_textHooks new
        (origins.get.rebase rawGet state.libil2cppBase)
        (origins.set.rebase rawSet state.libil2cppBase)
        (rawGet.fits_rebase state.libil2cppBase)
        (rawSet.fits_rebase state.libil2cppBase)

/-- Every step of the machine that meets fitting addresses hooks real ones. -/
theorem HooksReal.step
    {firstGet firstSet : UInt32} {state next : State} {event : Event}
    (real : HooksReal firstGet firstSet state)
    (origins : OriginInvariant firstGet firstSet state)
    (fitting : FittingOpening state event)
    (stepped : Install.step state event = .ok next) :
    HooksReal firstGet firstSet next := by
  rcases step_eq_ok stepped with
    rfl | ⟨environment, arguments, first, second, rfl, hooked, opens, handled⟩ |
      ⟨method, -, hooked, -, rfl⟩
  · exact real
  · have openedReal : HooksReal firstGet firstSet (state.opened environment first) :=
      real.mono rfl (fun _ => id) (fun _ => id)
    exact openedReal.hookText (origins.opened environment first)
      (fitting hooked opens) handled
  · obtain ⟨hookedGet, hookedSet⟩ := hooked.stored method
    exact ((real.storeGet method).storeSet method).discover
      ((origins.storeGet hooked method).storeSet hookedGet method) hookedSet

/-- The start hooks the offsets of the first line. -/
theorem hooksReal_jniOnLoad
    {environment : Environment} {firstLine : Option (UInt32 × UInt32)} {start : State}
    (loaded : jniOnLoad environment firstLine = .ok start) :
    HooksReal (firstAddresses firstLine).1 (firstAddresses firstLine).2 start := by
  rcases jniOnLoad_eq_ok loaded with rfl | ⟨rfl, -⟩ | ⟨hooked, -⟩
  · intro call made
    cases made
  · intro call made
    rw [List.mem_singleton.mp made]
    exact ⟨fun isGet => (by cases isGet), fun isSet => (by cases isSet)⟩
  · refine HooksReal.hookText ?_ ((originInvariant_initial _ _).opened environment 0)
      (fun _ => ⟨Or.inr trivial, Or.inr trivial⟩) hooked
    intro call made
    cases made

/-- In every run in which each opening of the library meets addresses that fit
the base it finds, every hooked accessor is at a real address. -/
theorem hooksReal_of_fittingOpenings
    (environment : Environment) (firstLine : Option (UInt32 × UInt32))
    (start final : State) (events : List Event)
    (loaded : jniOnLoad environment firstLine = .ok start)
    (fitting : AllowedRun step FittingOpening start events)
    (ran : run step start events = .ok final) :
    HooksReal (firstAddresses firstLine).1 (firstAddresses firstLine).2 final := by
  let invariant (state : State) : Prop :=
    OriginInvariant (firstAddresses firstLine).1 (firstAddresses firstLine).2 state ∧
      HooksReal (firstAddresses firstLine).1 (firstAddresses firstLine).2 state
  have preserved : ∀ state event next, invariant state -> FittingOpening state event ->
      step state event = .ok next -> invariant next :=
    fun state event next holds here stepped =>
      ⟨holds.1.step stepped, holds.2.step holds.1 here stepped⟩
  exact (run_invariant preserved
    ⟨originInvariant_jniOnLoad loaded, hooksReal_jniOnLoad loaded⟩ fitting ran).2

/-! ## Runs that open the library again -/

/-- The library is not loaded. -/
def beforeLoading : Environment :=
  ⟨0, fun _ => 0, fun _ => none, 0xB6F00000⟩

/-- The library is loaded at `base`, and the exported function is a branch. -/
def loadedAt (base : UInt32) : Environment :=
  ⟨base, fun _ => base + 0x1000, fun _ => some 0xEA000010, 0xB6F00000⟩

/-- The loader call for the library. -/
def opening (base : UInt32) : Event :=
  .dlopen (loadedAt base) ⟨some libraryName, 2, 1⟩ 1 1

/-- A method of a class in `UnityEngine.UI` is reported. -/
def reporting (methodName : Bytes) (methodPointer : UInt32) : Event :=
  .getMethods (some ⟨methodPointer, methodName, unityEngineUI⟩)

/-- The loader is hooked, and no address is known. -/
def waiting : State := hookDlopen beforeLoading (initial 0 0)

/-- The library is opened, and both accessors are discovered. -/
def discovery : List Event :=
  [opening 0xA0000000, reporting getText 0xA0100000, reporting setText 0xA0200000]

/-- After the discovery the `get_text` of a further class is reported. -/
def furtherClass : List Event :=
  discovery ++ [reporting getText 0xA0300000]

theorem hooksReal_of_fittingOpenings_furtherClass :
    ∃ final, run step waiting furtherClass = .ok final ∧ HooksReal 0 0 final := by
  have fitting : AllowedRun step FittingOpening waiting furtherClass := by
    decide +kernel
  obtain ⟨final, ran, -⟩ :
      ∃ final, run step waiting furtherClass = .ok final ∧
        final.isGotGetAndSet = true := by
    decide +kernel
  exact ⟨final, ran, hooksReal_of_fittingOpenings beforeLoading (some (0, 0)) waiting final
    furtherClass rfl fitting ran⟩

/-- The next opening takes the pointer of the further class for an offset. -/
theorem hooks_twice_the_base :
    jniOnLoad beforeLoading (some (0, 0)) = .ok waiting ∧
      ∃ final, run step waiting (furtherClass ++ [opening 0xA0000000]) = .ok final ∧
        ⟨0xA0000000 + 0xA0300000, .newFuncGet, 0xA0000000⟩ ∈ final.hooks ∧
        ¬HooksReal 0 0 final := by
  decide +kernel

end Install
end UnityLocalization
