import UnityLocalization.Install.Addresses

/-!
# The discovery of the accessors

The search latches the last pointer reported for each accessor and ends at the
first report after which both are nonzero.  `completedPair` reads this moment
off the reports alone; from it follows which pair is found and whether setting
`isGotGetAndSet` tells the truth.
-/

namespace UnityLocalization
namespace Install

open CMemory Transition

/-! ## The pair a report completes -/

/-- The pointer of the last `get_text` once the method has been reported. -/
def latestGet (method : MethodInfo) (state : State) : UInt32 :=
  if method.methodName = getText then method.methodPointer
  else state.reportedGet.headD 0

/-- The pointer of the last `set_text` once the method has been reported. -/
def latestSet (method : MethodInfo) (state : State) : UInt32 :=
  if method.methodName = setText then method.methodPointer
  else state.reportedSet.headD 0

/-- A method of `UnityEngine.UI` is reported during the search, and the last
`get_text` and the last `set_text` reported are then both nonzero. -/
def CompletesWith (state : State) (method : MethodInfo) : Prop :=
  state.Intercepts .newFuncGetMethods ∧ state.isGotGetAndSet = false ∧
    method.nameSpaze = unityEngineUI ∧
    latestGet method state ≠ 0 ∧ latestSet method state ≠ 0

instance (state : State) (method : MethodInfo) : Decidable (CompletesWith state method) :=
  inferInstanceAs (Decidable (_ ∧ _ ∧ _ ∧ _ ∧ _))

/-- The last `get_text` and the last `set_text` at the report that ends the
search. -/
def completedPair (state : State) : Event -> Option (UInt32 × UInt32)
  | .dlopen _ _ _ _ => none
  | .getMethods none => none
  | .getMethods (some method) =>
      if CompletesWith state method then
        some (latestGet method state, latestSet method state)
      else none

theorem completedPair_eq_some
    {state : State} {event : Event} {pair : UInt32 × UInt32} :
    completedPair state event = some pair ↔
      ∃ method, event = .getMethods (some method) ∧ CompletesWith state method ∧
        pair = (latestGet method state, latestSet method state) := by
  constructor
  · intro completed
    match event, completed with
    | .getMethods (some method), completed =>
        rw [completedPair] at completed
        split at completed
        case isTrue completes =>
          cases completed
          exact ⟨method, rfl, completes, rfl⟩
        case isFalse => cases completed
  · rintro ⟨method, rfl, completes, rfl⟩
    exact if_pos completes

/-! ## The invariant of the search -/

/-- Both addresses are the last pointers reported, or zero. -/
structure Latched (state : State) : Prop where
  get : state.addressGet.value = state.reportedGet.headD 0
  set : state.addressSet.value = state.reportedSet.headD 0

/-- What holds until the discovery. -/
structure SearchInvariant (state : State) : Prop where
  unreported : ¬state.Intercepts .newFuncGetMethods ->
    state.reportedGet = [] ∧ state.reportedSet = []
  latched : state.Intercepts .newFuncGetMethods -> state.isGotGetAndSet = false ->
    Latched state
  incomplete : state.Intercepts .newFuncGetMethods -> state.isGotGetAndSet = false ->
    state.addressGet.value = 0 ∨ state.addressSet.value = 0

theorem storeGet_latest
    {state : State} (latched : Latched state) (method : MethodInfo) :
    (storeGet method state).addressGet.value = latestGet method state ∧
      (storeGet method state).reportedGet.headD 0 = latestGet method state := by
  unfold storeGet latestGet
  split
  case isTrue => exact ⟨rfl, rfl⟩
  case isFalse => exact ⟨latched.get, rfl⟩

theorem storeSet_latest
    {state : State} (latched : Latched state) (method : MethodInfo) :
    (storeSet method state).addressSet.value = latestSet method state ∧
      (storeSet method state).reportedSet.headD 0 = latestSet method state := by
  unfold storeSet latestSet
  split
  case isTrue => exact ⟨rfl, rfl⟩
  case isFalse => exact ⟨latched.set, rfl⟩

/-- Storing one accessor leaves the other, the base and the flag alone. -/
theorem storeGet_other (method : MethodInfo) (state : State) :
    (storeGet method state).addressSet = state.addressSet ∧
      (storeGet method state).reportedSet = state.reportedSet ∧
      (storeGet method state).libil2cppBase = state.libil2cppBase ∧
      (storeGet method state).isGotGetAndSet = state.isGotGetAndSet := by
  unfold storeGet
  split <;> exact ⟨rfl, rfl, rfl, rfl⟩

theorem storeSet_other (method : MethodInfo) (state : State) :
    (storeSet method state).addressGet = state.addressGet ∧
      (storeSet method state).reportedGet = state.reportedGet ∧
      (storeSet method state).libil2cppBase = state.libil2cppBase ∧
      (storeSet method state).isGotGetAndSet = state.isGotGetAndSet := by
  unfold storeSet
  split <;> exact ⟨rfl, rfl, rfl, rfl⟩

/-- The state in which the discovery is decided. -/
def State.stored (state : State) (method : MethodInfo) : State :=
  storeSet method (storeGet method state)

/-- After a report both addresses are the last pointers reported. -/
theorem Latched.stored
    {state : State} (latched : Latched state) (method : MethodInfo) :
    ((state.stored method).addressGet.value = latestGet method state ∧
      (state.stored method).addressSet.value = latestSet method state) ∧
    Latched (state.stored method) := by
  obtain ⟨getValue, getReported⟩ := storeGet_latest latched method
  obtain ⟨sameSet, sameReported, -, -⟩ := storeGet_other method state
  obtain ⟨sameGet, sameReportedGet, -, -⟩ := storeSet_other method (storeGet method state)
  have between : Latched (storeGet method state) :=
    ⟨getValue.trans getReported.symm, by rw [sameSet, sameReported]; exact latched.set⟩
  obtain ⟨setValue, setReported⟩ := storeSet_latest between method
  have sameLatest : latestSet method (storeGet method state) = latestSet method state := by
    unfold latestSet
    rw [sameReported]
  rw [State.stored, sameGet, ← sameLatest]
  refine ⟨⟨getValue, setValue⟩, ?_, setValue.trans setReported.symm⟩
  rw [sameGet, sameReportedGet]
  exact getValue.trans getReported.symm

theorem stored_base_flag (method : MethodInfo) (state : State) :
    (state.stored method).libil2cppBase = state.libil2cppBase ∧
      (state.stored method).isGotGetAndSet = state.isGotGetAndSet ∧
      (state.stored method).hooks = state.hooks := by
  obtain ⟨-, -, getBase, getFlag⟩ := storeGet_other method state
  obtain ⟨-, -, setBase, setFlag⟩ := storeSet_other method (storeGet method state)
  refine ⟨setBase.trans getBase, setFlag.trans getFlag, ?_⟩
  rw [State.stored, hooks_storeSet, hooks_storeGet]

/-- The state after the discovery of the stored pointers. -/
def State.discovered (state : State) : State :=
  { state.rebased with
    hooks := state.hooks ++ textHooks state.rebased
    isGotGetAndSet := true }

theorem discover_of_known
    {state : State}
    (knownGet : state.addressGet.value ≠ 0) (knownSet : state.addressSet.value ≠ 0)
    (undiscovered : state.isGotGetAndSet = false) :
    discover state = state.discovered := by
  rw [discover, if_pos ⟨knownGet, knownSet, undiscovered⟩, hookGetSet_eq]
  rfl

theorem discover_of_unknown
    {state : State}
    (unknown : ¬(state.addressGet.value ≠ 0 ∧ state.addressSet.value ≠ 0 ∧
      state.isGotGetAndSet = false)) :
    discover state = state :=
  if_neg unknown

/-- Handling an opening, or hooking at the start, keeps the invariant. -/
theorem SearchInvariant.hookText
    {environment : Environment} {state next : State}
    (holds : SearchInvariant state)
    (hooked : Install.hookText environment state = .ok next) :
    SearchInvariant next := by
  rcases hookText_eq_ok.mp hooked with
    ⟨noAddress, instruction, -, rfl⟩ | ⟨-, rfl⟩
  · have latched : state.isGotGetAndSet = false -> Latched state := by
      intro flag
      by_cases before : state.Intercepts .newFuncGetMethods
      · exact holds.latched before flag
      · -- nothing has been reported yet
        obtain ⟨noGet, noSet⟩ := holds.unreported before
        exact ⟨by rw [noGet]; exact noAddress.1, by rw [noSet]; exact noAddress.2⟩
    exact
      { unreported := fun notHooked => absurd
          ⟨_, List.mem_append_right _ (List.mem_singleton_self _), rfl⟩ notHooked
        latched := fun _ flag => ⟨(latched flag).get, (latched flag).set⟩
        incomplete := fun _ _ => Or.inl noAddress.1 }
  · have same := intercepts_textHooks_iff state
    exact
      { unreported := fun before => holds.unreported fun hooked => before (same.mpr hooked)
        latched := fun before flag =>
          ⟨(holds.latched (same.mp before) flag).get, (holds.latched (same.mp before) flag).set⟩
        incomplete := fun before flag => holds.incomplete (same.mp before) flag }

/-- A report outside the search, or outside the namespace, decides nothing; any
other one stores a pointer and discovers the pair it completes. -/
theorem newFuncGetMethods_during_search
    {state : State} {method : MethodInfo}
    (latched : Latched state)
    (undiscovered : state.isGotGetAndSet = false)
    (inUI : method.nameSpaze = unityEngineUI) :
    newFuncGetMethods state (some method) =
      if latestGet method state ≠ 0 ∧ latestSet method state ≠ 0 then
        (state.stored method).discovered
      else state.stored method := by
  obtain ⟨⟨getValue, setValue⟩, -⟩ := latched.stored method
  obtain ⟨-, sameFlag, -⟩ := stored_base_flag method state
  have discovers : newFuncGetMethods state (some method) =
      discover (state.stored method) := if_pos inUI
  rw [discovers]
  split
  case isTrue known =>
    exact discover_of_known (by rw [getValue]; exact known.1) (by rw [setValue]; exact known.2)
      (sameFlag.trans undiscovered)
  case isFalse unknown =>
    apply discover_of_unknown
    rw [getValue, setValue]
    exact fun both => unknown ⟨both.1, both.2.1⟩

/-- What is intercepted is still intercepted after the discovery. -/
theorem intercepts_discovered_iff (state : State) :
    state.discovered.Intercepts .newFuncGetMethods ↔
      state.Intercepts .newFuncGetMethods :=
  intercepts_textHooks_iff state.rebased

/-- A report keeps the invariant. -/
theorem SearchInvariant.newFuncGetMethods
    {state : State}
    (holds : SearchInvariant state)
    (hooked : state.Intercepts .newFuncGetMethods)
    (method : MethodInfo)
    (inUI : method.nameSpaze = unityEngineUI) :
    SearchInvariant (Install.newFuncGetMethods state (some method)) := by
  obtain ⟨-, storedHooked⟩ := hooked.stored method
  obtain ⟨-, sameFlag, -⟩ := stored_base_flag method state
  by_cases undiscovered : state.isGotGetAndSet = false
  · have latched := holds.latched hooked undiscovered
    obtain ⟨⟨getValue, setValue⟩, storedLatched⟩ := latched.stored method
    rw [newFuncGetMethods_during_search latched undiscovered inUI]
    split
    case isTrue =>
      exact
        { unreported := fun notHooked =>
            absurd ((intercepts_discovered_iff _).mpr storedHooked) notHooked
          latched := fun _ flag => (by cases flag)
          incomplete := fun _ flag => (by cases flag) }
    case isFalse unknown =>
      exact
        { unreported := fun notHooked => absurd storedHooked notHooked
          latched := fun _ _ => storedLatched
          incomplete := by
            intro _ _
            rw [getValue, setValue]
            by_contra both
            rw [not_or] at both
            exact unknown both }
  · have stays : Install.newFuncGetMethods state (some method) = state.stored method :=
      (if_pos inUI).trans (discover_of_unknown fun known =>
        undiscovered (sameFlag.symm.trans known.2.2))
    rw [stays]
    exact
      { unreported := fun notHooked => absurd storedHooked notHooked
        latched := fun _ flag => absurd (sameFlag.symm.trans flag) undiscovered
        incomplete := fun _ flag => absurd (sameFlag.symm.trans flag) undiscovered }

/-- Every step keeps the invariant. -/
theorem SearchInvariant.step
    {state next : State} {event : Event}
    (holds : SearchInvariant state)
    (stepped : Install.step state event = .ok next) : SearchInvariant next := by
  rcases step_eq_ok stepped with
    rfl | ⟨environment, arguments, first, second, -, -, -, handled⟩ |
      ⟨method, -, hooked, inUI, rfl⟩
  · exact holds
  · have opened : SearchInvariant (state.opened environment first) :=
      ⟨holds.unreported,
        fun hooked flag => ⟨(holds.latched hooked flag).get, (holds.latched hooked flag).set⟩,
        holds.incomplete⟩
    exact opened.hookText handled
  · have reported := holds.newFuncGetMethods hooked method inUI
    rw [Install.newFuncGetMethods, if_pos inUI] at reported
    exact reported

/-- The start establishes the invariant. -/
theorem searchInvariant_jniOnLoad
    {environment : Environment} {firstLine : Option (UInt32 × UInt32)} {start : State}
    (loaded : jniOnLoad environment firstLine = .ok start) : SearchInvariant start := by
  have quiet : ∀ state : State, ¬state.Intercepts .newFuncGetMethods ->
      state.reportedGet = [] ∧ state.reportedSet = [] -> SearchInvariant state :=
    fun state notHooked nothing =>
      ⟨fun _ => nothing, fun hooked => absurd hooked notHooked,
        fun hooked => absurd hooked notHooked⟩
  rcases jniOnLoad_eq_ok loaded with rfl | ⟨rfl, -⟩ | ⟨hooked, -⟩
  · refine quiet _ ?_ ⟨rfl, rfl⟩
    rintro ⟨call, made, -⟩
    cases made
  · refine quiet _ ?_ ⟨rfl, rfl⟩
    rintro ⟨call, made, isMethods⟩
    rw [List.mem_singleton.mp made] at isMethods
    cases isMethods
  · refine SearchInvariant.hookText (quiet _ ?_ ⟨rfl, rfl⟩) hooked
    rintro ⟨call, made, -⟩
    cases made

/-! ## The step that ends the search -/

/-- Handling an opening does not touch the flag. -/
theorem flag_hookText
    {environment : Environment} {state next : State}
    (hooked : hookText environment state = .ok next) :
    next.isGotGetAndSet = state.isGotGetAndSet := by
  rcases hookText_eq_ok.mp hooked with ⟨-, instruction, -, rfl⟩ | ⟨-, rfl⟩ <;> rfl

/-- The flag is set exactly by the report that completes a pair. -/
theorem step_during_search
    {state next : State} {event : Event}
    (holds : SearchInvariant state)
    (undiscovered : state.isGotGetAndSet = false)
    (stepped : step state event = .ok next) :
    next.isGotGetAndSet = false ∧ completedPair state event = none ∨
      ∃ method, event = .getMethods (some method) ∧ CompletesWith state method ∧
        next = (state.stored method).discovered := by
  match event, stepped with
  | .dlopen environment arguments first second, stepped =>
      left
      refine ⟨?_, rfl⟩
      rcases step_eq_ok stepped with
        rfl | ⟨other, asked, one, two, -, -, -, handled⟩ | ⟨method, isReport, -⟩
      · exact undiscovered
      · exact (flag_hookText handled).trans undiscovered
      · cases isReport
  | .getMethods none, stepped =>
      left
      refine ⟨?_, rfl⟩
      rcases step_eq_ok stepped with
        rfl | ⟨other, asked, one, two, isOpening, -⟩ | ⟨method, isReport, -⟩
      · exact undiscovered
      · cases isOpening
      · cases isReport
  | .getMethods (some method), stepped =>
      rw [step] at stepped
      by_cases completes : CompletesWith state method
      · have parts := completes
        obtain ⟨hooked, -, inUI, known⟩ := parts
        rw [if_pos hooked, newFuncGetMethods_during_search
          (holds.latched hooked undiscovered) undiscovered inUI, if_pos known] at stepped
        cases stepped
        exact Or.inr ⟨method, rfl, completes, rfl⟩
      · left
        refine ⟨?_, if_neg completes⟩
        obtain ⟨-, sameFlag, -⟩ := stored_base_flag method state
        split at stepped
        case isTrue hooked =>
          cases stepped
          by_cases inUI : method.nameSpaze = unityEngineUI
          · rw [newFuncGetMethods_during_search (holds.latched hooked undiscovered)
              undiscovered inUI, if_neg fun known =>
                completes ⟨hooked, undiscovered, inUI, known⟩]
            exact sameFlag.trans undiscovered
          · rw [newFuncGetMethods, if_neg inUI]
            exact undiscovered
        case isFalse =>
          cases stepped
          exact undiscovered

/-- The discovered addresses are those of the completed pair, relative to the
base, and the pair consists of the last pointers reported. -/
theorem discovered_pair
    {state : State} {method : MethodInfo}
    (holds : SearchInvariant state)
    (completes : CompletesWith state method) :
    let next := (state.stored method).discovered
    next.libil2cppBase + next.addressGet.value = latestGet method state ∧
      next.libil2cppBase + next.addressSet.value = latestSet method state ∧
      next.reportedGet.head? = some (latestGet method state) ∧
      next.reportedSet.head? = some (latestSet method state) := by
  obtain ⟨hooked, undiscovered, -, knownGet, knownSet⟩ := completes
  obtain ⟨⟨getValue, setValue⟩, latched⟩ :=
    (holds.latched hooked undiscovered).stored method
  have back (base pointer : UInt32) : base + (pointer - base) = pointer := by
    rw [UInt32.add_comm, UInt32.sub_add_cancel]
  have last (reported : List UInt32) (pointer : UInt32) (known : pointer ≠ 0)
      (latest : pointer = reported.headD 0) : reported.head? = some pointer := by
    cases reported with
    | nil => exact absurd latest known
    | cons first rest => exact congrArg some latest.symm
  refine ⟨?_, ?_, last _ _ knownGet ?_, last _ _ knownSet ?_⟩
  · exact (back _ _).trans getValue
  · exact (back _ _).trans setValue
  · exact getValue.symm.trans latched.get
  · exact setValue.symm.trans latched.set

/-! ## One class or two -/

/-- A class of `UnityEngine.UI`: the pointers of the accessors it has. -/
structure UIClass where
  getText : Option UInt32
  setText : Option UInt32
  deriving DecidableEq

/-- Some class has both accessors at these pointers. -/
def OfOneClass (classes : List UIClass) (get set : UInt32) : Prop :=
  ∃ owner, owner ∈ classes ∧ owner.getText = some get ∧ owner.setText = some set

instance (classes : List UIClass) (get set : UInt32) :
    Decidable (OfOneClass classes get set) :=
  inferInstanceAs (Decidable (∃ owner, owner ∈ classes ∧ _))

/-- When the event makes `new_func_get_methods` call `hook_get_set`, the two
addresses satisfy the relation. -/
def TriggersWith (related : State -> UInt32 -> UInt32 -> Prop) (state : State)
    (event : Event) : Prop :=
  ∀ next, step state event = .ok next ->
    state.isGotGetAndSet = false -> next.isGotGetAndSet = true ->
      related next (next.libil2cppBase + next.addressGet.value)
        (next.libil2cppBase + next.addressSet.value)

/-- They are the last pointers reported for the two accessors. -/
def LastReported (state : State) (get set : UInt32) : Prop :=
  state.reportedGet.head? = some get ∧ state.reportedSet.head? = some set

/-- The report completes a pair whose pointers satisfy the relation. -/
def CompletesRelated (related : UInt32 -> UInt32 -> Prop) (state : State)
    (event : Event) : Prop :=
  ∀ pair, completedPair state event = some pair -> related pair.1 pair.2

theorem triggersWith_of_completed
    {related : State -> UInt32 -> UInt32 -> Prop} {state : State} {event : Event}
    (holds : SearchInvariant state)
    (completed : ∀ method, event = .getMethods (some method) ->
      CompletesWith state method ->
        related (state.stored method).discovered (latestGet method state)
          (latestSet method state)) :
    TriggersWith related state event := by
  intro next stepped undiscovered flag
  rcases step_during_search holds undiscovered stepped with
    ⟨unset, -⟩ | ⟨method, isReport, completes, rfl⟩
  · rw [unset] at flag
    cases flag
  · obtain ⟨get, set, -, -⟩ := discovered_pair holds completes
    rw [get, set]
    exact completed method isReport completes

/-- The pair that triggers the installation is the pair the report completes. -/
theorem triggersWith_iff
    {related : UInt32 -> UInt32 -> Prop} {state : State} {event : Event}
    (holds : SearchInvariant state) :
    TriggersWith (fun _ => related) state event ↔ CompletesRelated related state event := by
  constructor
  · intro triggers pair completed
    obtain ⟨method, rfl, completes, rfl⟩ := completedPair_eq_some.mp completed
    obtain ⟨get, set, -, -⟩ := discovered_pair holds completes
    have stepped : step state (.getMethods (some method)) =
        .ok (state.stored method).discovered := by
      rw [step, if_pos completes.1, newFuncGetMethods_during_search
        (holds.latched completes.1 completes.2.1) completes.2.1 completes.2.2.1,
        if_pos completes.2.2.2]
    have found := triggers _ stepped completes.2.1 rfl
    rw [get, set] at found
    exact found
  · intro completed
    refine triggersWith_of_completed holds ?_
    rintro method rfl completes
    exact completed _ (completedPair_eq_some.mpr ⟨method, rfl, completes, rfl⟩)

/-- In every run the installed pair consists of the last `get_text` and the
last `set_text` reported, and it is of one class exactly when these two are of
one class at the report that completes them. -/
theorem discovered_pair_lastReported
    (environment : Environment) (firstLine : Option (UInt32 × UInt32))
    (start : State) (events : List Event)
    (loaded : jniOnLoad environment firstLine = .ok start) :
    AllowedRun step (TriggersWith LastReported) start events ∧
      ∀ classes, AllowedRun step (TriggersWith fun _ => OfOneClass classes) start events ↔
        AllowedRun step (CompletesRelated (OfOneClass classes)) start events := by
  have initially := searchInvariant_jniOnLoad loaded
  have preserved : ∀ state event next, SearchInvariant state ->
      step state event = .ok next -> SearchInvariant next :=
    fun state event next holds stepped => holds.step stepped
  constructor
  · refine (allowedRun_congr preserved ?_ initially events).mpr
      (allowedRun_true start events)
    intro state event holds
    refine iff_true_intro (triggersWith_of_completed holds ?_)
    rintro method - completes
    exact (discovered_pair holds completes).2.2
  · intro classes
    exact allowedRun_congr preserved (fun state event holds => triggersWith_iff holds)
      initially events

theorem discovered_pair_lastReported_discovery :
    AllowedRun step (TriggersWith LastReported) waiting discovery ∧
      ∀ classes, AllowedRun step (TriggersWith fun _ => OfOneClass classes) waiting discovery ↔
        AllowedRun step (CompletesRelated (OfOneClass classes)) waiting discovery :=
  discovered_pair_lastReported beforeLoading (some (0, 0)) waiting discovery rfl

/-- A read-only label with a `get_text` only, and an input field whose
`set_text` comes before its `get_text`. -/
def labelAndField : List UIClass :=
  [⟨some 0xA0100000, none⟩, ⟨some 0xA0300000, some 0xA0200000⟩]

/-- The `get_text` of the first class is installed with the `set_text` of the
second one. -/
theorem pair_of_two_classes :
    jniOnLoad beforeLoading (some (0, 0)) = .ok waiting ∧
      ∃ state, run step waiting [opening 0xA0000000, reporting getText 0xA0100000] =
          .ok state ∧
        state.isGotGetAndSet = false ∧
        ∃ next, step state (reporting setText 0xA0200000) = .ok next ∧
          next.isGotGetAndSet = true ∧
          ¬OfOneClass labelAndField (next.libil2cppBase + next.addressGet.value)
            (next.libil2cppBase + next.addressSet.value) := by
  decide +kernel

/-! ## The flag -/

/-- Subtracting the base leaves zero only at the base. -/
theorem sub_ne_zero_of_ne {pointer base : UInt32} (other : pointer ≠ base) :
    pointer - base ≠ 0 := by
  intro zero
  apply other
  rw [← UInt32.sub_add_cancel pointer base, zero, UInt32.zero_add]

/-- The discovery hooks both pointers when a base is known and neither pointer
is the base. -/
theorem textHooks_rebased
    {state : State}
    (base : state.libil2cppBase ≠ 0)
    (get : state.addressGet.value ≠ state.libil2cppBase)
    (set : state.addressSet.value ≠ state.libil2cppBase) :
    textHooks state.rebased =
      [⟨state.addressGet.value, .newFuncGet, state.libil2cppBase⟩,
        ⟨state.addressSet.value, .newFuncSet, state.libil2cppBase⟩] := by
  have back (pointer : UInt32) :
      state.libil2cppBase + (pointer - state.libil2cppBase) = pointer := by
    rw [UInt32.add_comm, UInt32.sub_add_cancel]
  simp only [textHooks, State.rebased, Address.rebase, if_neg base,
    if_pos (sub_ne_zero_of_ne get), if_pos (sub_ne_zero_of_ne set), back]
  rfl

/-- Of an accessor at the base itself, or without a base, no hook is made. -/
theorem hooks_of_mem_textHooks_rebased
    {state : State} {call : HookCall} (made : call ∈ textHooks state.rebased) :
    state.libil2cppBase ≠ 0 ∧
      (call.replacement = .newFuncGet -> state.addressGet.value ≠ state.libil2cppBase) ∧
      (call.replacement = .newFuncSet -> state.addressSet.value ≠ state.libil2cppBase) := by
  have zero (pointer base : UInt32) (nonzero : pointer - base ≠ 0) : pointer ≠ base := by
    rintro rfl
    exact nonzero (UInt32.sub_self pointer)
  obtain ⟨base, -, ⟨isGet, nonzero, -⟩ | ⟨isSet, nonzero, -⟩⟩ := of_mem_textHooks made
  · refine ⟨base, fun _ => zero _ _ nonzero, fun isSet => ?_⟩
    rw [isGet] at isSet
    cases isSet
  · refine ⟨base, fun isGet => ?_, fun _ => zero _ _ nonzero⟩
    rw [isSet] at isGet
    cases isGet

/-- `DobbyHook` has been called for the accessor at the pointer. -/
def InstalledAt (hooks : List HookCall) (replacement : Replacement) (pointer : UInt32) :
    Prop :=
  ∃ call, call ∈ hooks ∧ call.replacement = replacement ∧ call.target = pointer

instance (hooks : List HookCall) (replacement : Replacement) (pointer : UInt32) :
    Decidable (InstalledAt hooks replacement pointer) :=
  inferInstanceAs (Decidable (∃ call, call ∈ hooks ∧ _))

/-- A set flag means that a reported `get_text` and a reported `set_text` have
been hooked. -/
def FlagTruthful (state : State) : Prop :=
  state.isGotGetAndSet = true ->
    (∃ get, get ∈ state.reportedGet ∧ InstalledAt state.hooks .newFuncGet get) ∧
      ∃ set, set ∈ state.reportedSet ∧ InstalledAt state.hooks .newFuncSet set

instance (state : State) : Decidable (FlagTruthful state) :=
  inferInstanceAs (Decidable (_ -> (∃ get, get ∈ state.reportedGet ∧ _) ∧
    ∃ set, set ∈ state.reportedSet ∧ _))

/-- The step sets the flag only after hooking the pair it has found, and never
while the base is unknown. -/
def SetsFlagTruthfully (state : State) (event : Event) : Prop :=
  ∀ next, step state event = .ok next -> state.isGotGetAndSet = false ->
    (state.libil2cppBase = 0 -> next.isGotGetAndSet = false) ∧
    (next.isGotGetAndSet = true ->
      ∃ calls, next.hooks = state.hooks ++ calls ∧
        InstalledAt calls .newFuncGet (next.libil2cppBase + next.addressGet.value) ∧
        InstalledAt calls .newFuncSet (next.libil2cppBase + next.addressSet.value))

/-- The report that completes a pair comes when the base is known, and neither
pointer is the base. -/
def InstallableReport (state : State) (event : Event) : Prop :=
  ∀ pair, completedPair state event = some pair ->
    state.libil2cppBase ≠ 0 ∧ pair.1 ≠ state.libil2cppBase ∧ pair.2 ≠ state.libil2cppBase

instance (state : State) (event : Event) : Decidable (InstallableReport state event) :=
  Option.decidableForallMem _

/-- The hooks after the discovery. -/
theorem hooks_discovered (state : State) (method : MethodInfo) :
    (state.stored method).discovered.hooks =
      state.hooks ++ textHooks (state.stored method).rebased := by
  obtain ⟨-, -, sameHooks⟩ := stored_base_flag method state
  rw [State.discovered, sameHooks]

/-- A discovery that can be installed hooks the pair it has found. -/
theorem installedAt_discovered
    {state : State} {method : MethodInfo}
    (holds : SearchInvariant state)
    (completes : CompletesWith state method)
    (base : state.libil2cppBase ≠ 0)
    (get : latestGet method state ≠ state.libil2cppBase)
    (set : latestSet method state ≠ state.libil2cppBase) :
    InstalledAt (textHooks (state.stored method).rebased) .newFuncGet
        (latestGet method state) ∧
      InstalledAt (textHooks (state.stored method).rebased) .newFuncSet
        (latestSet method state) := by
  obtain ⟨⟨getValue, setValue⟩, -⟩ :=
    (holds.latched completes.1 completes.2.1).stored method
  obtain ⟨sameBase, -, -⟩ := stored_base_flag method state
  rw [textHooks_rebased (by rw [sameBase]; exact base)
    (by rw [getValue, sameBase]; exact get) (by rw [setValue, sameBase]; exact set)]
  exact ⟨⟨_, List.mem_cons_self, rfl, getValue⟩,
    ⟨_, List.mem_cons_of_mem _ List.mem_cons_self, rfl, setValue⟩⟩

/-- Setting the flag tells the truth exactly at installable reports. -/
theorem setsFlagTruthfully_iff
    {state : State} {event : Event} (holds : SearchInvariant state) :
    SetsFlagTruthfully state event ↔ InstallableReport state event := by
  constructor
  · intro truthful pair completed
    obtain ⟨method, rfl, completes, rfl⟩ := completedPair_eq_some.mp completed
    have stepped : step state (.getMethods (some method)) =
        .ok (state.stored method).discovered := by
      rw [step, if_pos completes.1, newFuncGetMethods_during_search
        (holds.latched completes.1 completes.2.1) completes.2.1 completes.2.2.1,
        if_pos completes.2.2.2]
    obtain ⟨⟨getValue, setValue⟩, -⟩ :=
      (holds.latched completes.1 completes.2.1).stored method
    obtain ⟨sameBase, -, -⟩ := stored_base_flag method state
    obtain ⟨calls, hooks, ⟨getCall, getMade, isGet, -⟩, setCall, setMade, isSet, -⟩ :=
      (truthful _ stepped completes.2.1).2 rfl
    rw [hooks_discovered, List.append_cancel_left_eq] at hooks
    rw [← hooks] at getMade setMade
    obtain ⟨base, getOther, -⟩ := hooks_of_mem_textHooks_rebased getMade
    obtain ⟨-, -, setOther⟩ := hooks_of_mem_textHooks_rebased setMade
    rw [← getValue, ← setValue, ← sameBase]
    exact ⟨base, getOther isGet, setOther isSet⟩
  · intro installable next stepped undiscovered
    rcases step_during_search holds undiscovered stepped with
      ⟨unset, -⟩ | ⟨method, rfl, completes, rfl⟩
    · refine ⟨fun _ => unset, fun flag => ?_⟩
      rw [unset] at flag
      cases flag
    · obtain ⟨base, get, set⟩ :=
        installable _ (completedPair_eq_some.mpr ⟨method, rfl, completes, rfl⟩)
      obtain ⟨foundGet, foundSet, -, -⟩ := discovered_pair holds completes
      refine ⟨fun noBase => absurd noBase base,
        fun _ => ⟨_, hooks_discovered state method, ?_⟩⟩
      rw [foundGet, foundSet]
      exact installedAt_discovered holds completes base get set

theorem reported_stored (method : MethodInfo) (state : State) :
    (∀ pointer, pointer ∈ state.reportedGet ->
        pointer ∈ (state.stored method).reportedGet) ∧
      ∀ pointer, pointer ∈ state.reportedSet ->
        pointer ∈ (state.stored method).reportedSet := by
  obtain ⟨-, sameSet, -, -⟩ := storeGet_other method state
  obtain ⟨-, sameGet, -, -⟩ := storeSet_other method (storeGet method state)
  rw [State.stored, sameGet]
  constructor
  · intro pointer before
    unfold storeGet
    split
    · exact List.mem_cons_of_mem _ before
    · exact before
  · intro pointer before
    rw [← sameSet] at before
    unfold storeSet
    split
    · exact List.mem_cons_of_mem _ before
    · exact before

/-- Hooks and reports are only added. -/
theorem step_adds
    {state next : State} {event : Event} (stepped : step state event = .ok next) :
    (∃ calls, next.hooks = state.hooks ++ calls) ∧
      (∀ pointer, pointer ∈ state.reportedGet -> pointer ∈ next.reportedGet) ∧
      ∀ pointer, pointer ∈ state.reportedSet -> pointer ∈ next.reportedSet := by
  rcases step_eq_ok stepped with
    rfl | ⟨environment, arguments, first, second, -, -, -, handled⟩ |
      ⟨method, -, -, -, rfl⟩
  · exact ⟨⟨[], (List.append_nil _).symm⟩, fun _ => id, fun _ => id⟩
  · rcases hookText_eq_ok.mp handled with ⟨-, instruction, -, rfl⟩ | ⟨-, rfl⟩
    · exact ⟨⟨_, rfl⟩, fun _ => id, fun _ => id⟩
    · exact ⟨⟨_, rfl⟩, fun _ => id, fun _ => id⟩
  · obtain ⟨-, -, sameHooks⟩ := stored_base_flag method state
    have reported := reported_stored method state
    rcases discover_cases (state.stored method) with same | ⟨-, -, -, changed⟩
    · rw [State.stored] at same
      rw [same]
      exact ⟨⟨[], by rw [List.append_nil]; exact sameHooks⟩, reported⟩
    · rw [State.stored] at changed
      rw [changed]
      exact ⟨⟨_, congrArg (· ++ _) sameHooks⟩, reported⟩

theorem InstalledAt.append
    {hooks : List HookCall} {replacement : Replacement} {pointer : UInt32}
    (installed : InstalledAt hooks replacement pointer) (more : List HookCall) :
    InstalledAt (hooks ++ more) replacement pointer := by
  obtain ⟨call, made, parts⟩ := installed
  exact ⟨call, List.mem_append_left _ made, parts⟩

/-- A truthful step keeps the flag truthful. -/
theorem FlagTruthful.step
    {state next : State} {event : Event}
    (truthful : FlagTruthful state)
    (holds : SearchInvariant state)
    (installable : InstallableReport state event)
    (stepped : Install.step state event = .ok next) : FlagTruthful next := by
  obtain ⟨⟨added, hooks⟩, getStays, setStays⟩ := step_adds stepped
  intro flag
  cases before : state.isGotGetAndSet with
  | true =>
      obtain ⟨⟨get, getReported, getInstalled⟩, set, setReported, setInstalled⟩ :=
        truthful before
      rw [hooks]
      exact ⟨⟨get, getStays get getReported, getInstalled.append added⟩,
        set, setStays set setReported, setInstalled.append added⟩
  | false =>
      rcases step_during_search holds before stepped with
        ⟨unset, -⟩ | ⟨method, rfl, completes, rfl⟩
      · rw [unset] at flag
        cases flag
      · obtain ⟨base, get, set⟩ :=
          installable _ (completedPair_eq_some.mpr ⟨method, rfl, completes, rfl⟩)
        obtain ⟨-, -, lastGet, lastSet⟩ := discovered_pair holds completes
        obtain ⟨⟨getCall, getMade, isGet⟩, setCall, setMade, isSet⟩ :=
          installedAt_discovered holds completes base get set
        rw [hooks_discovered]
        exact ⟨⟨_, List.mem_of_mem_head? lastGet,
            getCall, List.mem_append_right _ getMade, isGet⟩,
          _, List.mem_of_mem_head? lastSet,
            setCall, List.mem_append_right _ setMade, isSet⟩

/-- The flag is not set at the start. -/
theorem flag_jniOnLoad
    {environment : Environment} {firstLine : Option (UInt32 × UInt32)} {start : State}
    (loaded : jniOnLoad environment firstLine = .ok start) :
    start.isGotGetAndSet = false := by
  rcases jniOnLoad_eq_ok loaded with rfl | ⟨rfl, -⟩ | ⟨hooked, -⟩
  · rfl
  · rfl
  · exact flag_hookText hooked

/-- The steps of a run set the flag truthfully exactly when each completed pair
can be installed, and then the flag is truthful in every state reached. -/
theorem flagTruthful_of_installableReports
    (environment : Environment) (firstLine : Option (UInt32 × UInt32))
    (start : State) (events : List Event)
    (loaded : jniOnLoad environment firstLine = .ok start) :
    (AllowedRun step SetsFlagTruthfully start events ↔
        AllowedRun step InstallableReport start events) ∧
      (AllowedRun step InstallableReport start events ->
        ∀ final, run step start events = .ok final -> FlagTruthful final) := by
  have initially := searchInvariant_jniOnLoad loaded
  have truthful : FlagTruthful start := by
    intro flag
    rw [flag_jniOnLoad loaded] at flag
    cases flag
  constructor
  · have preserved : ∀ state event next, SearchInvariant state ->
        step state event = .ok next -> SearchInvariant next :=
      fun state event next holds stepped => holds.step stepped
    exact allowedRun_congr preserved
      (fun state event holds => setsFlagTruthfully_iff holds) initially events
  · intro installable final ran
    let invariant (state : State) : Prop := SearchInvariant state ∧ FlagTruthful state
    have preserved : ∀ state event next, invariant state -> InstallableReport state event ->
        step state event = .ok next -> invariant next :=
      fun state event next holds here stepped =>
        ⟨holds.1.step stepped, holds.2.step holds.1 here stepped⟩
    exact (run_invariant preserved ⟨initially, truthful⟩ installable ran).2

theorem flagTruthful_of_installableReports_furtherClass :
    (AllowedRun step SetsFlagTruthfully waiting furtherClass ↔
        AllowedRun step InstallableReport waiting furtherClass) ∧
      AllowedRun step InstallableReport waiting furtherClass ∧
      ∃ final, run step waiting furtherClass = .ok final ∧ FlagTruthful final := by
  have installable : AllowedRun step InstallableReport waiting furtherClass := by
    decide +kernel
  obtain ⟨final, ran, -⟩ :
      ∃ final, run step waiting furtherClass = .ok final ∧
        final.isGotGetAndSet = true := by
    decide +kernel
  have result := flagTruthful_of_installableReports beforeLoading (some (0, 0)) waiting
    furtherClass rfl
  exact ⟨result.1, installable, final, ran, result.2 installable final ran⟩

/-- The library is opened but not found in the module list: it is mapped from
inside the package. -/
def openingUnlisted : Event :=
  .dlopen { loadedAt 0xA0000000 with moduleBase := 0 } ⟨some libraryName, 2, 1⟩ 1 1

/-- Without a base the discovery hooks nothing and sets the flag. -/
theorem flag_without_hooks :
    jniOnLoad beforeLoading (some (0, 0)) = .ok waiting ∧
      ∃ final,
        run step waiting [openingUnlisted, reporting getText 0xA0100000,
          reporting setText 0xA0200000] = .ok final ∧
        final.isGotGetAndSet = true ∧ final.libil2cppBase = 0 ∧
        ¬final.Intercepts .newFuncGet ∧ ¬final.Intercepts .newFuncSet ∧
        ¬FlagTruthful final := by
  decide +kernel

end Install
end UnityLocalization
