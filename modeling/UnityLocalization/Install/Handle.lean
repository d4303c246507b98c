import UnityLocalization.Install.Addresses

/-!
# The handle of the search

`searchState` is the state in which a step enters `hook_get_methods`, and
`startSearchState` the one in which the start does.  The search is resolved when
`libil2cpp_handle` holds there what a successful opening of the library has
returned.
-/

namespace UnityLocalization
namespace Install

open CMemory Transition

/-! ## When `hook_get_methods` runs -/

/-- The state in which the start calls `hook_get_methods`. -/
def startSearchState (environment : Environment) :
    Option (UInt32 × UInt32) -> Option State
  | none => none
  | some (firstGet, firstSet) =>
      if environment.moduleBase ≠ 0 ∧ firstGet = 0 ∧ firstSet = 0 then
        some { initial firstGet firstSet with libil2cppBase := environment.moduleBase }
      else none

/-- The state in which a step calls `hook_get_methods`. -/
def searchState (state : State) : Event -> Option State
  | .dlopen environment arguments first _ =>
      if state.Intercepts .newFuncDlopen ∧ Opens arguments ∧ state.NoAddress then
        some (state.opened environment first)
      else none
  | .getMethods _ => none

/-- Where the start searches it is a run of `hook_get_methods`. -/
theorem jniOnLoad_of_search
    {environment : Environment} {firstLine : Option (UInt32 × UInt32)} {inner : State}
    (searches : startSearchState environment firstLine = some inner) :
    jniOnLoad environment firstLine = hookGetMethods environment inner := by
  cases firstLine with
  | none => cases searches
  | some addresses =>
      rw [startSearchState] at searches
      split at searches
      case isTrue parts =>
        obtain ⟨base, noGet, noSet⟩ := parts
        cases searches
        simp only [jniOnLoad]
        rw [if_neg base, hookText, if_pos ⟨noGet, noSet⟩]
      case isFalse => cases searches

/-- Elsewhere the start hooks no `il2cpp_class_get_methods`. -/
theorem jniOnLoad_of_no_search
    {environment : Environment} {firstLine : Option (UInt32 × UInt32)} {start : State}
    (quiet : startSearchState environment firstLine = none)
    (loaded : jniOnLoad environment firstLine = .ok start) :
    ∀ call, call ∈ start.hooks -> call.replacement ≠ .newFuncGetMethods := by
  intro call made
  cases firstLine with
  | none =>
      cases loaded
      cases made
  | some addresses =>
      simp only [jniOnLoad] at loaded
      split at loaded
      case isTrue =>
        cases loaded
        rw [List.mem_singleton.mp made]
        exact (by decide : Replacement.newFuncDlopen ≠ .newFuncGetMethods)
      case isFalse base =>
        rcases hookText_eq_ok.mp loaded with ⟨noAddress, -⟩ | ⟨-, rfl⟩
        · rw [startSearchState, if_pos ⟨base, noAddress.1, noAddress.2⟩] at quiet
          cases quiet
        · rcases (of_mem_textHooks made).2.2 with ⟨isGet, -⟩ | ⟨isSet, -⟩
          · rw [isGet]
            decide
          · rw [isSet]
            decide

/-- Where a step searches it is a run of `hook_get_methods`. -/
theorem step_of_search
    {state inner : State} {environment : Environment} {arguments : DlopenArguments}
    {first second : UInt32}
    (searches : searchState state (.dlopen environment arguments first second) =
      some inner) :
    step state (.dlopen environment arguments first second) =
      hookGetMethods environment inner := by
  rw [searchState] at searches
  split at searches
  case isTrue parts =>
    obtain ⟨hooked, ⟨filename, place, name, searched, caller⟩, noAddress⟩ := parts
    cases searches
    have handled : hookText environment (state.opened environment first) =
        hookGetMethods environment (state.opened environment first) := if_pos noAddress
    rw [step, if_pos hooked, newFuncDlopen, name, deref_some, ok_bind, searched, ok_bind,
      if_pos ⟨rfl, caller⟩]
    change (hookText environment (state.opened environment first) >>= _) >>= _ = _
    rw [handled]
    cases hookGetMethods environment (state.opened environment first) <;> rfl
  case isFalse => cases searches

/-- Elsewhere a step hooks no `il2cpp_class_get_methods`. -/
theorem step_of_no_search
    {state next : State} {event : Event}
    (quiet : searchState state event = none)
    (stepped : step state event = .ok next) :
    ∃ calls, next.hooks = state.hooks ++ calls ∧
      ∀ call, call ∈ calls -> call.replacement ≠ .newFuncGetMethods := by
  have accessors : ∀ inner : State, ∀ call, call ∈ textHooks inner ->
      call.replacement ≠ .newFuncGetMethods := by
    intro inner call made
    rcases (of_mem_textHooks made).2.2 with ⟨isGet, -⟩ | ⟨isSet, -⟩
    · rw [isGet]
      decide
    · rw [isSet]
      decide
  rcases step_eq_ok stepped with
    rfl | ⟨environment, arguments, first, second, rfl, hooked, opens, handled⟩ |
      ⟨method, rfl, -, -, rfl⟩
  · exact ⟨[], (List.append_nil _).symm, by simp⟩
  · rcases hookText_eq_ok.mp handled with ⟨noAddress, -⟩ | ⟨-, rfl⟩
    · rw [searchState, if_pos ⟨hooked, opens, noAddress⟩] at quiet
      cases quiet
    · exact ⟨_, rfl, accessors _⟩
  · have sameHooks : (storeSet method (storeGet method state)).hooks = state.hooks := by
      rw [hooks_storeSet, hooks_storeGet]
    rcases discover_cases (storeSet method (storeGet method state)) with
      same | ⟨-, -, -, changed⟩
    · rw [same]
      exact ⟨[], by rw [List.append_nil]; exact sameHooks, by simp⟩
    · rw [changed]
      exact ⟨_, congrArg (· ++ _) sameHooks, accessors _⟩

/-! ## Resolved searches -/

/-- What the openings of the library return in an event, where `isLibrary` tells
which file names denote it. -/
def openedHandles (isLibrary : DlopenArguments -> Bool) : Event -> List UInt32
  | .dlopen _ arguments first _ => if isLibrary arguments then [first] else []
  | .getMethods _ => []

/-- `libil2cpp_handle` is not null and has been returned by one of the openings. -/
def State.Resolved (handles : List UInt32) (inner : State) : Prop :=
  inner.libil2cppHandle ≠ 0 ∧ inner.libil2cppHandle ∈ handles

instance (handles : List UInt32) (inner : State) : Decidable (inner.Resolved handles) :=
  inferInstanceAs (Decidable (_ ∧ _))

/-- Whenever the event runs `hook_get_methods` the handle is resolved. -/
def ResolvedSearch (isLibrary : DlopenArguments -> Bool) (state : State) (event : Event) :
    Prop :=
  ∀ inner, searchState state event = some inner ->
    inner.Resolved (openedHandles isLibrary event)

/-- An intercepted call that passes the test for the library while no address is
known opens the library and succeeds. -/
def SuccessfulOpening (isLibrary : DlopenArguments -> Bool) (state : State) : Event -> Prop
  | .dlopen _ arguments first _ =>
      state.Intercepts .newFuncDlopen -> Opens arguments -> state.NoAddress ->
        first ≠ 0 ∧ isLibrary arguments = true
  | .getMethods _ => True

theorem resolvedSearch_iff
    (isLibrary : DlopenArguments -> Bool) (state : State) (event : Event) :
    ResolvedSearch isLibrary state event ↔ SuccessfulOpening isLibrary state event := by
  cases event with
  | dlopen environment arguments first second =>
      constructor
      · intro resolved hooked opens noAddress
        obtain ⟨nonzero, returned⟩ := resolved _ (if_pos ⟨hooked, opens, noAddress⟩)
        refine ⟨nonzero, ?_⟩
        rw [openedHandles] at returned
        split at returned
        case isTrue library => exact library
        case isFalse => cases returned
      · intro succeeds inner searches
        rw [searchState] at searches
        split at searches
        case isTrue parts =>
          obtain ⟨hooked, opens, noAddress⟩ := parts
          cases searches
          obtain ⟨nonzero, library⟩ := succeeds hooked opens noAddress
          refine ⟨nonzero, ?_⟩
          rw [openedHandles, if_pos library]
          exact List.mem_singleton_self first
        case isFalse => cases searches
  | getMethods ret =>
      exact ⟨fun _ => trivial, fun _ inner searches => by cases searches⟩

/-- Every search of a run, the one of the start included, is resolved. -/
def SearchesResolved
    (isLibrary : DlopenArguments -> Bool)
    (environment : Environment) (firstLine : Option (UInt32 × UInt32))
    (events : List Event) : Prop :=
  (∀ inner, startSearchState environment firstLine = some inner -> inner.Resolved []) ∧
    ∀ start, jniOnLoad environment firstLine = .ok start ->
      AllowedRun step (ResolvedSearch isLibrary) start events

/-- A run searches with a resolved handle exactly when the library is not yet
mapped at a start without addresses, and every call that has to search opens
the library and succeeds. -/
theorem searchesResolved_iff
    (isLibrary : DlopenArguments -> Bool)
    (environment : Environment) (firstLine : Option (UInt32 × UInt32))
    (events : List Event) :
    SearchesResolved isLibrary environment firstLine events ↔
      (firstLine = some (0, 0) -> environment.moduleBase = 0) ∧
        ∀ start, jniOnLoad environment firstLine = .ok start ->
          AllowedRun step (SuccessfulOpening isLibrary) start events := by
  have sameConditions : ResolvedSearch isLibrary = SuccessfulOpening isLibrary := by
    funext state event
    exact propext (resolvedSearch_iff isLibrary state event)
  rw [SearchesResolved, sameConditions]
  refine and_congr_left fun _ => ?_
  constructor
  · rintro resolved rfl
    by_contra base
    exact (resolved _ (if_pos ⟨base, rfl, rfl⟩)).1 rfl
  · intro unmapped inner searches
    cases firstLine with
    | none => cases searches
    | some addresses =>
        rw [startSearchState] at searches
        split at searches
        case isTrue parts =>
          obtain ⟨base, noGet, noSet⟩ := parts
          have both : addresses = (0, 0) := Prod.ext noGet noSet
          exact absurd (unmapped (congrArg some both)) base
        case isFalse => cases searches

/-- The library is mapped already, and nothing is readable at the null pointer
that looking up a name in the null handle gives. -/
def alreadyMapped : Environment where
  moduleBase := 0xA0000000
  dlsym handle := if handle = 0 then 0 else 0xA0001000
  word pointer := if pointer = 0 then none else some 0xEA000010
  dlopen := 0xB6F00000

/-- The start in a game that has mapped the library dereferences null, and so
does a failed opening. -/
theorem unresolved_searches :
    startSearchState alreadyMapped (some (0, 0)) =
        some { initial 0 0 with libil2cppBase := 0xA0000000 } ∧
      jniOnLoad alreadyMapped (some (0, 0)) = .error .nullDereference ∧
      ¬SearchesResolved (fun _ => true) alreadyMapped (some (0, 0)) [] ∧
      step waiting (.dlopen alreadyMapped ⟨some libraryName, 2, 1⟩ 0 0) =
        .error .nullDereference ∧
      ¬SearchesResolved (fun _ => true) beforeLoading (some (0, 0))
        [.dlopen alreadyMapped ⟨some libraryName, 2, 1⟩ 0 0] := by
  refine ⟨rfl, rfl, ?_, by decide +kernel, ?_⟩
  · rintro ⟨start, -⟩
    exact (start _ rfl).1 rfl
  · rintro ⟨-, run⟩
    have resolved := (run waiting rfl).1
    have searches : searchState waiting
        (.dlopen alreadyMapped ⟨some libraryName, 2, 1⟩ 0 0) =
          some (waiting.opened alreadyMapped 0) := by
      decide +kernel
    exact (resolved _ searches).1 rfl

end Install
end UnityLocalization
