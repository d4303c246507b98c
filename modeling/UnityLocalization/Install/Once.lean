import Mathlib.Data.List.Nodup
import UnityLocalization.Install.Addresses

/-!
# Hooking a target once

`OnceInvariant` holds in the runs in which no opening of the library meets a
raw pointer or a base at which the accessors are hooked already.
-/

namespace UnityLocalization
namespace Install

open CMemory Transition

/-! ## The condition on openings -/

/-- What `DobbyHook` compares: the target and the replacement. -/
def HookCall.key (call : HookCall) : UInt32 × Replacement :=
  (call.target, call.replacement)

/-- No target has been hooked twice with the same replacement. -/
def HookedOnce (state : State) : Prop :=
  (state.hooks.map HookCall.key).Nodup

instance (state : State) : Decidable (HookedOnce state) :=
  inferInstanceAs (Decidable (List.Nodup _))

instance (address : Address) : Decidable address.Raw :=
  match given : address.origin with
  | .file => isFalse (by simp [Address.Raw, given])
  | .reported pointer => isTrue ⟨pointer, given⟩
  | .rebased _ _ => isFalse (by simp [Address.Raw, given])

/-- The accessor is unknown, or its address is no raw pointer and the accessor
has not been hooked at this base. -/
def Address.Fresh
    (address : Address) (replacement : Replacement) (hooks : List HookCall)
    (base : UInt32) : Prop :=
  address.value = 0 ∨
    ¬address.Raw ∧
      ∀ call, call ∈ hooks -> call.replacement = replacement -> call.base ≠ base

instance
    (address : Address) (replacement : Replacement) (hooks : List HookCall)
    (base : UInt32) : Decidable (address.Fresh replacement hooks base) :=
  inferInstanceAs (Decidable (_ ∨ _ ∧ ∀ call, call ∈ hooks -> _))

/-- The branch at `il2cpp_class_get_methods` leads to a place that has not been
hooked. -/
def FreshMethods
    (environment : Environment) (handle : UInt32) (hooks : List HookCall) : Prop :=
  ∀ instruction, instruction ∈ environment.word (environment.dlsym handle) ->
    ∀ call, call ∈ hooks -> call.replacement = .newFuncGetMethods ->
      call.target ≠ branchTarget (environment.dlsym handle) instruction

instance
    (environment : Environment) (handle : UInt32) (hooks : List HookCall) :
    Decidable (FreshMethods environment handle hooks) :=
  Option.decidableForallMem _

/-- An opening without addresses finds `il2cpp_class_get_methods` branching to
a new place; an opening with addresses finds no base, or one at which both
accessors are fresh. -/
def FreshOpening (state : State) : Event -> Prop
  | .dlopen environment arguments first _ =>
      state.Intercepts .newFuncDlopen -> Opens arguments ->
        (state.NoAddress -> FreshMethods environment first state.hooks) ∧
        (¬state.NoAddress -> environment.moduleBase ≠ 0 ->
          state.addressGet.Fresh .newFuncGet state.hooks environment.moduleBase ∧
            state.addressSet.Fresh .newFuncSet state.hooks environment.moduleBase)
  | .getMethods _ => True

instance (state : State) (event : Event) : Decidable (FreshOpening state event) :=
  match event with
  | .dlopen _ _ _ _ =>
      inferInstanceAs (Decidable (_ -> _ -> (_ -> _) ∧ (_ -> _ -> _ ∧ _)))
  | .getMethods _ => isTrue trivial

/-! ## The invariant -/

/-- The accessor is hooked nowhere. -/
def Unhooked (replacement : Replacement) (hooks : List HookCall) : Prop :=
  ∀ call, call ∈ hooks -> call.replacement ≠ replacement

/-- Unless its address is a raw pointer, the accessor is hooked only at a base
plus this address. -/
def Address.Linked
    (address : Address) (replacement : Replacement) (hooks : List HookCall) : Prop :=
  ¬address.Raw -> ∀ call, call ∈ hooks -> call.replacement = replacement ->
    call.target = call.base + address.value

/-- What holds in the runs with fresh openings. -/
structure OnceInvariant (state : State) : Prop where
  once : HookedOnce state
  get : state.addressGet.Linked .newFuncGet state.hooks
  set : state.addressSet.Linked .newFuncSet state.hooks
  undiscovered : state.Intercepts .newFuncGetMethods -> state.isGotGetAndSet = false ->
    Unhooked .newFuncGet state.hooks ∧ Unhooked .newFuncSet state.hooks
  quiet : ¬state.Intercepts .newFuncGetMethods -> state.NoAddress ->
    Unhooked .newFuncGet state.hooks ∧ Unhooked .newFuncSet state.hooks

/-- New hooks keep every target hooked once when none of them repeats another
or an earlier one. -/
theorem nodup_key_append
    {hooks more : List HookCall}
    (once : (hooks.map HookCall.key).Nodup) (moreOnce : (more.map HookCall.key).Nodup)
    (new : ∀ call, call ∈ more -> ∀ earlier, earlier ∈ hooks ->
      earlier.replacement = call.replacement -> earlier.target ≠ call.target) :
    ((hooks ++ more).map HookCall.key).Nodup := by
  rw [List.map_append, List.nodup_append]
  refine ⟨once, moreOnce, ?_⟩
  intro key before other after same
  obtain ⟨earlier, earlierMade, rfl⟩ := List.mem_map.mp before
  obtain ⟨call, made, rfl⟩ := List.mem_map.mp after
  exact new call made earlier earlierMade (congrArg Prod.snd same)
    (congrArg Prod.fst same)

theorem nodup_key_textHooks (state : State) :
    ((textHooks state).map HookCall.key).Nodup := by
  unfold textHooks
  split
  case isTrue => exact List.nodup_nil
  case isFalse => split <;> split <;> simp [HookCall.key]

/-- A linked address that is fresh at a base leads to a new target there. -/
theorem Address.Linked.target_ne
    {address : Address} {replacement : Replacement} {hooks : List HookCall}
    {base : UInt32} (linked : address.Linked replacement hooks)
    (fresh : address.Fresh replacement hooks base) (nonzero : address.value ≠ 0)
    {call : HookCall} (made : call ∈ hooks) (isAccessor : call.replacement = replacement) :
    call.target ≠ base + address.value := by
  obtain ⟨relative, otherBase⟩ := fresh.resolve_left nonzero
  intro same
  rw [linked relative call made isAccessor] at same
  exact otherBase call made isAccessor ((UInt32.add_left_inj _).mp same)

theorem Address.Linked.append
    {address : Address} {replacement : Replacement} {hooks more : List HookCall}
    (linked : address.Linked replacement hooks)
    (new : ∀ call, call ∈ more -> call.replacement = replacement ->
      call.target = call.base + address.value) :
    address.Linked replacement (hooks ++ more) := by
  intro relative call made isAccessor
  rcases List.mem_append.mp made with earlier | later
  · exact linked relative call earlier isAccessor
  · exact new call later isAccessor

theorem unhooked_singleton
    {replacement : Replacement} {call : HookCall} (other : call.replacement ≠ replacement) :
    Unhooked replacement [call] := by
  intro only made
  rw [List.mem_singleton.mp made]
  exact other

theorem Unhooked.append
    {replacement : Replacement} {hooks more : List HookCall}
    (before : Unhooked replacement hooks) (after : Unhooked replacement more) :
    Unhooked replacement (hooks ++ more) := by
  intro call made
  rcases List.mem_append.mp made with earlier | later
  · exact before call earlier
  · exact after call later

/-- An accessor that is hooked nowhere is linked to every address. -/
theorem Unhooked.linked
    {replacement : Replacement} {hooks : List HookCall}
    (unhooked : Unhooked replacement hooks) (address : Address) :
    address.Linked replacement hooks :=
  fun _ call made isAccessor => absurd isAccessor (unhooked call made)

/-- The accessors are hooked at the base plus their addresses. -/
theorem linked_textHooks (state : State) :
    (∀ call, call ∈ textHooks state -> call.replacement = .newFuncGet ->
        call.target = call.base + state.addressGet.value) ∧
      ∀ call, call ∈ textHooks state -> call.replacement = .newFuncSet ->
        call.target = call.base + state.addressSet.value := by
  constructor
  · intro call made isGet
    obtain ⟨-, base, ⟨-, -, target⟩ | ⟨isSet, -, -⟩⟩ := of_mem_textHooks made
    · rw [target, base]
    · rw [isGet] at isSet
      cases isSet
  · intro call made isSet
    obtain ⟨-, base, ⟨isGet, -, -⟩ | ⟨-, -, target⟩⟩ := of_mem_textHooks made
    · rw [isSet] at isGet
      cases isGet
    · rw [target, base]

/-- `hookGetSet` repeats no hook when both accessors are linked and fresh. -/
theorem HookedOnce.textHooks
    {state : State} (once : HookedOnce state)
    (linkedGet : state.addressGet.Linked .newFuncGet state.hooks)
    (linkedSet : state.addressSet.Linked .newFuncSet state.hooks)
    (fresh : state.libil2cppBase ≠ 0 ->
      state.addressGet.Fresh .newFuncGet state.hooks state.libil2cppBase ∧
        state.addressSet.Fresh .newFuncSet state.hooks state.libil2cppBase) :
    HookedOnce { state with hooks := state.hooks ++ Install.textHooks state } := by
  refine nodup_key_append once (nodup_key_textHooks state) ?_
  intro call made earlier earlierMade same
  obtain ⟨base, -, ⟨isGet, nonzero, target⟩ | ⟨isSet, nonzero, target⟩⟩ :=
    of_mem_textHooks made
  · rw [target]
    exact linkedGet.target_ne (fresh base).1 nonzero earlierMade (same.trans isGet)
  · rw [target]
    exact linkedSet.target_ne (fresh base).2 nonzero earlierMade (same.trans isSet)

/-! ## What keeps the invariant -/

/-- Hooking `il2cpp_class_get_methods` at a new place keeps the invariant. -/
theorem OnceInvariant.hookMethods
    {state : State} (holds : OnceInvariant state) (noAddress : state.NoAddress)
    {target : UInt32}
    (new : ∀ call, call ∈ state.hooks -> call.replacement = .newFuncGetMethods ->
      call.target ≠ target) :
    OnceInvariant (state.dobbyHook target .newFuncGetMethods) := by
  let call : HookCall := ⟨target, .newFuncGetMethods, state.libil2cppBase⟩
  have noGet : Unhooked .newFuncGet [call] := unhooked_singleton nofun
  have noSet : Unhooked .newFuncSet [call] := unhooked_singleton nofun
  have before : state.isGotGetAndSet = false ->
      Unhooked .newFuncGet state.hooks ∧ Unhooked .newFuncSet state.hooks := by
    intro flag
    by_cases hooked : state.Intercepts .newFuncGetMethods
    · exact holds.undiscovered hooked flag
    · exact holds.quiet hooked noAddress
  exact
    { once := by
        refine nodup_key_append holds.once (List.nodup_singleton call.key) ?_
        intro only made earlier earlierMade same
        rw [List.mem_singleton.mp made] at same ⊢
        exact new earlier earlierMade same
      get := holds.get.append fun only made isGet => absurd isGet (noGet only made)
      set := holds.set.append fun only made isSet => absurd isSet (noSet only made)
      undiscovered := fun _ flag =>
        ⟨(before flag).1.append noGet, (before flag).2.append noSet⟩
      quiet := fun notHooked => absurd
        ⟨call, List.mem_append_right _ (List.mem_singleton_self call), rfl⟩ notHooked }

/-- Hooking the accessors at a base where both are fresh keeps the invariant. -/
theorem OnceInvariant.hookAccessors
    {firstGet firstSet : UInt32} {state : State} (holds : OnceInvariant state)
    (origins : OriginInvariant firstGet firstSet state) (known : ¬state.NoAddress)
    (fresh : state.libil2cppBase ≠ 0 ->
      state.addressGet.Fresh .newFuncGet state.hooks state.libil2cppBase ∧
        state.addressSet.Fresh .newFuncSet state.hooks state.libil2cppBase) :
    OnceInvariant { state with hooks := state.hooks ++ textHooks state } where
  once := holds.once.textHooks holds.get holds.set fresh
  get := holds.get.append (linked_textHooks state).1
  set := holds.set.append (linked_textHooks state).2
  undiscovered := by
    intro hooked flag
    have before := (intercepts_textHooks_iff state).mp hooked
    -- a known address is a raw pointer then, so no base was found
    have noHooks : textHooks state = [] := by
      refine List.eq_nil_iff_forall_not_mem.mpr fun call made => ?_
      obtain ⟨rfl, rfl⟩ := origins.searched before
      obtain ⟨base, -, ⟨-, nonzero, -⟩ | ⟨-, nonzero, -⟩⟩ := of_mem_textHooks made
      · exact ((fresh base).1.resolve_left nonzero).1
          (origins.get.raw_of_ne_zero (origins.undiscovered flag).1 nonzero)
      · exact ((fresh base).2.resolve_left nonzero).1
          (origins.set.raw_of_ne_zero (origins.undiscovered flag).2 nonzero)
    rw [noHooks, List.append_nil]
    exact holds.undiscovered before flag
  quiet := fun _ noAddress => absurd noAddress known

/-- Storing the pointer of a `get_text` keeps the invariant. -/
theorem OnceInvariant.storeGet
    {state : State} (holds : OnceInvariant state)
    (hooked : state.Intercepts .newFuncGetMethods) (method : MethodInfo) :
    OnceInvariant (Install.storeGet method state) := by
  unfold Install.storeGet
  split
  case isTrue =>
    exact
      { once := holds.once
        get := fun relative => absurd ⟨_, rfl⟩ relative
        set := holds.set
        undiscovered := holds.undiscovered
        quiet := fun notHooked => absurd hooked notHooked }
  case isFalse => exact holds

/-- Storing the pointer of a `set_text` keeps the invariant. -/
theorem OnceInvariant.storeSet
    {state : State} (holds : OnceInvariant state)
    (hooked : state.Intercepts .newFuncGetMethods) (method : MethodInfo) :
    OnceInvariant (Install.storeSet method state) := by
  unfold Install.storeSet
  split
  case isTrue =>
    exact
      { once := holds.once
        get := holds.get
        set := fun relative => absurd ⟨_, rfl⟩ relative
        undiscovered := holds.undiscovered
        quiet := fun notHooked => absurd hooked notHooked }
  case isFalse => exact holds

/-- The discovery hooks the accessors for the first time. -/
theorem OnceInvariant.discover
    {state : State} (holds : OnceInvariant state)
    (hooked : state.Intercepts .newFuncGetMethods) :
    OnceInvariant (Install.discover state) := by
  rcases discover_cases state with same | ⟨-, -, undiscovered, changed⟩
  · rw [same]
    exact holds
  · obtain ⟨noGet, noSet⟩ := holds.undiscovered hooked undiscovered
    have still : State.Intercepts
        { state.rebased with hooks := state.hooks ++ textHooks state.rebased }
        .newFuncGetMethods :=
      (intercepts_textHooks_iff state.rebased).mpr hooked
    rw [changed]
    exact
      { once := by
          refine nodup_key_append holds.once (nodup_key_textHooks _) ?_
          intro call made earlier earlierMade same
          obtain ⟨-, -, ⟨isGet, -⟩ | ⟨isSet, -⟩⟩ := of_mem_textHooks made
          · exact absurd (same.trans isGet) (noGet earlier earlierMade)
          · exact absurd (same.trans isSet) (noSet earlier earlierMade)
        get := (noGet.linked _).append (linked_textHooks state.rebased).1
        set := (noSet.linked _).append (linked_textHooks state.rebased).2
        undiscovered := fun _ flag => by cases flag
        quiet := fun notHooked => absurd still notHooked }

/-- Handling an opening keeps the invariant when what it hooks is fresh. -/
theorem OnceInvariant.hookText
    {firstGet firstSet : UInt32} {environment : Environment} {state next : State}
    (holds : OnceInvariant state) (origins : OriginInvariant firstGet firstSet state)
    (freshMethods : state.NoAddress ->
      FreshMethods environment state.libil2cppHandle state.hooks)
    (fresh : ¬state.NoAddress -> state.libil2cppBase ≠ 0 ->
      state.addressGet.Fresh .newFuncGet state.hooks state.libil2cppBase ∧
        state.addressSet.Fresh .newFuncSet state.hooks state.libil2cppBase)
    (hooked : Install.hookText environment state = .ok next) : OnceInvariant next := by
  rcases hookText_eq_ok.mp hooked with ⟨noAddress, instruction, read, rfl⟩ | ⟨known, rfl⟩
  · exact holds.hookMethods noAddress (freshMethods noAddress instruction read)
  · exact holds.hookAccessors origins known (fresh known)

/-- Every step with a fresh opening keeps the invariant. -/
theorem OnceInvariant.step
    {firstGet firstSet : UInt32} {state next : State} {event : Event}
    (holds : OnceInvariant state) (origins : OriginInvariant firstGet firstSet state)
    (fresh : FreshOpening state event)
    (stepped : Install.step state event = .ok next) : OnceInvariant next := by
  rcases step_eq_ok stepped with
    rfl | ⟨environment, arguments, first, second, rfl, hooked, opens, handled⟩ |
      ⟨method, -, hooked, -, rfl⟩
  · exact holds
  · have openedOnce : OnceInvariant (state.opened environment first) :=
      ⟨holds.once, holds.get, holds.set, holds.undiscovered, holds.quiet⟩
    obtain ⟨freshMethods, freshAccessors⟩ := fresh hooked opens
    exact openedOnce.hookText (origins.opened environment first) freshMethods
      freshAccessors handled
  · obtain ⟨hookedGet, hookedSet⟩ := hooked.stored method
    exact ((holds.storeGet hooked method).storeSet hookedGet method).discover hookedSet

/-! ## Whole runs -/

/-- Nothing is hooked before the start. -/
theorem onceInvariant_of_hooks_nil {state : State} (noHooks : state.hooks = []) :
    OnceInvariant state := by
  have unhooked : ∀ replacement, Unhooked replacement state.hooks := by
    intro replacement call made
    rw [noHooks] at made
    cases made
  exact
    { once := by rw [HookedOnce, noHooks]; exact List.nodup_nil
      get := (unhooked _).linked _
      set := (unhooked _).linked _
      undiscovered := fun _ _ => ⟨unhooked _, unhooked _⟩
      quiet := fun _ _ => ⟨unhooked _, unhooked _⟩ }

/-- The start establishes the invariant. -/
theorem onceInvariant_jniOnLoad
    {environment : Environment} {firstLine : Option (UInt32 × UInt32)} {start : State}
    (loaded : jniOnLoad environment firstLine = .ok start) : OnceInvariant start := by
  rcases jniOnLoad_eq_ok loaded with rfl | ⟨rfl, -⟩ | ⟨hooked, -⟩
  · exact onceInvariant_of_hooks_nil rfl
  · let call : HookCall := ⟨environment.dlopen, .newFuncDlopen, environment.moduleBase⟩
    have noGet : Unhooked .newFuncGet [call] := unhooked_singleton nofun
    have noSet : Unhooked .newFuncSet [call] := unhooked_singleton nofun
    exact ⟨List.nodup_singleton call.key, noGet.linked _, noSet.linked _,
      fun _ _ => ⟨noGet, noSet⟩, fun _ _ => ⟨noGet, noSet⟩⟩
  · refine (onceInvariant_of_hooks_nil rfl).hookText
      ((originInvariant_initial _ _).opened environment 0) ?_ ?_ hooked
    · intro _ instruction _ call made
      cases made
    · exact fun _ _ => ⟨Or.inr ⟨nofun, nofun⟩, Or.inr ⟨nofun, nofun⟩⟩

/-- In every run in which all openings of the library are fresh, no target is
hooked twice with the same replacement. -/
theorem hookedOnce_of_freshOpenings
    (environment : Environment) (firstLine : Option (UInt32 × UInt32))
    (start final : State) (events : List Event)
    (loaded : jniOnLoad environment firstLine = .ok start)
    (fresh : AllowedRun step FreshOpening start events)
    (ran : run step start events = .ok final) : HookedOnce final := by
  let invariant (state : State) : Prop :=
    OriginInvariant (firstAddresses firstLine).1 (firstAddresses firstLine).2 state ∧
      OnceInvariant state
  have preserved : ∀ state event next, invariant state -> FreshOpening state event ->
      step state event = .ok next -> invariant next :=
    fun state event next holds here stepped =>
      ⟨holds.1.step stepped, holds.2.step holds.1 here stepped⟩
  exact (run_invariant preserved
    ⟨originInvariant_jniOnLoad loaded, onceInvariant_jniOnLoad loaded⟩ fresh ran).2.once

/-- After the discovery the library is opened at another base. -/
def discoveredThenMoved : List Event :=
  discovery ++ [opening 0xB0000000]

theorem hookedOnce_of_freshOpenings_discoveredThenMoved :
    ∃ final, run step waiting discoveredThenMoved = .ok final ∧ HookedOnce final := by
  have fresh : AllowedRun step FreshOpening waiting discoveredThenMoved := by
    decide +kernel
  obtain ⟨final, ran, -⟩ :
      ∃ final, run step waiting discoveredThenMoved = .ok final ∧
        final.isGotGetAndSet = true := by
    decide +kernel
  exact ⟨final, ran, hookedOnce_of_freshOpenings beforeLoading (some (0, 0)) waiting final
    discoveredThenMoved rfl fresh ran⟩

/-- The loader is hooked, and the first line holds two offsets. -/
def waitingWithOffsets : State := hookDlopen beforeLoading (initial 0x10 0x20)

/-- Opening the library a second time hooks both accessors a second time. -/
theorem second_opening_hooks_again :
    jniOnLoad beforeLoading (some (0x10, 0x20)) = .ok waitingWithOffsets ∧
      ∃ final,
        run step waitingWithOffsets [opening 0xA0000000, opening 0xA0000000] = .ok final ∧
        final.hooks.map HookCall.key =
          [(0xB6F00000, .newFuncDlopen), (0xA0000010, .newFuncGet),
            (0xA0000020, .newFuncSet), (0xA0000010, .newFuncGet),
            (0xA0000020, .newFuncSet)] ∧
        ¬HookedOnce final := by
  decide +kernel

end Install
end UnityLocalization
