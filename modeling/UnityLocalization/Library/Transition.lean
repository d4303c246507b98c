import Mathlib.Tactic.Common

/-!
# Runs of deterministic machines

A machine takes one event at a time and may fault.  A run is allowed when each
of its events is allowed in the state it meets; what allowed steps preserve
holds in every state an allowed run reaches.
-/

namespace Transition

variable {State Event Fault : Type*}

/-- Take the events one after the other; the run stops at a fault. -/
def run (step : State -> Event -> Except Fault State) :
    State -> List Event -> Except Fault State
  | state, [] => .ok state
  | state, event :: events =>
      match step state event with
      | .ok next => run step next events
      | .error fault => .error fault

/-- Every event of the run is allowed in the state it meets. -/
def AllowedRun
    (step : State -> Event -> Except Fault State)
    (allowed : State -> Event -> Prop) : State -> List Event -> Prop
  | _, [] => True
  | state, event :: events =>
      allowed state event ∧
        ∀ next, step state event = .ok next -> AllowedRun step allowed next events

variable {step : State -> Event -> Except Fault State}

@[simp] theorem run_nil (state : State) : run step state [] = .ok state := rfl

theorem run_cons_eq_ok
    {state final : State} {event : Event} {events : List Event} :
    run step state (event :: events) = .ok final ↔
      ∃ next, step state event = .ok next ∧ run step next events = .ok final := by
  rw [run]
  cases step state event with
  | ok next => simp
  | error fault => simp

theorem allowedRun_cons_of_ok
    {allowed : State -> Event -> Prop} {state next : State} {event : Event}
    {events : List Event} (stepped : step state event = .ok next) :
    AllowedRun step allowed state (event :: events) ↔
      allowed state event ∧ AllowedRun step allowed next events := by
  simp [AllowedRun, stepped]

theorem allowedRun_cons_of_error
    {allowed : State -> Event -> Prop} {state : State} {fault : Fault} {event : Event}
    {events : List Event} (stopped : step state event = .error fault) :
    AllowedRun step allowed state (event :: events) ↔ allowed state event := by
  simp [AllowedRun, stopped]

instance decidableAllowedRun
    {allowed : State -> Event -> Prop}
    [∀ state event, Decidable (allowed state event)] :
    ∀ state events, Decidable (AllowedRun step allowed state events)
  | _, [] => isTrue trivial
  | state, event :: events =>
      match result : step state event with
      | .ok next =>
          have : Decidable (AllowedRun step allowed next events) :=
            decidableAllowedRun next events
          decidable_of_iff _ (allowedRun_cons_of_ok result).symm
      | .error _ => decidable_of_iff _ (allowedRun_cons_of_error result).symm

instance decidableExistsOk
    {property : State -> Prop} [DecidablePred property] :
    ∀ result : Except Fault State,
      Decidable (∃ final, result = .ok final ∧ property final)
  | .ok final => decidable_of_iff (property final) (by simp)
  | .error _ => isFalse (by simp)

/-- What allowed steps preserve holds at the end of every allowed run. -/
theorem run_invariant
    {allowed : State -> Event -> Prop} {invariant : State -> Prop}
    (preserved : ∀ state event next, invariant state -> allowed state event ->
      step state event = .ok next -> invariant next)
    {start final : State} {events : List Event}
    (holds : invariant start)
    (allowedRun : AllowedRun step allowed start events)
    (ran : run step start events = .ok final) : invariant final := by
  induction events generalizing start with
  | nil =>
      cases ran
      exact holds
  | cons event events inductionHypothesis =>
      obtain ⟨next, stepped, rest⟩ := run_cons_eq_ok.mp ran
      obtain ⟨here, later⟩ := allowedRun
      exact inductionHypothesis (preserved start event next holds here stepped)
        (later next stepped) rest

/-- A run goes on where the first events have led. -/
theorem run_append
    {start middle : State} {events : List Event} (ran : run step start events = .ok middle)
    (more : List Event) : run step start (events ++ more) = run step middle more := by
  induction events generalizing start with
  | nil =>
      cases ran
      rfl
  | cons event events inductionHypothesis =>
      obtain ⟨next, stepped, rest⟩ := run_cons_eq_ok.mp ran
      rw [List.cons_append, run, stepped]
      exact inductionHypothesis rest

theorem run_append_eq_ok
    {start final : State} {events more : List Event} :
    run step start (events ++ more) = .ok final ↔
      ∃ middle, run step start events = .ok middle ∧ run step middle more = .ok final := by
  constructor
  · intro ran
    induction events generalizing start with
    | nil => exact ⟨start, rfl, ran⟩
    | cons event events inductionHypothesis =>
        obtain ⟨next, stepped, rest⟩ := run_cons_eq_ok.mp ran
        obtain ⟨middle, first, later⟩ := inductionHypothesis rest
        exact ⟨middle, run_cons_eq_ok.mpr ⟨next, stepped, first⟩, later⟩
  · rintro ⟨middle, first, later⟩
    rw [run_append first, later]

theorem AllowedRun.append
    {allowed : State -> Event -> Prop} {start middle : State} {events more : List Event}
    (first : AllowedRun step allowed start events) (ran : run step start events = .ok middle)
    (later : AllowedRun step allowed middle more) :
    AllowedRun step allowed start (events ++ more) := by
  induction events generalizing start with
  | nil =>
      cases ran
      exact later
  | cons event events inductionHypothesis =>
      obtain ⟨next, stepped, rest⟩ := run_cons_eq_ok.mp ran
      rw [List.cons_append, allowedRun_cons_of_ok stepped]
      exact ⟨first.1, inductionHypothesis (first.2 next stepped) rest⟩

/-- A weaker condition allows more runs. -/
theorem AllowedRun.mono
    {allowed other : State -> Event -> Prop} {start : State} {events : List Event}
    (holds : AllowedRun step allowed start events)
    (weaker : ∀ state event, allowed state event -> other state event) :
    AllowedRun step other start events := by
  induction events generalizing start with
  | nil => trivial
  | cons event events inductionHypothesis =>
      exact ⟨weaker start event holds.1, fun next stepped =>
        inductionHypothesis (holds.2 next stepped)⟩

/-- Two conditions that agree wherever an invariant holds allow the same runs. -/
theorem allowedRun_congr
    {allowed other : State -> Event -> Prop} {invariant : State -> Prop}
    (preserved : ∀ state event next, invariant state ->
      step state event = .ok next -> invariant next)
    (agree : ∀ state event, invariant state -> (allowed state event ↔ other state event))
    {start : State} (holds : invariant start) (events : List Event) :
    AllowedRun step allowed start events ↔ AllowedRun step other start events := by
  induction events generalizing start with
  | nil => exact Iff.rfl
  | cons event events inductionHypothesis =>
      refine and_congr (agree start event holds) (forall_congr' fun next => ?_)
      exact imp_congr_right fun stepped =>
        inductionHypothesis (preserved start event next holds stepped)

theorem allowedRun_true (state : State) (events : List Event) :
    AllowedRun step (fun _ _ => True) state events := by
  induction events generalizing state with
  | nil => trivial
  | cons event events inductionHypothesis =>
      exact ⟨trivial, fun next _ => inductionHypothesis next⟩

/-- What all steps preserve holds at the end of every run. -/
theorem run_preserves
    {invariant : State -> Prop}
    (preserved : ∀ state event next, invariant state ->
      step state event = .ok next -> invariant next)
    {start final : State} {events : List Event}
    (holds : invariant start)
    (ran : run step start events = .ok final) : invariant final :=
  run_invariant (fun state event next holds _ => preserved state event next holds)
    holds (allowedRun_true start events) ran

/-! ## Runs with answers -/

section

variable {Abstract Output : Type*}

/-- Take the events one after the other and collect the answers. -/
def trace (step : State -> Event -> Except Fault (State × Output)) :
    State -> List Event -> Except Fault (State × List Output)
  | state, [] => .ok (state, [])
  | state, event :: events => do
      let (next, output) ← step state event
      let (final, outputs) ← trace step next events
      return (final, output :: outputs)

/-- The same for a machine that does not fault. -/
def answers (step : Abstract -> Event -> Abstract × Output) :
    Abstract -> List Event -> Abstract × List Output
  | state, [] => (state, [])
  | state, event :: events =>
      let (next, output) := step state event
      let (final, outputs) := answers step next events
      (final, output :: outputs)

variable {step : State -> Event -> Except Fault (State × Output)}
  {invariant : State -> Prop} {event : Event} {events : List Event}
  {start final : State} {outputs : List Output}

theorem trace_cons_eq_ok :
    trace step start (event :: events) = .ok (final, outputs) ↔
      ∃ next output later, step start event = .ok (next, output) ∧
        trace step next events = .ok (final, later) ∧ outputs = output :: later := by
  rw [trace]
  cases stepped : step start event with
  | error fault => simp [bind, Except.bind]
  | ok result =>
      obtain ⟨next, output⟩ := result
      cases rest : trace step next events with
      | error fault =>
          simp only [bind, Except.bind, rest, reduceCtorEq, false_iff]
          rintro ⟨_, _, _, same, other, -⟩
          cases same
          rw [rest] at other
          cases other
      | ok result =>
          obtain ⟨last, later⟩ := result
          simp only [bind, Except.bind, rest, pure, Except.pure]
          constructor
          · intro same
            cases same
            exact ⟨next, output, later, rfl, rest, rfl⟩
          · rintro ⟨_, _, _, same, other, rfl⟩
            cases same
            rw [rest] at other
            cases other
            rfl

/-- A machine whose steps answer as those of an abstract one does so in every run. -/
theorem trace_refines
    {abstraction : State -> Abstract} {abstractStep : Abstract -> Event -> Abstract × Output}
    (refines : ∀ state event next output, invariant state ->
      step state event = .ok (next, output) ->
        invariant next ∧ (abstraction next, output) = abstractStep (abstraction state) event)
    (holds : invariant start) (ran : trace step start events = .ok (final, outputs)) :
    (abstraction final, outputs) = answers abstractStep (abstraction start) events := by
  induction events generalizing start outputs with
  | nil =>
      cases ran
      rfl
  | cons event events hypothesis =>
      obtain ⟨next, output, later, stepped, rest, rfl⟩ := trace_cons_eq_ok.mp ran
      obtain ⟨still, same⟩ := refines _ _ _ _ holds stepped
      have tail := hypothesis still rest
      rw [answers, ← same]
      simp only [← tail]

end

end Transition
