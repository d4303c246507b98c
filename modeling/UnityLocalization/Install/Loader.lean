import UnityLocalization.Install.Addresses

/-!
# The loader behind the hook

The loader is arbitrary: a state with `dlopen` and `dlclose`.  `unhooked` runs
a sequence of requests on it, and `hooked` runs the same sequence through
`new_func_dlopen`.  A completed hooked run is the unhooked run in which every
opening is made twice.
-/

namespace UnityLocalization
namespace Install

open CMemory

/-- The system loader.  An opening returns a handle. -/
structure Loader (LoaderState : Type) where
  dlopen : LoaderState -> DlopenArguments -> UInt32 × LoaderState
  dlclose : LoaderState -> UInt32 -> LoaderState

/-- What a program asks of the loader. -/
inductive Request
  | dlopen (arguments : DlopenArguments)
  | dlclose (handle : UInt32)
  deriving DecidableEq

/-- The calls that reach the loader, the handles returned to the program and
the state of the loader. -/
structure Trace (LoaderState : Type) where
  calls : List Request
  returned : List UInt32
  loader : LoaderState
  deriving DecidableEq

variable {LoaderState : Type}

/-- The loader after some openings. -/
def Loader.openAll
    (loader : Loader LoaderState) (start : LoaderState)
    (calls : List DlopenArguments) : LoaderState :=
  calls.foldl (fun state arguments => (loader.dlopen state arguments).2) start

/-- A program that calls the loader directly. -/
def unhooked
    (loader : Loader LoaderState) : LoaderState -> List Request -> Trace LoaderState
  | start, [] => ⟨[], [], start⟩
  | start, .dlopen arguments :: requests =>
      let (handle, next) := loader.dlopen start arguments
      let rest := unhooked loader next requests
      ⟨.dlopen arguments :: rest.calls, handle :: rest.returned, rest.loader⟩
  | start, .dlclose handle :: requests =>
      let rest := unhooked loader (loader.dlclose start handle) requests
      ⟨.dlclose handle :: rest.calls, rest.returned, rest.loader⟩

/-- The same program after `hook_dlopen`, with what each call finds around it.
The two calls of the original loader return what it answers one after the
other. -/
def hooked
    (loader : Loader LoaderState) :
    State -> LoaderState -> List (Environment × Request) -> Checked (Trace LoaderState)
  | _, start, [] => .ok ⟨[], [], start⟩
  | state, start, (environment, .dlopen arguments) :: requests => do
      let (first, between) := loader.dlopen start arguments
      let (second, _) := loader.dlopen between arguments
      let result ← newFuncDlopen environment state arguments first second
      let rest ← hooked loader result.state (loader.openAll start result.calls) requests
      return ⟨result.calls.map .dlopen ++ rest.calls, result.returned :: rest.returned,
        rest.loader⟩
  | state, start, (_, .dlclose handle) :: requests => do
      let rest ← hooked loader state (loader.dlclose start handle) requests
      return ⟨.dlclose handle :: rest.calls, rest.returned, rest.loader⟩

/-- The program does not notice the hook: the loader gets the same calls in the
same order, ends in the same state, and the same handles are returned. -/
def Transparent
    (loader : Loader LoaderState) (state : State) (start : LoaderState)
    (requests : List (Environment × Request)) : Prop :=
  hooked loader state start requests =
    .ok (unhooked loader start (requests.map Prod.snd))

/-! ## The simulation -/

/-- Every opening is asked for twice. -/
def doubled : List Request -> List Request
  | [] => []
  | .dlopen arguments :: requests =>
      .dlopen arguments :: .dlopen arguments :: doubled requests
  | .dlclose handle :: requests => .dlclose handle :: doubled requests

/-- The calls that reach the loader directly are those asked for. -/
theorem calls_unhooked
    (loader : Loader LoaderState) (start : LoaderState) (requests : List Request) :
    (unhooked loader start requests).calls = requests := by
  induction requests generalizing start with
  | nil => rfl
  | cons request requests inductionHypothesis =>
      cases request with
      | dlopen arguments =>
          exact congrArg (.dlopen arguments :: ·) (inductionHypothesis _)
      | dlclose handle =>
          exact congrArg (.dlclose handle :: ·) (inductionHypothesis _)

/-- What an opening through the hook does to a completed run. -/
theorem hooked_dlopen_eq_ok
    {loader : Loader LoaderState} {state : State} {start : LoaderState}
    {environment : Environment} {arguments : DlopenArguments}
    {requests : List (Environment × Request)} {trace : Trace LoaderState}
    (completed : hooked loader state start ((environment, .dlopen arguments) :: requests) =
      .ok trace) :
    ∃ next rest,
      hooked loader next (loader.openAll start [arguments, arguments]) requests = .ok rest ∧
      trace = ⟨.dlopen arguments :: .dlopen arguments :: rest.calls,
        (loader.dlopen (loader.dlopen start arguments).2 arguments).1 :: rest.returned,
        rest.loader⟩ := by
  obtain ⟨result, returned, completed⟩ := bind_eq_ok.mp completed
  obtain ⟨rest, later, equal⟩ := bind_eq_ok.mp completed
  obtain ⟨calls, handle, -⟩ := newFuncDlopen_eq_ok returned
  cases equal
  rw [calls] at later ⊢
  rw [handle]
  exact ⟨result.state, rest, later, rfl⟩

/-- A completed hooked run makes the calls of the doubled program and leaves the
loader in its state. -/
theorem hooked_simulates_doubled
    {loader : Loader LoaderState} {state : State} {start : LoaderState}
    {requests : List (Environment × Request)} {trace : Trace LoaderState}
    (completed : hooked loader state start requests = .ok trace) :
    trace.calls = doubled (requests.map Prod.snd) ∧
      trace.loader = (unhooked loader start (doubled (requests.map Prod.snd))).loader := by
  induction requests generalizing state start trace with
  | nil =>
      cases completed
      exact ⟨rfl, rfl⟩
  | cons request requests inductionHypothesis =>
      obtain ⟨environment, asked⟩ := request
      cases asked with
      | dlopen arguments =>
          obtain ⟨next, rest, later, rfl⟩ := hooked_dlopen_eq_ok completed
          obtain ⟨calls, final⟩ := inductionHypothesis later
          exact ⟨congrArg (.dlopen arguments :: .dlopen arguments :: ·) calls, final⟩
      | dlclose handle =>
          obtain ⟨rest, later, equal⟩ := bind_eq_ok.mp completed
          cases equal
          obtain ⟨calls, final⟩ := inductionHypothesis later
          exact ⟨congrArg (.dlclose handle :: ·) calls, final⟩

/-- The request opens a library. -/
def Request.isOpen : Request -> Bool
  | .dlopen _ => true
  | .dlclose _ => false

/-- Doubling adds one call for every opening. -/
theorem length_doubled (requests : List Request) :
    (doubled requests).length = requests.length + requests.countP Request.isOpen := by
  induction requests with
  | nil => rfl
  | cons request requests inductionHypothesis =>
      cases request with
      | dlopen arguments =>
          have counted : (Request.dlopen arguments :: requests).countP Request.isOpen =
              requests.countP Request.isOpen + 1 :=
            List.countP_cons_of_pos rfl
          rw [counted]
          simp only [doubled, List.length_cons, inductionHypothesis]
          omega
      | dlclose handle =>
          have counted : (Request.dlclose handle :: requests).countP Request.isOpen =
              requests.countP Request.isOpen :=
            List.countP_cons_of_neg nofun
          rw [counted]
          simp only [doubled, List.length_cons, inductionHypothesis]
          omega

/-- Closing goes past the hook. -/
theorem hooked_of_no_open
    (loader : Loader LoaderState) (state : State) (start : LoaderState)
    (requests : List (Environment × Request))
    (noOpen : ∀ request, request ∈ requests.map Prod.snd -> request.isOpen = false) :
    hooked loader state start requests =
      .ok (unhooked loader start (requests.map Prod.snd)) := by
  induction requests generalizing start with
  | nil => rfl
  | cons request requests inductionHypothesis =>
      obtain ⟨environment, asked⟩ := request
      rw [List.map_cons, List.forall_mem_cons] at noOpen
      cases asked with
      | dlopen arguments => cases noOpen.1
      | dlclose handle =>
          rw [hooked, inductionHypothesis (loader.dlclose start handle) noOpen.2, ok_bind]
          rfl

/-! ## No intercepted call is transparent -/

/-- No intercepted call makes exactly one call of the original loader, and a
sequence of requests runs as without the hook exactly when it opens nothing. -/
theorem transparent_iff
    (loader : Loader LoaderState) (state : State) (start : LoaderState)
    (requests : List (Environment × Request)) :
    (∀ environment arguments first second result,
        newFuncDlopen environment state arguments first second = .ok result ->
          result.calls ≠ [arguments]) ∧
      (Transparent loader state start requests ↔
        ∀ request, request ∈ requests.map Prod.snd -> request.isOpen = false) := by
  refine ⟨?_, ?_, hooked_of_no_open loader state start requests⟩
  · intro environment arguments first second result returned once
    rw [(newFuncDlopen_eq_ok returned).1] at once
    cases once
  · intro transparent
    have calls := (hooked_simulates_doubled transparent).1
    have lengths := congrArg List.length calls
    rw [calls_unhooked, length_doubled] at lengths
    have nothing : (requests.map Prod.snd).countP Request.isOpen = 0 := by
      omega
    intro request member
    exact Bool.eq_false_iff.mpr (List.countP_eq_zero.mp nothing request member)

/-- The one library is open a number of times; its handle is 1. -/
def counter : Loader Nat where
  dlopen references _ := (1, references + 1)
  dlclose references _ := references - 1

/-- The loader call for a library that is not the one searched for. -/
def otherLibrary : DlopenArguments := ⟨some [0x6C, 0x69, 0x62, 0x6D], 2, 1⟩

/-- After an opening and a closing the library is still referenced, and asking
for the main program faults. -/
theorem reference_left_over :
    hooked counter waiting 0
        [(beforeLoading, .dlopen otherLibrary), (beforeLoading, .dlclose 1)] =
      .ok ⟨[.dlopen otherLibrary, .dlopen otherLibrary, .dlclose 1], [1], 1⟩ ∧
    unhooked counter 0 [.dlopen otherLibrary, .dlclose 1] =
      ⟨[.dlopen otherLibrary, .dlclose 1], [1], 0⟩ ∧
    ¬Transparent counter waiting 0
      [(beforeLoading, .dlopen otherLibrary), (beforeLoading, .dlclose 1)] ∧
    newFuncDlopen beforeLoading waiting ⟨none, 2, 1⟩ 1 1 = .error .nullDereference := by
  have ran : hooked counter waiting 0
      [(beforeLoading, .dlopen otherLibrary), (beforeLoading, .dlclose 1)] =
        .ok ⟨[.dlopen otherLibrary, .dlopen otherLibrary, .dlclose 1], [1], 1⟩ := by
    decide +kernel
  refine ⟨ran, rfl, ?_, rfl⟩
  rw [Transparent, ran]
  decide

/-! ## Reference counts -/

/-- A loader that counts the references to each handle. -/
def counting (handleOf : DlopenArguments -> UInt32) : Loader (UInt32 -> Int) where
  dlopen counts arguments :=
    (handleOf arguments, fun handle =>
      if handle = handleOf arguments then counts handle + 1 else counts handle)
  dlclose counts closed := fun handle =>
    if handle = closed then counts handle - 1 else counts handle

/-- The request opens the library of the handle. -/
def Request.opensHandle (handleOf : DlopenArguments -> UInt32) (handle : UInt32) :
    Request -> Bool
  | .dlopen arguments => handle == handleOf arguments
  | .dlclose _ => false

/-- Doubling a program adds one reference to a handle for each opening of its
library. -/
theorem references_doubled
    (handleOf : DlopenArguments -> UInt32) (handle : UInt32) (more : Int)
    (start other : UInt32 -> Int) (requests : List Request)
    (ahead : start handle = other handle + more) :
    (unhooked (counting handleOf) start (doubled requests)).loader handle =
      (unhooked (counting handleOf) other requests).loader handle + more +
        requests.countP (Request.opensHandle handleOf handle) := by
  induction requests generalizing start other more with
  | nil =>
      rw [List.countP_nil, Int.natCast_zero, Int.add_zero]
      exact ahead
  | cons request requests inductionHypothesis =>
      cases request with
      | dlopen arguments =>
          by_cases same : handle = handleOf arguments
          · have counted :
                (Request.dlopen arguments :: requests).countP
                    (Request.opensHandle handleOf handle) =
                  requests.countP (Request.opensHandle handleOf handle) + 1 :=
              List.countP_cons_of_pos (beq_iff_eq.mpr same)
            have onward := inductionHypothesis (more + 1)
              ((counting handleOf).dlopen
                ((counting handleOf).dlopen start arguments).2 arguments).2
              ((counting handleOf).dlopen other arguments).2
              (by simp only [counting, if_pos same]; omega)
            have final :
                (unhooked (counting handleOf) other
                    (.dlopen arguments :: requests)).loader handle =
                  (unhooked (counting handleOf)
                    ((counting handleOf).dlopen other arguments).2 requests).loader handle :=
              rfl
            rw [counted, final]
            refine onward.trans ?_
            omega
          · have counted :
                (Request.dlopen arguments :: requests).countP
                    (Request.opensHandle handleOf handle) =
                  requests.countP (Request.opensHandle handleOf handle) :=
              List.countP_cons_of_neg (fun opens => same (beq_iff_eq.mp opens))
            rw [counted]
            apply inductionHypothesis
            simp only [if_neg same]
            exact ahead
      | dlclose closed =>
          have counted :
              (Request.dlclose closed :: requests).countP
                  (Request.opensHandle handleOf handle) =
                requests.countP (Request.opensHandle handleOf handle) :=
            List.countP_cons_of_neg nofun
          rw [counted]
          apply inductionHypothesis
          simp only [counting]
          split
          · omega
          · exact ahead

/-- Through the hook every library keeps one reference more for each opening
than in the program without the hook. -/
theorem references_hooked
    {handleOf : DlopenArguments -> UInt32} {state : State} {start : UInt32 -> Int}
    {requests : List (Environment × Request)} {trace : Trace (UInt32 -> Int)}
    (completed : hooked (counting handleOf) state start requests = .ok trace)
    (handle : UInt32) :
    trace.loader handle =
      (unhooked (counting handleOf) start (requests.map Prod.snd)).loader handle +
        (requests.map Prod.snd).countP (Request.opensHandle handleOf handle) := by
  have doubledRun := references_doubled handleOf handle 0 start start
    (requests.map Prod.snd) (by omega)
  rw [(hooked_simulates_doubled completed).2, doubledRun, Int.add_zero]

end Install
end UnityLocalization
