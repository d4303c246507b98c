import UnityLocalization.Library.Throttle

/-!
# The advertisement throttle

`showSa10`, `showSa11` and `showToast` share the stored time `lastMilles`.
Every test and every store reads the clock anew, log lines included.  The
displays are kept with the number of the reading stored for them.
-/

namespace UnityLocalization
namespace Advertising

open Throttle

/-- The result of `gettimeofday`. -/
structure Timeval where
  tvSec : Nat
  tvUsec : Nat

/-- Real time in milliseconds. -/
def Timeval.milliseconds (tv : Timeval) : Nat := tv.tvSec * 1000 + tv.tvUsec / 1000

/-- `getCurrentTime`, an `unsigned long` of 32 bits. -/
def getCurrentTime (tv : Timeval) : UInt32 :=
  UInt32.ofNat tv.tvSec * 1000 + UInt32.ofNat (tv.tvUsec / 1000)

def displayAdvertisingInterval : Int32 := 1 * 3 * 1000

def startTimeDelay : Int32 := 1 * 1 * 1000

def timesDelayS : Int32 := 1

/-- A static Java method without a result that is used. -/
structure StaticMethod where
  className : String
  name : String
  signature : String
  deriving DecidableEq

def sa10 : StaticMethod := ⟨"com/was/m/RewardManager", "sa10", "()V"⟩

def sa11 : StaticMethod := ⟨"com/was/m/RewardManager", "sa11", "()V"⟩

def toast : StaticMethod :=
  ⟨"com/unity3d/player/UnityPlayerActivity", "showToast", "(Landroid/app/Application;)V"⟩

/-- A display: the Java method called and the number of the clock reading that
was stored into `lastMilles` for it. -/
structure Display where
  method : StaticMethod
  reading : Nat
  deriving DecidableEq

/-- The globals, the number of clock readings so far and the displays. -/
structure State where
  readings : Nat
  startTime : Int32
  lastMilles : UInt32
  timesDelay : UInt32
  displays : List Display

/-- The globals after their initialisers, which take the first reading. -/
def State.initial (clock : Nat -> Timeval) : State where
  readings := 1
  startTime := (getCurrentTime (clock 0)).toInt32
  lastMilles := 0
  timesDelay := 0
  displays := []

/-- The value of the next clock reading. -/
def State.now (clock : Nat -> Timeval) (state : State) : UInt32 :=
  getCurrentTime (clock state.readings)

/-- The clock has been read once more. -/
def State.tick (state : State) : State := { state with readings := state.readings + 1 }

/-- `last_milles = getCurrentTime()`. -/
def State.store (clock : Nat -> Timeval) (state : State) : State :=
  { state.tick with lastMilles := state.now clock }

/-- `CallStaticVoidMethod`, after the given reading has been stored. -/
def State.display (method : StaticMethod) (reading : Nat) (state : State) : State :=
  { state with displays := state.displays ++ [⟨method, reading⟩] }

/-- `++times_delay`. -/
def State.countDelay (state : State) : State :=
  { state with timesDelay := state.timesDelay + 1 }

/-- The common body of `show_sa10` and `show_sa11`. -/
def showReward
    (method : StaticMethod) (clock : Nat -> Timeval) (state : State) : State :=
  if state.now clock - state.startTime.toUInt32 < startTimeDelay.toUInt32 then
    -- the log line subtracts one more reading
    state.tick.tick
  else if state.tick.now clock - state.lastMilles >
      displayAdvertisingInterval.toUInt32 then
    let counted := (state.tick.tick.store clock).countDelay
    if counted.timesDelay % timesDelayS.toUInt32 == 0 then
      counted.display method state.tick.tick.readings
    else
      counted
  else
    state.tick.tick.tick

def showSa10 : (Nat -> Timeval) -> State -> State := showReward sa10

def showSa11 : (Nat -> Timeval) -> State -> State := showReward sa11

def showToast (clock : Nat -> Timeval) (state : State) : State :=
  if state.now clock - state.lastMilles > displayAdvertisingInterval.toUInt32 then
    (state.tick.store clock).display toast state.tick.readings
  else
    state.tick.tick

/-- The three exported functions. -/
inductive Call
  | showSa10
  | showSa11
  | showToast
  deriving DecidableEq

def Call.perform (clock : Nat -> Timeval) (state : State) : Call -> State
  | .showSa10 => Advertising.showSa10 clock state
  | .showSa11 => Advertising.showSa11 clock state
  | .showToast => Advertising.showToast clock state

/-- The state after a sequence of completed calls. -/
def runCalls (clock : Nat -> Timeval) (calls : List Call) : State :=
  calls.foldl (Call.perform clock) (State.initial clock)

/-- The real time of the reading stored for a display. -/
def Display.admission (clock : Nat -> Timeval) (display : Display) : Nat :=
  (clock display.reading).milliseconds

/-! ## Steps -/

/-- The 32-bit sum is the real time modulo `2 ^ 32`. -/
theorem getCurrentTime_eq (tv : Timeval) :
    getCurrentTime tv = wrapped tv.milliseconds := by
  simp [getCurrentTime, wrapped, Timeval.milliseconds]

/-- The state after a display that tested one reading and stored the next. -/
def State.shown
    (clock : Nat -> Timeval)
    (method : StaticMethod)
    (tested : Nat)
    (timesDelay : UInt32)
    (state : State) : State where
  readings := tested + 2
  startTime := state.startTime
  lastMilles := getCurrentTime (clock (tested + 1))
  timesDelay := timesDelay
  displays := state.displays ++ [⟨method, tested + 1⟩]

/-- What a call can do: read the clock only, or display after a reading that
passed the interval test. -/
inductive Outcome
    (clock : Nat -> Timeval) (method : StaticMethod) (state : State) : State -> Prop
  | quiet (readings : Nat) (later : state.readings ≤ readings) :
      Outcome clock method state { state with readings }
  | displays (tested : Nat) (timesDelay : UInt32)
      (later : state.readings ≤ tested)
      (passed : displayAdvertisingInterval.toUInt32 <
        getCurrentTime (clock tested) - state.lastMilles) :
      Outcome clock method state (state.shown clock method tested timesDelay)

/-- With `times_delay_s = 1` every count is due. -/
theorem timesDelay_due (count : UInt32) :
    (count % timesDelayS.toUInt32 == 0) = true := by
  rw [beq_iff_eq]
  apply UInt32.toNat_inj.mp
  have one : timesDelayS.toUInt32.toNat = 1 := by decide
  rw [UInt32.toNat_mod, one, Nat.mod_one]
  rfl

/-- A rewarded display needs the start-up delay to have passed as well. -/
theorem showReward_outcome
    (method : StaticMethod) (clock : Nat -> Timeval) (state : State) :
    Outcome clock method state (showReward method clock state) ∧
      ((showReward method clock state).displays ≠ state.displays ->
        ¬state.now clock - state.startTime.toUInt32 < startTimeDelay.toUInt32) := by
  rw [showReward]
  split
  case isTrue early =>
    refine ⟨.quiet (state.readings + 2) (by omega), ?_⟩
    intro changed
    exact absurd rfl changed
  case isFalse started =>
    refine ⟨?_, fun _ => started⟩
    split
    case isTrue passed =>
      rw [if_pos (timesDelay_due _)]
      exact .displays (state.readings + 1) (state.timesDelay + 1) (by omega) passed
    case isFalse =>
      exact .quiet (state.readings + 3) (by omega)

theorem showToast_outcome (clock : Nat -> Timeval) (state : State) :
    Outcome clock toast state (showToast clock state) := by
  rw [showToast]
  split
  case isTrue passed =>
    exact .displays state.readings state.timesDelay (by omega) passed
  case isFalse =>
    exact .quiet (state.readings + 2) (by omega)

/-! ## Runs -/

/-- The invariant of the throttle. -/
structure Throttled (clock : Nat -> Timeval) (state : State) : Prop where
  /-- The stored start time is reading 0. -/
  started : state.startTime = (getCurrentTime (clock 0)).toInt32
  begun : 0 < state.readings
  /-- `lastMilles` holds the reading of the last display, which is past. -/
  latest : ∀ last, state.displays.getLast? = some last ->
    last.reading < state.readings ∧ state.lastMilles = getCurrentTime (clock last.reading)
  spaced : Spaced 3000 (state.displays.map (Display.admission clock))
  delayed : ∀ display ∈ state.displays, display.method = sa10 ∨ display.method = sa11 ->
    (clock 0).milliseconds + 1000 ≤ display.admission clock

theorem throttled_initial (clock : Nat -> Timeval) :
    Throttled clock (State.initial clock) where
  started := rfl
  begun := Nat.one_pos
  latest := by simp [State.initial]
  spaced := List.Pairwise.nil
  delayed := by simp [State.initial]

section Steps

variable {clock : Nat -> Timeval} {state : State}

theorem Throttled.quiet
    (throttled : Throttled clock state)
    (readings : Nat) (later : state.readings ≤ readings) :
    Throttled clock { state with readings } where
  started := throttled.started
  begun := Nat.lt_of_lt_of_le throttled.begun later
  latest := by
    intro last ends
    obtain ⟨past, stored⟩ := throttled.latest last ends
    exact ⟨Nat.lt_of_lt_of_le past later, stored⟩
  spaced := throttled.spaced
  delayed := throttled.delayed

/-- A display behind the interval, and behind the start-up delay where one is
due, keeps the invariant. -/
theorem Throttled.shown
    (throttled : Throttled clock state)
    (forward : Monotone fun reading => (clock reading).milliseconds)
    (method : StaticMethod) (tested : Nat) (timesDelay : UInt32)
    (later : state.readings ≤ tested)
    (passed : displayAdvertisingInterval.toUInt32 <
      getCurrentTime (clock tested) - state.lastMilles)
    (delay : method = sa10 ∨ method = sa11 ->
      (clock 0).milliseconds + 1000 ≤ (clock tested).milliseconds) :
    Throttled clock (state.shown clock method tested timesDelay) where
  started := throttled.started
  begun := Nat.succ_pos _
  latest := by
    intro last ends
    simp only [State.shown, List.getLast?_append, List.getLast?_singleton,
      Option.some_or, Option.some.injEq] at ends
    rw [← ends]
    exact ⟨Nat.lt_succ_self _, rfl⟩
  spaced := by
    have stored : (clock tested).milliseconds ≤ (clock (tested + 1)).milliseconds :=
      forward (Nat.le_succ tested)
    simp only [State.shown, List.map_append, List.map_singleton]
    apply throttled.spaced.concat
    intro time ends
    rw [List.getLast?_map, Option.map_eq_some_iff] at ends
    obtain ⟨last, isLast, rfl⟩ := ends
    obtain ⟨past, lastStored⟩ := throttled.latest last isLast
    have ordered : last.admission clock ≤ (clock tested).milliseconds :=
      forward (by omega)
    rw [lastStored, getCurrentTime_eq, getCurrentTime_eq] at passed
    have apart := add_lt_of_lt_wrapped_sub ordered passed
    have bound : displayAdvertisingInterval.toUInt32.toNat = 3000 := by decide
    simp only [Display.admission] at apart ⊢
    omega
  delayed := by
    have stored : (clock tested).milliseconds ≤ (clock (tested + 1)).milliseconds :=
      forward (Nat.le_succ tested)
    intro display member rewarded
    rcases List.mem_append.mp member with before | isNew
    · exact throttled.delayed display before rewarded
    · rw [List.mem_singleton.mp isNew] at rewarded ⊢
      exact Nat.le_trans (delay rewarded) stored

/-- The start-up test compares real times. -/
theorem Throttled.startup_over
    (throttled : Throttled clock state)
    (forward : Monotone fun reading => (clock reading).milliseconds)
    (elapsed : ¬state.now clock - state.startTime.toUInt32 < startTimeDelay.toUInt32) :
    (clock 0).milliseconds + 1000 ≤ (clock state.readings).milliseconds := by
  have ordered : (clock 0).milliseconds ≤ (clock state.readings).milliseconds :=
    forward (Nat.zero_le _)
  have bound : startTimeDelay.toUInt32.toNat = 1000 := by decide
  rw [throttled.started, UInt32.toUInt32_toInt32, State.now, getCurrentTime_eq,
    getCurrentTime_eq] at elapsed
  have passed := add_le_of_not_wrapped_sub_lt ordered elapsed
  omega

theorem Throttled.showReward
    (throttled : Throttled clock state)
    (forward : Monotone fun reading => (clock reading).milliseconds)
    (method : StaticMethod) :
    Throttled clock (showReward method clock state) := by
  obtain ⟨outcome, started⟩ := showReward_outcome method clock state
  generalize Advertising.showReward method clock state = next at outcome started ⊢
  cases outcome with
  | quiet readings later => exact throttled.quiet readings later
  | displays tested timesDelay later passed =>
      have elapsed := started (by simp [State.shown])
      have delay := throttled.startup_over forward elapsed
      have ordered : (clock state.readings).milliseconds ≤ (clock tested).milliseconds :=
        forward later
      exact throttled.shown forward method tested timesDelay later passed
        fun _ => Nat.le_trans delay ordered

theorem Throttled.showToast
    (throttled : Throttled clock state)
    (forward : Monotone fun reading => (clock reading).milliseconds) :
    Throttled clock (showToast clock state) := by
  have outcome := showToast_outcome clock state
  generalize Advertising.showToast clock state = next at outcome ⊢
  cases outcome with
  | quiet readings later => exact throttled.quiet readings later
  | displays tested timesDelay later passed =>
      apply throttled.shown forward toast tested timesDelay later passed
      intro rewarded
      exact absurd rewarded (by decide)

theorem Throttled.perform
    (throttled : Throttled clock state)
    (forward : Monotone fun reading => (clock reading).milliseconds)
    (call : Call) :
    Throttled clock (call.perform clock state) := by
  cases call with
  | showSa10 => exact throttled.showReward forward sa10
  | showSa11 => exact throttled.showReward forward sa11
  | showToast => exact throttled.showToast forward

theorem Throttled.foldl
    (throttled : Throttled clock state)
    (forward : Monotone fun reading => (clock reading).milliseconds)
    (calls : List Call) :
    Throttled clock (calls.foldl (Call.perform clock) state) := by
  induction calls generalizing state with
  | nil => exact throttled
  | cons call calls inductionHypothesis =>
      exact inductionHypothesis (throttled.perform forward call)

end Steps

theorem throttled_runCalls
    (clock : Nat -> Timeval)
    (forward : Monotone fun reading => (clock reading).milliseconds)
    (calls : List Call) :
    Throttled clock (runCalls clock calls) :=
  (throttled_initial clock).foldl forward calls

/-- Whatever the calls and however often the readings wrap, two displays are
more than three seconds apart and no rewarded display comes in the first
second. -/
theorem displays_spaced
    (clock : Nat -> Timeval)
    (forward : Monotone fun reading => (clock reading).milliseconds)
    (calls : List Call) :
    (runCalls clock calls).displays.Pairwise (fun earlier later =>
        earlier.admission clock + 3000 < later.admission clock) ∧
      ∀ display ∈ (runCalls clock calls).displays,
        display.method = sa10 ∨ display.method = sa11 ->
          (clock 0).milliseconds + 1000 ≤ display.admission clock := by
  have throttled := throttled_runCalls clock forward calls
  have spaced := throttled.spaced
  rw [Spaced, List.pairwise_map] at spaced
  exact ⟨spaced, throttled.delayed⟩

/-- A clock that advances two seconds a reading and wraps between readings 1
and 2. -/
def steadyClock (reading : Nat) : Timeval := ⟨4294964 + 2 * reading, 0⟩

theorem steadyClock_forward :
    Monotone fun reading => (steadyClock reading).milliseconds := by
  intro earlier later ordered
  simp only [steadyClock, Timeval.milliseconds]
  omega

theorem displays_spaced_steadyClock :
    (runCalls steadyClock [.showSa10, .showToast, .showSa11]).displays.Pairwise
        (fun earlier later =>
          earlier.admission steadyClock + 3000 < later.admission steadyClock) ∧
      ∀ display ∈ (runCalls steadyClock [.showSa10, .showToast, .showSa11]).displays,
        display.method = sa10 ∨ display.method = sa11 ->
          (steadyClock 0).milliseconds + 1000 ≤ display.admission steadyClock :=
  displays_spaced steadyClock steadyClock_forward [.showSa10, .showToast, .showSa11]

end Advertising
end UnityLocalization
