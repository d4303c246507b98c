import Mathlib.Data.List.Basic
import Mathlib.Order.Monotone.Basic
import Mathlib.Tactic.Common

/-!
# Throttling by a wrapping clock

A throttle compares 32-bit readings of a clock that never goes back.  The
wrapped difference of two readings never exceeds the real time between them,
so a test on it is safe however often the counter wraps.
-/

namespace Throttle

/-- The 32-bit reading of a clock. -/
def wrapped (time : Nat) : UInt32 := UInt32.ofNat time

/-- The wrapped difference never exceeds the real one. -/
theorem wrapped_sub_le
    {earlier later : Nat} (forward : earlier ≤ later) :
    (wrapped later - wrapped earlier).toNat ≤ later - earlier := by
  simp only [wrapped, UInt32.toNat_sub, UInt32.toNat_ofNat']
  omega

/-- A wrapped difference above a bound means that more real time has passed. -/
theorem add_lt_of_lt_wrapped_sub
    {earlier later : Nat} {bound : UInt32}
    (forward : earlier ≤ later)
    (passed : bound < wrapped later - wrapped earlier) :
    earlier + bound.toNat < later := by
  have real := wrapped_sub_le forward
  rw [UInt32.lt_iff_toNat_lt] at passed
  omega

/-- A wrapped difference not below a bound means that so much time has passed. -/
theorem add_le_of_not_wrapped_sub_lt
    {earlier later : Nat} {bound : UInt32}
    (forward : earlier ≤ later)
    (passed : ¬wrapped later - wrapped earlier < bound) :
    earlier + bound.toNat ≤ later := by
  have real := wrapped_sub_le forward
  rw [UInt32.lt_iff_toNat_lt] at passed
  omega

/-- Any two of the times are more than `gap` apart, in order. -/
def Spaced (gap : Nat) (times : List Nat) : Prop :=
  times.Pairwise fun earlier later => earlier + gap < later

/-- No time of a spaced list exceeds the last one. -/
theorem Spaced.le_getLast
    {gap : Nat} {times : List Nat} {time last : Nat}
    (spaced : Spaced gap times)
    (ends : times.getLast? = some last)
    (member : time ∈ times) :
    time ≤ last := by
  obtain ⟨front, rfl⟩ := List.getLast?_eq_some_iff.mp ends
  rw [Spaced, List.pairwise_append] at spaced
  rcases List.mem_append.mp member with inFront | isLast
  · have apart := spaced.2.2 time inFront last (List.mem_singleton_self last)
    omega
  · exact Nat.le_of_eq (List.mem_singleton.mp isLast)

/-- A time more than `gap` behind the last one keeps the list spaced. -/
theorem Spaced.concat
    {gap : Nat} {times : List Nat} {time : Nat}
    (spaced : Spaced gap times)
    (behind : ∀ last, times.getLast? = some last -> last + gap < time) :
    Spaced gap (times ++ [time]) := by
  rw [Spaced, List.pairwise_append]
  refine ⟨spaced, List.pairwise_singleton _ _, ?_⟩
  intro earlier member later isTime
  rw [List.mem_singleton.mp isTime]
  have nonempty : times ≠ [] := List.ne_nil_of_mem member
  have ends : times.getLast? = some (times.getLast nonempty) :=
    List.getLast?_eq_some_getLast nonempty
  have bounded := spaced.le_getLast ends member
  have apart := behind _ ends
  omega

end Throttle
