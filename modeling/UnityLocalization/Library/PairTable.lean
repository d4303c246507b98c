import Mathlib.Tactic.Common

/-!
# Translation through pairs of places

The entry with a number pairs a place on one side with a place on the other.  A place is
translated by the first entry that has it.
-/

namespace PairTable

variable {α β : Type*}

/-- The first `count` entries have different places. -/
def Distinct (source : Nat -> α) (count : Nat) : Prop :=
  ∀ first < count, ∀ second < count, source first = source second -> first = second

theorem lt_of_step {places : Nat -> Nat} {count : Nat}
    (step : ∀ index, index + 1 < count -> places index < places (index + 1)) :
    ∀ second < count, ∀ first < second, places first < places second := by
  intro second
  induction second with
  | zero => exact fun _ first before => absurd before (Nat.not_lt_zero first)
  | succ second hypothesis =>
      intro inside first before
      obtain here | earlier := Nat.eq_or_lt_of_le (Nat.le_of_lt_succ before)
      · exact here ▸ step second inside
      · exact Nat.lt_trans (hypothesis (by omega) first earlier) (step second inside)

/-- Places that grow are different. -/
theorem Distinct.of_step {places : Nat -> Nat} {count : Nat}
    (step : ∀ index, index + 1 < count -> places index < places (index + 1)) :
    Distinct places count := by
  intro first firstInside second secondInside same
  obtain before | here | behind := Nat.lt_trichotomy first second
  · exact absurd same (Nat.ne_of_lt (lt_of_step step second secondInside first before))
  · exact here
  · exact absurd same (Nat.ne_of_gt (lt_of_step step first firstInside second behind))

variable [DecidableEq α]

/-- The other place of the first entry for `place`. -/
def translate (source : Nat -> α) (target : Nat -> β) (count : Nat) (place : α) : Option β :=
  ((List.range count).find? fun index => place = source index).map target

variable {source : Nat -> α} {target : Nat -> β} {count index : Nat} {place : α} {other : β}

/-- An earlier entry hides the later ones. -/
theorem translate_of_first
    (inside : index < count) (here : place = source index)
    (first : ∀ earlier < index, place ≠ source earlier) :
    translate source target count place = some (target index) := by
  have found : (List.range count).find? (fun index => place = source index) = some index := by
    rw [List.find?_range_eq_some]
    simp only [List.mem_range, Bool.not_eq_true', decide_eq_true_eq, decide_eq_false_iff_not]
    exact ⟨here, inside, first⟩
  rw [translate, found, Option.map_some]

theorem translate_eq_none :
    translate source target count place = none ↔ ∀ index < count, place ≠ source index := by
  rw [translate, Option.map_eq_none_iff, List.find?_range_eq_none]
  simp only [Bool.not_eq_true', decide_eq_false_iff_not, ne_eq]

theorem translate_eq_some (distinct : Distinct source count) :
    translate source target count place = some other ↔
      ∃ index < count, place = source index ∧ other = target index := by
  constructor
  · intro translated
    obtain ⟨index, found, rfl⟩ := Option.map_eq_some_iff.mp translated
    rw [List.find?_range_eq_some] at found
    obtain ⟨here, inside, -⟩ := found
    exact ⟨index, List.mem_range.mp inside, of_decide_eq_true here, rfl⟩
  · rintro ⟨index, inside, here, rfl⟩
    apply translate_of_first inside here
    intro earlier before same
    have equal := distinct index inside earlier (Nat.lt_trans before inside)
      (here.symm.trans same)
    exact Nat.ne_of_gt before equal

/-- If both sides are different, the translations there and back are inverse. -/
theorem translate_iff [DecidableEq β]
    (distinctSource : Distinct source count) (distinctTarget : Distinct target count) :
    translate source target count place = some other ↔
      translate target source count other = some place := by
  rw [translate_eq_some distinctSource, translate_eq_some distinctTarget]
  exact exists_congr fun index => and_congr_right fun _ => and_comm

end PairTable
