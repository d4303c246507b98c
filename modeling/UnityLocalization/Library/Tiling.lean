import Mathlib.Data.List.Basic
import Mathlib.Data.List.Count

/-!
# Extents that tile a block

Extents that follow one another without gap cover every offset of a block
exactly once.
-/

namespace Tiling

/-- Consecutive offsets: the first one and how many there are. -/
structure Extent where
  start : Int
  length : Int
  deriving DecidableEq

/-- The offset lies in the extent. -/
def Extent.Contains (extent : Extent) (offset : Int) : Prop :=
  extent.start ≤ offset ∧ offset < extent.start + extent.length

instance (extent : Extent) (offset : Int) : Decidable (extent.Contains offset) :=
  inferInstanceAs (Decidable (_ ∧ _))

/-- Each extent starts where the one before it ends, from `start` to `stop`. -/
def Consecutive (start stop : Int) : List Extent -> Prop
  | [] => start = stop
  | extent :: extents =>
      extent.start = start ∧ 0 ≤ extent.length ∧
        Consecutive (start + extent.length) stop extents

/-- The extents cover the block from `start` to `stop` without gap or overlap. -/
structure Tiles (start stop : Int) (extents : List Extent) : Prop where
  notNegative : ∀ extent ∈ extents, 0 ≤ extent.length
  inside : ∀ extent ∈ extents,
    start ≤ extent.start ∧ extent.start + extent.length ≤ stop
  once : ∀ offset, start ≤ offset -> offset < stop ->
    extents.countP (fun extent => extent.Contains offset) = 1

theorem Consecutive.start_le_stop
    {start stop : Int} {extents : List Extent}
    (consecutive : Consecutive start stop extents) : start ≤ stop := by
  induction extents generalizing start with
  | nil => exact Int.le_of_eq consecutive
  | cons extent extents inductionHypothesis =>
      obtain ⟨-, notNegative, later⟩ := consecutive
      have ordered := inductionHypothesis later
      omega

/-- No later extent reaches in front of the start. -/
theorem Consecutive.countP_eq_zero
    {start stop offset : Int} {extents : List Extent}
    (consecutive : Consecutive start stop extents) (before : offset < start) :
    extents.countP (fun extent => extent.Contains offset) = 0 := by
  induction extents generalizing start with
  | nil => rfl
  | cons extent extents inductionHypothesis =>
      obtain ⟨starts, notNegative, later⟩ := consecutive
      have outside : ¬extent.Contains offset := by
        rintro ⟨reached, -⟩
        omega
      rw [List.countP_cons_of_neg (by simpa using outside)]
      exact inductionHypothesis later (by omega)

theorem Consecutive.tiles
    {start stop : Int} {extents : List Extent}
    (consecutive : Consecutive start stop extents) : Tiles start stop extents := by
  induction extents generalizing start with
  | nil =>
      have empty : start = stop := consecutive
      refine ⟨by simp, by simp, fun offset behind before => ?_⟩
      omega
  | cons extent extents inductionHypothesis =>
      obtain ⟨starts, notNegative, later⟩ := consecutive
      have tiles := inductionHypothesis later
      have ordered := later.start_le_stop
      constructor
      · exact List.forall_mem_cons.mpr ⟨notNegative, tiles.notNegative⟩
      · refine List.forall_mem_cons.mpr ⟨⟨by omega, by omega⟩, fun other member => ?_⟩
        obtain ⟨behind, ends⟩ := tiles.inside other member
        exact ⟨by omega, ends⟩
      · intro offset behind before
        by_cases here : offset < start + extent.length
        · have contained : extent.Contains offset := ⟨by omega, by omega⟩
          rw [List.countP_cons_of_pos (by simpa using contained),
            later.countP_eq_zero here]
        · have outside : ¬extent.Contains offset := by
            rintro ⟨-, ended⟩
            omega
          rw [List.countP_cons_of_neg (by simpa using outside)]
          exact tiles.once offset (by omega) before

end Tiling
