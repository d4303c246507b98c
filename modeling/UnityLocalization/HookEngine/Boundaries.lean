import UnityLocalization.Library.Memory

/-!
# The noted places of moved instructions

While instructions are moved, the places of each of them are noted: where it stood and
where the words stand that replace it.
-/

namespace UnityLocalization
namespace HookEngine

open CMemory

/-- The places of the instructions before and after they are moved, relative to the
first one.  The two arrays have the sizes they have in `struct inlineHookItem`. -/
structure Boundaries where
  orig : Vector Nat 4
  trampoline : Vector Nat 20
  count : Nat

/-- The places of an item that has never been used. -/
def Boundaries.unused : Boundaries := ⟨Vector.replicate 4 0, Vector.replicate 20 0, 0⟩

/-- Note the places of one more instruction. -/
def Boundaries.record (boundaries : Boundaries) (origPlace trampolinePlace : Nat) :
    Checked Boundaries :=
  if inside : boundaries.count < 4 then
    .ok ⟨boundaries.orig.set boundaries.count origPlace,
      boundaries.trampoline.set boundaries.count trampolinePlace, boundaries.count + 1⟩
  else .error .outOfBounds

/-- A number of places have been noted behind the earlier ones. -/
structure Notes
    (origOf trampolineOf : Nat -> Nat) (turns : Nat) (before after : Boundaries) : Prop where
  count : after.count = before.count + turns
  kept : ∀ index < before.count, after.orig[index]? = before.orig[index]? ∧
    after.trampoline[index]? = before.trampoline[index]?
  orig : ∀ index < turns, after.orig[before.count + index]? = some (origOf index)
  trampoline : ∀ index < turns,
    after.trampoline[before.count + index]? = some (trampolineOf index)

section

variable {before noted after : Boundaries}

variable (before) in
theorem record_eq (origPlace trampolinePlace : Nat) (inside : before.count < 4) :
    ∃ noted, before.record origPlace trampolinePlace = .ok noted ∧
      Notes (fun _ => origPlace) (fun _ => trampolinePlace) 1 before noted := by
  refine ⟨_, by rw [Boundaries.record, dif_pos inside], rfl, ?_, ?_, ?_⟩
  · intro index earlier
    exact ⟨Vector.getElem?_set_ne inside (Nat.ne_of_gt earlier),
      Vector.getElem?_set_ne (Nat.lt_trans inside (by decide)) (Nat.ne_of_gt earlier)⟩
  · intro index only
    cases Nat.lt_one_iff.mp only
    exact Vector.getElem?_set_self inside
  · intro index only
    cases Nat.lt_one_iff.mp only
    exact Vector.getElem?_set_self (Nat.lt_trans inside (by decide))

theorem record_full {origPlace trampolinePlace : Nat} (full : 4 ≤ before.count) :
    before.record origPlace trampolinePlace = .error .outOfBounds := by
  rw [Boundaries.record, dif_neg (Nat.not_lt.mpr full)]

theorem Notes.none (origOf trampolineOf : Nat -> Nat) (before : Boundaries) :
    Notes origOf trampolineOf 0 before before :=
  ⟨rfl, fun _ _ => ⟨rfl, rfl⟩, fun _ inside => absurd inside (Nat.not_lt_zero _),
    fun _ inside => absurd inside (Nat.not_lt_zero _)⟩

/-- One place and the later ones. -/
theorem Notes.cons
    {origOf trampolineOf : Nat -> Nat} {turns : Nat}
    (first : Notes (fun _ => origOf 0) (fun _ => trampolineOf 0) 1 before noted)
    (later : Notes (fun index => origOf (index + 1)) (fun index => trampolineOf (index + 1))
      turns noted after) :
    Notes origOf trampolineOf (turns + 1) before after where
  count := by
    rw [later.count, first.count]
    omega
  kept index earlier := by
    have one := first.count
    obtain ⟨orig, trampoline⟩ := later.kept index (by omega)
    obtain ⟨origBefore, trampolineBefore⟩ := first.kept index earlier
    exact ⟨orig.trans origBefore, trampoline.trans trampolineBefore⟩
  orig index inside := by
    have one := first.count
    cases index with
    | zero => exact (later.kept before.count (by omega)).1.trans (first.orig 0 Nat.one_pos)
    | succ index =>
        have entry := later.orig index (Nat.lt_of_succ_lt_succ inside)
        rwa [one, Nat.add_right_comm] at entry
  trampoline index inside := by
    have one := first.count
    cases index with
    | zero =>
        exact (later.kept before.count (by omega)).2.trans (first.trampoline 0 Nat.one_pos)
    | succ index =>
        have entry := later.trampoline index (Nat.lt_of_succ_lt_succ inside)
        rwa [one, Nat.add_right_comm] at entry

end

end HookEngine
end UnityLocalization
