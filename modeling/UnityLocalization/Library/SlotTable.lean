import Mathlib.Logic.Function.Basic
import Mathlib.Tactic.Common

/-!
# Tables of slots

The entries of a table stand in its first slots.  A new entry takes the next slot, and a
removed one is replaced by the last.  Slots behind the entries keep what they held.
-/

/-- The slots of a table and the number of those that hold its entries. -/
structure SlotTable (α : Type*) where
  slot : Nat -> α
  size : Nat

namespace SlotTable

variable {α κ : Type*}

/-- The first entry with a property. -/
def find? (table : SlotTable α) (property : α -> Bool) : Option Nat :=
  (List.range table.size).find? fun index => property (table.slot index)

/-- Put an entry into the next slot. -/
def push (table : SlotTable α) (entry : α) : SlotTable α :=
  ⟨Function.update table.slot table.size entry, table.size + 1⟩

/-- Put an entry into the place of another one. -/
def update (table : SlotTable α) (index : Nat) (entry : α) : SlotTable α :=
  { table with slot := Function.update table.slot index entry }

/-- Take an entry out, and put the last one into its place. -/
def remove (table : SlotTable α) (index : Nat) : SlotTable α :=
  ⟨Function.update table.slot index (table.slot (table.size - 1)), table.size - 1⟩

/-- Every entry has the property. -/
def All (table : SlotTable α) (property : α -> Prop) : Prop :=
  ∀ index < table.size, property (table.slot index)

/-- Any two entries are related. -/
def Pairwise (table : SlotTable α) (relation : α -> α -> Prop) : Prop :=
  ∀ first < table.size, ∀ second < table.size, first ≠ second ->
    relation (table.slot first) (table.slot second)

/-- No two entries have the same key. -/
def Distinct (table : SlotTable α) (key : α -> κ) : Prop :=
  table.Pairwise fun first second => key first ≠ key second

/-- The entry with a key. -/
def lookup [DecidableEq κ] (table : SlotTable α) (key : α -> κ) (wanted : κ) : Option α :=
  (table.find? fun entry => key entry = wanted).map table.slot

section

variable {table : SlotTable α} {entry : α} {index : Nat} {property : α -> Prop}
  {relation : α -> α -> Prop}

@[simp] theorem push_size : (table.push entry).size = table.size + 1 := rfl

@[simp] theorem update_size : (table.update index entry).size = table.size := rfl

@[simp] theorem remove_size : (table.remove index).size = table.size - 1 := rfl

@[simp] theorem push_slot_size : (table.push entry).slot table.size = entry :=
  Function.update_self _ _ _

/-- The earlier entries stay where they are. -/
theorem push_slot {other : Nat} (inside : other < table.size) :
    (table.push entry).slot other = table.slot other :=
  Function.update_of_ne (Nat.ne_of_lt inside) _ _

/-- The slots further behind stay what they were, too. -/
theorem push_slot_of_ne {other : Nat} (different : other ≠ table.size) :
    (table.push entry).slot other = table.slot other :=
  Function.update_of_ne different _ _

@[simp] theorem update_slot : (table.update index entry).slot index = entry :=
  Function.update_self _ _ _

theorem update_slot_of_ne {other : Nat} (different : other ≠ index) :
    (table.update index entry).slot other = table.slot other :=
  Function.update_of_ne different _ _

/-- The last entry comes into the slot of the removed one. -/
@[simp] theorem remove_slot : (table.remove index).slot index = table.slot (table.size - 1) :=
  Function.update_self _ _ _

theorem remove_slot_of_ne {other : Nat} (different : other ≠ index) :
    (table.remove index).slot other = table.slot other :=
  Function.update_of_ne different _ _

/-- The slot that an entry stood in before a removal. -/
def origin (table : SlotTable α) (index other : Nat) : Nat :=
  if other = index then table.size - 1 else other

/-- What a slot holds after a removal stood in its origin before. -/
theorem remove_slot_eq (table : SlotTable α) (index other : Nat) :
    (table.remove index).slot other = table.slot (table.origin index other) := by
  by_cases same : other = index
  · rw [origin, if_pos same, same, remove_slot]
  · rw [origin, if_neg same, remove_slot_of_ne same]

theorem origin_lt {other : Nat} (still : other < table.size - 1) :
    table.origin index other < table.size := by
  rw [origin]
  split <;> omega

/-- The removed entry is the origin of nothing. -/
theorem origin_ne {other : Nat} (still : other < table.size - 1) :
    table.origin index other ≠ index := by
  rw [origin]
  split <;> omega

/-- Different entries had different slots. -/
theorem origin_injective {first second : Nat} (firstStill : first < table.size - 1)
    (secondStill : second < table.size - 1) (different : first ≠ second) :
    table.origin index first ≠ table.origin index second := by
  rw [origin, origin]
  split <;> split <;> omega

/-- Every other entry is still there after a removal. -/
theorem exists_origin {other : Nat} (inside : other < table.size)
    (kept : other ≠ index) (indexInside : index < table.size) :
    ∃ now < table.size - 1, table.origin index now = other := by
  by_cases last : other = table.size - 1
  · exact ⟨index, by omega, by rw [origin, if_pos rfl, last]⟩
  · exact ⟨other, by omega, by rw [origin, if_neg kept]⟩

/-! ## What holds of all entries -/

/-- A property of all entries stays one exactly if it holds of the new entry. -/
theorem all_push : (table.push entry).All property ↔ table.All property ∧ property entry := by
  constructor
  · intro all
    refine ⟨fun other inside => ?_, ?_⟩
    · have still := all other (Nat.lt_succ_of_lt inside)
      rwa [push_slot inside] at still
    · have last := all table.size (Nat.lt_succ_self _)
      rwa [push_slot_size] at last
  · rintro ⟨all, last⟩ other inside
    by_cases earlier : other < table.size
    · rw [push_slot earlier]
      exact all other earlier
    · have same : other = table.size := Nat.eq_of_lt_succ_of_not_lt inside earlier
      rw [same, push_slot_size]
      exact last

theorem All.update (all : table.All property) (holds : property entry) :
    (table.update index entry).All property := by
  intro other inside
  by_cases same : other = index
  · rw [same, update_slot]
    exact holds
  · rw [update_slot_of_ne same]
    exact all other inside

/-- A removal brings no new entry. -/
theorem All.remove (all : table.All property) : (table.remove index).All property := by
  intro other inside
  rw [remove_slot_eq]
  exact all _ (origin_lt inside)

/-- A symmetric relation between all entries has to hold between each of them and the new one. -/
theorem pairwise_push
    (symmetric : ∀ first second, relation first second -> relation second first)
    (pairwise : table.Pairwise relation) (fresh : table.All fun other => relation other entry) :
    (table.push entry).Pairwise relation := by
  have against : ∀ other < table.size, relation ((table.push entry).slot other) entry := by
    intro other inside
    rw [push_slot inside]
    exact fresh other inside
  intro first firstInside second secondInside different
  rw [push_size] at firstInside secondInside
  by_cases firstEarlier : first < table.size
  · by_cases secondEarlier : second < table.size
    · rw [push_slot firstEarlier, push_slot secondEarlier]
      exact pairwise first firstEarlier second secondEarlier different
    · have last : second = table.size := Nat.eq_of_lt_succ_of_not_lt secondInside secondEarlier
      have related := against first firstEarlier
      rwa [last, push_slot_size]
  · have last : first = table.size := Nat.eq_of_lt_succ_of_not_lt firstInside firstEarlier
    have related := against second (by omega)
    rw [last, push_slot_size]
    exact symmetric _ _ related

/-- The entry that takes a place has to be related to those in the other places. -/
theorem Pairwise.update
    (symmetric : ∀ first second, relation first second -> relation second first)
    (pairwise : table.Pairwise relation)
    (related : ∀ other < table.size, other ≠ index -> relation (table.slot other) entry) :
    (table.update index entry).Pairwise relation := by
  intro first firstInside second secondInside different
  by_cases isFirst : first = index
  · have notSecond : second ≠ index := fun same => different (isFirst.trans same.symm)
    rw [isFirst, update_slot, update_slot_of_ne notSecond]
    exact symmetric _ _ (related second secondInside notSecond)
  · rw [update_slot_of_ne isFirst]
    by_cases isSecond : second = index
    · rw [isSecond, update_slot]
      exact related first firstInside isFirst
    · rw [update_slot_of_ne isSecond]
      exact pairwise first firstInside second secondInside different

theorem Pairwise.remove (pairwise : table.Pairwise relation) :
    (table.remove index).Pairwise relation := by
  intro first firstInside second secondInside different
  rw [remove_slot_eq, remove_slot_eq]
  exact pairwise _ (origin_lt firstInside) _ (origin_lt secondInside)
    (origin_injective firstInside secondInside different)

section

variable {key : α -> κ}

/-- A key that no entry has yet keeps the keys distinct. -/
theorem Distinct.push
    (distinct : table.Distinct key) (fresh : table.All fun other => key other ≠ key entry) :
    (table.push entry).Distinct key :=
  pairwise_push (fun _ _ different same => different same.symm) distinct fresh

/-- An entry can be replaced by one with its own key. -/
theorem Distinct.update
    (distinct : table.Distinct key) (inside : index < table.size)
    (sameKey : key entry = key (table.slot index)) : (table.update index entry).Distinct key := by
  apply Pairwise.update (fun _ _ different same => different same.symm) distinct
  intro other otherInside different
  rw [sameKey]
  exact distinct other otherInside index inside different

theorem Distinct.remove (distinct : table.Distinct key) : (table.remove index).Distinct key :=
  Pairwise.remove distinct

end

/-! ## Finding entries -/

/-- The first entry that passes a test. -/
theorem find?_eq_some {test : α -> Bool} :
    table.find? test = some index ↔
      index < table.size ∧ test (table.slot index) = true ∧
        ∀ earlier < index, test (table.slot earlier) = false := by
  rw [find?, List.find?_range_eq_some]
  simp only [List.mem_range, Bool.not_eq_true']
  tauto

theorem find?_eq_none {test : α -> Bool} :
    table.find? test = none ↔ table.All fun entry => test entry = false := by
  rw [find?, List.find?_range_eq_none]
  simp only [Bool.not_eq_true', All]

variable [DecidableEq κ] {key : α -> κ} {wanted : κ}

/-- With distinct keys an entry is found wherever it stands. -/
theorem lookup_eq_some (distinct : table.Distinct key) :
    table.lookup key wanted = some entry ↔
      ∃ index < table.size, table.slot index = entry ∧ key entry = wanted := by
  constructor
  · intro found
    obtain ⟨index, first, rfl⟩ := Option.map_eq_some_iff.mp found
    obtain ⟨inside, matching, -⟩ := find?_eq_some.mp first
    exact ⟨index, inside, rfl, of_decide_eq_true matching⟩
  · rintro ⟨index, inside, rfl, matching⟩
    have first : table.find? (fun entry => key entry = wanted) = some index := by
      refine find?_eq_some.mpr ⟨inside, decide_eq_true matching, fun earlier before => ?_⟩
      have other := distinct earlier (Nat.lt_trans before inside) index inside
        (Nat.ne_of_lt before)
      exact decide_eq_false fun same => other (same.trans matching.symm)
    rw [lookup, first]
    rfl

theorem lookup_eq_none :
    table.lookup key wanted = none ↔ table.All fun entry => key entry ≠ wanted := by
  rw [lookup, Option.map_eq_none_iff, find?_eq_none]
  simp only [decide_eq_false_iff_not, ne_eq]

/-- Every entry is found by its own key. -/
theorem lookup_slot (distinct : table.Distinct key) (inside : index < table.size) :
    table.lookup key (key (table.slot index)) = some (table.slot index) :=
  (lookup_eq_some distinct).mpr ⟨index, inside, rfl, rfl⟩

/-- A new entry is found by its key, and the others are found as before. -/
theorem lookup_push
    (distinct : table.Distinct key) (fresh : table.All fun other => key other ≠ key entry) :
    (table.push entry).lookup key wanted =
      if wanted = key entry then some entry else table.lookup key wanted := by
  have still := distinct.push fresh
  by_cases isNew : wanted = key entry
  · rw [if_pos isNew]
    exact (lookup_eq_some still).mpr
      ⟨table.size, Nat.lt_succ_self _, push_slot_size, isNew.symm⟩
  · rw [if_neg isNew]
    cases found : table.lookup key wanted with
    | none =>
        exact lookup_eq_none.mpr
          (all_push.mpr ⟨lookup_eq_none.mp found, fun same => isNew same.symm⟩)
    | some old =>
        obtain ⟨index, inside, stands, matching⟩ := (lookup_eq_some distinct).mp found
        refine (lookup_eq_some still).mpr ⟨index, Nat.lt_succ_of_lt inside, ?_, matching⟩
        rw [push_slot inside, stands]

/-- The new entry is found in the place of the old one. -/
theorem lookup_update
    (distinct : table.Distinct key) (inside : index < table.size)
    (sameKey : key entry = key (table.slot index)) :
    (table.update index entry).lookup key wanted =
      if wanted = key entry then some entry else table.lookup key wanted := by
  have still := distinct.update inside sameKey
  by_cases isNew : wanted = key entry
  · rw [if_pos isNew]
    exact (lookup_eq_some still).mpr ⟨index, inside, update_slot, isNew.symm⟩
  · rw [if_neg isNew]
    cases found : table.lookup key wanted with
    | none =>
        exact lookup_eq_none.mpr
          ((lookup_eq_none.mp found).update fun same => isNew same.symm)
    | some old =>
        obtain ⟨other, otherInside, stands, matching⟩ := (lookup_eq_some distinct).mp found
        have different : other ≠ index := by
          rintro rfl
          apply isNew
          rw [sameKey, stands, matching]
        refine (lookup_eq_some still).mpr ⟨other, otherInside, ?_, matching⟩
        rw [update_slot_of_ne different, stands]

/-- The removed key is not found any more, and the other keys are found as before. -/
theorem lookup_remove (distinct : table.Distinct key) (inside : index < table.size) :
    (table.remove index).lookup key wanted =
      if wanted = key (table.slot index) then none else table.lookup key wanted := by
  by_cases isGone : wanted = key (table.slot index)
  · rw [if_pos isGone]
    apply lookup_eq_none.mpr
    intro other still
    rw [remove_slot_eq, isGone]
    exact distinct _ (origin_lt still) index inside (origin_ne still)
  · rw [if_neg isGone]
    cases found : table.lookup key wanted with
    | none => exact lookup_eq_none.mpr (lookup_eq_none.mp found).remove
    | some old =>
        obtain ⟨other, otherInside, stands, matching⟩ := (lookup_eq_some distinct).mp found
        have kept : other ≠ index := by
          rintro rfl
          apply isGone
          rw [stands, matching]
        obtain ⟨now, still, before⟩ := exists_origin otherInside kept inside
        refine (lookup_eq_some distinct.remove).mpr ⟨now, still, ?_, matching⟩
        rw [remove_slot_eq, before, stands]

end

end SlotTable
