import Mathlib.Data.List.Basic
import Mathlib.Order.MinMax
import Mathlib.Tactic.Common

/-!
# Replacing the first occurrence of a word

Occurrences of a word in a text, the leftmost of them, and the text obtained
by replacing it.  Two results compare replacements in two texts: when they
agree outside the replaced window, and when no replacement can hide that the
texts differ.
-/

namespace TextReplace

variable {α : Type*}

/-- The word stands in the text at the given position. -/
def OccursAt (word text : List α) (position : Nat) : Prop :=
  (text.drop position).take word.length = word

instance [DecidableEq α] (word text : List α) (position : Nat) :
    Decidable (OccursAt word text position) :=
  inferInstanceAs (Decidable (_ = _))

/-- The position of the leftmost occurrence. -/
def firstOccurrence [DecidableEq α] (word : List α) : List α -> Option Nat
  | [] => if word = [] then some 0 else none
  | symbol :: rest =>
      if OccursAt word (symbol :: rest) 0 then some 0
      else (firstOccurrence word rest).map Nat.succ

/-- Exchange the window of the given length at a position. -/
def splice
    (text : List α) (position length : Nat) (replacement : List α) : List α :=
  text.take position ++ replacement ++ text.drop (position + length)

/-- Replace the leftmost occurrence of a word, if there is one. -/
def replaceFirst [DecidableEq α]
    (word replacement text : List α) : Option (List α) :=
  (firstOccurrence word text).map fun position =>
    splice text position word.length replacement

/-! ## Occurrences -/

theorem OccursAt.length_le
    {word text : List α} {position : Nat}
    (occurs : OccursAt word text position) (nonempty : word ≠ []) :
    position + word.length ≤ text.length := by
  have lengths := congrArg List.length occurs
  have positive := List.length_pos_of_ne_nil nonempty
  simp only [List.length_take, List.length_drop] at lengths
  omega

/-- The symbols of an occurrence are those of the word. -/
theorem OccursAt.getElem?_eq
    {word text : List α} {position : Nat}
    (occurs : OccursAt word text position)
    {index : Nat} (inside : index < word.length) :
    text[position + index]? = word[index]? := by
  have symbols := congrArg (fun list => list[index]?) occurs
  simpa [List.getElem?_take, inside] using symbols

/-- Equal symbols throughout a window that fits make an occurrence. -/
theorem occursAt_of_getElem?
    {word text : List α} {position : Nat}
    (equal : ∀ index, index < word.length ->
      text[position + index]? = word[index]?) :
    OccursAt word text position := by
  apply List.ext_getElem?
  intro index
  rw [List.getElem?_take]
  by_cases inside : index < word.length
  · simp [inside, equal index inside]
  · simp [inside]

/-- Occurrences depend only on the symbols of the window. -/
theorem OccursAt.congr
    {word left right : List α} {position : Nat}
    (occurs : OccursAt word left position)
    (equal : ∀ index, index < word.length ->
      left[position + index]? = right[position + index]?) :
    OccursAt word right position :=
  occursAt_of_getElem? fun index inside =>
    (equal index inside).symm.trans (occurs.getElem?_eq inside)

/-- Occurrences are kept by renaming symbols. -/
theorem OccursAt.map
    {word text : List α} {position : Nat}
    (occurs : OccursAt word text position) (rename : α -> β) :
    OccursAt (word.map rename) (text.map rename) position := by
  rw [OccursAt, List.length_map, ← List.map_drop, ← List.map_take, occurs]

/-- A word that occurs inside an occurrence of another word occurs in it. -/
theorem OccursAt.within
    {word outer text : List α} {start offset : Nat}
    (occurs : OccursAt word text (start + offset))
    (around : OccursAt outer text start)
    (fits : offset + word.length ≤ outer.length) :
    OccursAt word outer offset := by
  apply occursAt_of_getElem?
  intro index inside
  rw [← occurs.getElem?_eq inside, ← around.getElem?_eq (by omega), Nat.add_assoc]

section Search

variable [DecidableEq α]

theorem firstOccurrence_eq_none_iff
    {word text : List α} (nonempty : word ≠ []) :
    firstOccurrence word text = none ↔
      ∀ position, ¬OccursAt word text position := by
  induction text with
  | nil => simp [firstOccurrence, OccursAt, nonempty, Ne.symm nonempty]
  | cons symbol rest inductionHypothesis =>
      simp only [firstOccurrence]
      split
      case isTrue here =>
        simp only [reduceCtorEq, false_iff, not_forall, not_not]
        exact ⟨0, here⟩
      case isFalse notHere =>
        rw [Option.map_eq_none_iff, inductionHypothesis]
        constructor
        · intro absent position
          cases position with
          | zero => exact notHere
          | succ position => exact absent position
        · intro absent position
          exact absent (position + 1)

theorem firstOccurrence_eq_some_iff
    {word text : List α} {position : Nat} (nonempty : word ≠ []) :
    firstOccurrence word text = some position ↔
      OccursAt word text position ∧
        ∀ earlier, earlier < position -> ¬OccursAt word text earlier := by
  induction text generalizing position with
  | nil => simp [firstOccurrence, OccursAt, nonempty, Ne.symm nonempty]
  | cons symbol rest inductionHypothesis =>
      simp only [firstOccurrence]
      split
      case isTrue here =>
        constructor
        · intro equal
          cases equal
          exact ⟨here, fun earlier before => absurd before (Nat.not_lt_zero _)⟩
        · rintro ⟨-, leftmost⟩
          cases position with
          | zero => rfl
          | succ position => exact absurd here (leftmost 0 (Nat.succ_pos _))
      case isFalse notHere =>
        cases position with
        | zero =>
            constructor
            · intro equal
              simp at equal
            · rintro ⟨occurs, -⟩
              exact absurd occurs notHere
        | succ position =>
            have shifted : (firstOccurrence word rest).map Nat.succ =
                  some (position + 1) ↔
                firstOccurrence word rest = some position := by
              simp
            rw [shifted, inductionHypothesis]
            constructor
            · rintro ⟨occurs, leftmost⟩
              refine ⟨occurs, fun earlier before => ?_⟩
              cases earlier with
              | zero => exact notHere
              | succ earlier => exact leftmost earlier (by omega)
            · rintro ⟨occurs, leftmost⟩
              exact ⟨occurs, fun earlier before =>
                leftmost (earlier + 1) (by omega)⟩

end Search

/-! ## Comparing replacements -/

theorem length_splice
    (text : List α) (position length : Nat) (replacement : List α)
    (inside : position + length ≤ text.length) :
    (splice text position length replacement).length =
      text.length - length + replacement.length := by
  simp only [splice, List.length_append, List.length_take, List.length_drop]
  omega

/-- Replacing the same window in two texts gives equal results exactly when
the texts agree outside the window. -/
theorem splice_eq_splice_iff
    {left right : List α} {position length : Nat} {replacement : List α}
    (sameLength : left.length = right.length) :
    splice left position length replacement =
        splice right position length replacement ↔
      ∀ index, index < position ∨ position + length ≤ index ->
        left[index]? = right[index]? := by
  have samePrefix :
      (left.take position ++ replacement).length =
        (right.take position ++ replacement).length := by
    simp [sameLength]
  constructor
  · intro equal
    obtain ⟨fronts, backs⟩ := List.append_inj equal samePrefix
    have prefixes := List.append_cancel_right fronts
    rintro index (before | after)
    · have symbols := congrArg (fun list => list[index]?) prefixes
      simpa [List.getElem?_take, before] using symbols
    · have symbols :=
        congrArg (fun list => list[index - (position + length)]?) backs
      simpa [List.getElem?_drop, Nat.add_sub_cancel' after] using symbols
  · intro agree
    have prefixes : left.take position = right.take position := by
      apply List.ext_getElem?
      intro index
      by_cases before : index < position
      · simp [before, agree index (Or.inl before)]
      · simp [before]
    have suffixes :
        left.drop (position + length) = right.drop (position + length) := by
      apply List.ext_getElem?
      intro index
      simp only [List.getElem?_drop]
      exact agree _ (Or.inr (Nat.le_add_right _ _))
    simp only [splice, prefixes, suffixes]

/-- The symbol a splice puts at the replaced position. -/
theorem getElem?_splice_position
    (text : List α) (position length : Nat)
    (symbol : α) (replacement : List α)
    (inside : position ≤ text.length) :
    (splice text position length (symbol :: replacement))[position]? =
      some symbol := by
  have prefixLength : (text.take position).length = position := by
    simp [inside]
  simp [splice, prefixLength]

/-- Before the replaced position a splice keeps the text. -/
theorem getElem?_splice_before
    (text : List α) (position length : Nat) (replacement : List α)
    {index : Nat} (before : index < position)
    (inside : position ≤ text.length) :
    (splice text position length replacement)[index]? = text[index]? := by
  have prefixLength : (text.take position).length = position := by
    simp [inside]
  rw [splice, List.append_assoc,
    List.getElem?_append_left (by simpa [prefixLength] using before),
    List.getElem?_take_of_lt before]

/-- The replacement stands where the window was. -/
theorem occursAt_splice
    (text : List α) (position length : Nat) (replacement : List α)
    (inside : position ≤ text.length) :
    OccursAt replacement (splice text position length replacement) position := by
  have prefixLength : (text.take position).length = position := by
    simp [inside]
  rw [OccursAt, splice, List.append_assoc]
  conv_lhs => rw [← prefixLength]
  rw [prefixLength, List.drop_left' prefixLength, List.take_left]

/-- If a word occurs in one of two different texts of equal length, all but
one choice of the first replacing symbol tell the texts apart. -/
theorem replaceFirst_ne_replaceFirst [DecidableEq α] [Nonempty α]
    {word left right : List α} {position : Nat}
    (nonempty : word ≠ [])
    (sameLength : left.length = right.length)
    (different : left ≠ right)
    (found : firstOccurrence word left = some position) :
    ∃ avoided, ∀ symbol replacement, symbol ≠ avoided ->
      replaceFirst word (symbol :: replacement) left ≠
        replaceFirst word (symbol :: replacement) right := by
  obtain ⟨occursLeft, leftmostLeft⟩ :=
    (firstOccurrence_eq_some_iff nonempty).mp found
  have insideLeft := occursLeft.length_le nonempty
  cases foundRight : firstOccurrence word right with
  | none =>
      refine ⟨Classical.arbitrary α, fun symbol replacement _ => ?_⟩
      simp [replaceFirst, found, foundRight]
  | some other =>
      obtain ⟨occursRight, leftmostRight⟩ :=
        (firstOccurrence_eq_some_iff nonempty).mp foundRight
      have insideRight := occursRight.length_le nonempty
      have positive := List.length_pos_of_ne_nil nonempty
      simp only [replaceFirst, found, foundRight, Option.map_some, ne_eq,
        Option.some.injEq]
      rcases Nat.lt_trichotomy position other with before | same | after
      · -- only the left text is replaced at `position`
        have inRight : position < right.length := by omega
        refine ⟨right[position], fun symbol replacement avoids equal => avoids ?_⟩
        have symbols := congrArg (fun list => list[position]?) equal
        rw [getElem?_splice_position _ _ _ _ _ (by omega),
          getElem?_splice_before _ _ _ _ before (by omega),
          List.getElem?_eq_getElem inRight] at symbols
        exact Option.some.inj symbols
      · -- equal results would force equal texts
        subst same
        refine ⟨Classical.arbitrary α, fun symbol replacement _ equal => ?_⟩
        apply different
        apply List.ext_getElem?
        intro index
        by_cases inWindow : position ≤ index ∧ index < position + word.length
        · obtain ⟨offset, rfl⟩ := Nat.exists_eq_add_of_le inWindow.1
          rw [occursLeft.getElem?_eq (by omega),
            occursRight.getElem?_eq (by omega)]
        · exact (splice_eq_splice_iff sameLength).mp equal index (by omega)
      · -- only the right text is replaced at `other`
        have inLeft : other < left.length := by omega
        refine ⟨left[other], fun symbol replacement avoids equal => avoids ?_⟩
        have symbols := congrArg (fun list => list[other]?) equal
        rw [getElem?_splice_position _ _ _ _ _ (by omega),
          getElem?_splice_before _ _ _ _ after (by omega),
          List.getElem?_eq_getElem inLeft] at symbols
        exact (Option.some.inj symbols).symm

end TextReplace
