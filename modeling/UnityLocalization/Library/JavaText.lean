import UnityLocalization.Library.Replace

/-!
# Java texts and exceptions

A reference to a text may be null.  Operations on texts follow `java.lang.String`,
and a call that may throw returns an `Outcome`.
-/

namespace JavaText

open TextReplace

abbrev JavaString := List Char

structure JavaException where
  /-- The detail message, which may be null. -/
  getMessage : Option JavaString
  deriving DecidableEq

abbrev Outcome := Except JavaException

/-- Null and the text without characters are empty. -/
def isEmpty (text : Option JavaString) : Bool := text.getD [] == []

/-- `text.replace(symbol, "")` for a single character -/
def without (symbol : Char) (text : JavaString) : JavaString := text.filter (· ≠ symbol)

/-- `text.indexOf(part)`, nothing where Java has -1 -/
def indexOf (part text : JavaString) : Option Nat := firstOccurrence part text

/-- `text.trim()` removes the characters up to U+0020 at both ends. -/
def trim (text : JavaString) : JavaString :=
  ((text.dropWhile (· ≤ ' ')).reverse.dropWhile (· ≤ ' ')).reverse

/-- `text.substring(beginIndex, endIndex)`, nothing where it throws -/
def substring (text : JavaString) (beginIndex endIndex : Nat) : Option JavaString :=
  if beginIndex ≤ endIndex ∧ endIndex ≤ text.length then
    some ((text.take endIndex).drop beginIndex)
  else none

/-- The first line that `BufferedReader.readLine` returns, null behind the end. -/
def firstLine (content : JavaString) : Option JavaString :=
  if content = [] then none else some (content.takeWhile fun c => c ≠ '\n' ∧ c ≠ '\r')

@[simp] theorem outcome_ok_bind (value : α) (next : α -> Outcome β) :
    ((.ok value : Outcome α) >>= next) = next value := rfl

@[simp] theorem outcome_error_bind (e : JavaException) (next : α -> Outcome β) :
    ((.error e : Outcome α) >>= next) = .error e := rfl

@[simp] theorem outcome_pure (value : α) : (pure value : Outcome α) = .ok value := rfl

@[simp] theorem isEmpty_none : isEmpty none = true := rfl

@[simp] theorem isEmpty_some (text : JavaString) : isEmpty (some text) = (text == []) := rfl

theorem indexOf_singleton_eq_none_iff (symbol : Char) (text : JavaString) :
    indexOf [symbol] text = none ↔ symbol ∉ text := by
  rw [indexOf, firstOccurrence_eq_none_iff (List.cons_ne_nil _ _)]
  constructor
  · intro absent present
    obtain ⟨position, inside, rfl⟩ := List.getElem_of_mem present
    apply absent position
    rw [OccursAt, List.drop_eq_getElem_cons inside]
    rfl
  · intro absent position occurs
    have present : symbol ∈ (text.drop position).take 1 := by
      have window : (text.drop position).take 1 = [symbol] := occurs
      rw [window]
      exact List.mem_singleton_self symbol
    exact absent (List.mem_of_mem_drop (List.mem_of_mem_take present))

end JavaText
