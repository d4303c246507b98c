import Mathlib.Data.List.Infix

/-!
# Texts made of code words

When no code word starts another one, a text is cut into words in one way only,
and reading word after word finds its longest initial part made of words.
-/

namespace PrefixCode

variable {α : Type*}

/-- No word is empty and none is an initial part of another. -/
structure PrefixFree (Word : List α -> Prop) : Prop where
  nonempty : ∀ word, Word word -> word ≠ []
  eq_of_isPrefix : ∀ first second, Word first -> Word second ->
    first <+: second -> first = second

/-- The text is a sequence of words. -/
def Formed (Word : List α -> Prop) (text : List α) : Prop :=
  ∃ words : List (List α), (∀ word ∈ words, Word word) ∧ words.flatten = text

/-- The longest initial part of a text that is a sequence of words. -/
structure Longest (Word : List α -> Prop) (text initial : List α) : Prop where
  isPrefix : initial <+: text
  formed : Formed Word initial
  maximal : ∀ other, other <+: text -> Formed Word other -> other <+: initial

theorem Formed.nil (Word : List α -> Prop) : Formed Word [] :=
  ⟨[], fun _ absent => absurd absent List.not_mem_nil, rfl⟩

theorem Formed.cons
    {Word : List α -> Prop} {word text : List α}
    (isWord : Word word) (formed : Formed Word text) :
    Formed Word (word ++ text) := by
  obtain ⟨words, isWords, rfl⟩ := formed
  exact ⟨word :: words, List.forall_mem_cons.mpr ⟨isWord, isWords⟩, rfl⟩

/-- A text of more special words is a text of the general ones. -/
theorem Formed.mono
    {Special General : List α -> Prop} {text : List α}
    (general : ∀ word, Special word -> General word)
    (formed : Formed Special text) : Formed General text := by
  obtain ⟨words, isWords, rfl⟩ := formed
  exact ⟨words, fun word member => general word (isWords word member), rfl⟩

/-- A sequence of words inside a text starts with the word the text starts
with. -/
theorem Formed.starts
    {Word : List α -> Prop} {word rest other : List α}
    (prefixFree : PrefixFree Word) (isWord : Word word)
    (inside : other <+: word ++ rest) (formed : Formed Word other) :
    other = [] ∨ ∃ later, other = word ++ later ∧ later <+: rest ∧ Formed Word later := by
  obtain ⟨words, isWords, rfl⟩ := formed
  cases words with
  | nil => exact .inl rfl
  | cons first words =>
      obtain ⟨isFirst, isWords⟩ := List.forall_mem_cons.mp isWords
      rw [List.flatten_cons] at inside
      have firstInside : first <+: word ++ rest :=
        (List.prefix_append first _).trans inside
      have same : first = word := by
        rcases List.prefix_or_prefix_of_prefix firstInside
          (List.prefix_append word rest) with shorter | longer
        · exact prefixFree.eq_of_isPrefix first word isFirst isWord shorter
        · exact (prefixFree.eq_of_isPrefix word first isWord isFirst longer).symm
      subst same
      exact .inr ⟨words.flatten, rfl, (List.prefix_append_right_inj first).mp inside,
        words, isWords, rfl⟩

/-- Reading one word. -/
theorem Longest.cons
    {Word : List α -> Prop} {word rest initial : List α}
    (prefixFree : PrefixFree Word) (isWord : Word word)
    (longest : Longest Word rest initial) :
    Longest Word (word ++ rest) (word ++ initial) where
  isPrefix := (List.prefix_append_right_inj word).mpr longest.isPrefix
  formed := Formed.cons isWord longest.formed
  maximal := by
    intro other inside formed
    rcases formed.starts prefixFree isWord inside with rfl | ⟨later, rfl, inside, formed⟩
    · exact List.nil_prefix
    · exact (List.prefix_append_right_inj word).mpr
        (longest.maximal later inside formed)

/-- A text that starts with no word has no part made of words. -/
theorem Longest.nil
    {Word : List α -> Prop} {text : List α}
    (noWord : ∀ word, Word word -> ¬word <+: text) : Longest Word text [] where
  isPrefix := List.nil_prefix
  formed := Formed.nil Word
  maximal := by
    rintro other inside ⟨words, isWords, rfl⟩
    cases words with
    | nil => exact List.nil_prefix
    | cons first words =>
        refine absurd ?_ (noWord first (isWords first List.mem_cons_self))
        rw [List.flatten_cons] at inside
        exact (List.prefix_append first _).trans inside

end PrefixCode
