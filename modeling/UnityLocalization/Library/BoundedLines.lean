import Mathlib.Data.List.Basic

/-!
# Reading lines through a buffer of bounded size

A read takes elements up to a delimiter, or up to the limit if that comes first.
Reads never run into the next line, so a text of lines is read line by line, a
long line in several pieces.
-/

namespace BoundedLines

variable {α : Type*} [DecidableEq α]

/-- One read of at most `limit` elements: the piece and the text behind it. -/
def readPiece (delimiter : α) : Nat -> List α -> List α × List α
  | 0, text => ([], text)
  | _ + 1, [] => ([], [])
  | limit + 1, element :: text =>
      if element = delimiter then ([element], text)
      else
        let (piece, rest) := readPiece delimiter limit text
        (element :: piece, rest)

variable (delimiter : α)

/-- The piece and the rest are the text. -/
theorem readPiece_append (limit : Nat) (text : List α) :
    (readPiece delimiter limit text).1 ++ (readPiece delimiter limit text).2 = text := by
  fun_induction readPiece delimiter limit text with
  | case1 text => rfl
  | case2 => rfl
  | case3 => rfl
  | case4 limit element text different piece rest equal inductionHypothesis =>
      rw [equal] at inductionHypothesis
      simpa using inductionHypothesis

theorem length_readPiece_le (limit : Nat) (text : List α) :
    (readPiece delimiter limit text).1.length ≤ limit := by
  fun_induction readPiece delimiter limit text with
  | case1 text => exact Nat.le_refl _
  | case2 => exact Nat.zero_le _
  | case3 => simp
  | case4 limit element text different piece rest equal inductionHypothesis =>
      rw [equal] at inductionHypothesis
      exact Nat.succ_le_succ inductionHypothesis

/-- A read at an element makes progress. -/
theorem length_readPiece_lt (limit : Nat) {text : List α} (nonempty : text ≠ []) :
    (readPiece delimiter (limit + 1) text).2.length < text.length := by
  obtain ⟨element, text, rfl⟩ := List.exists_cons_of_ne_nil nonempty
  have whole := congrArg List.length (readPiece_append delimiter (limit + 1) (element :: text))
  have taken : 0 < (readPiece delimiter (limit + 1) (element :: text)).1.length := by
    rw [readPiece]
    split <;> simp
  rw [List.length_append] at whole
  omega

/-- The pieces of at most `limit + 1` elements that a text is read in. -/
def pieces (delimiter : α) (limit : Nat) (text : List α) : List (List α) :=
  if _nonempty : text = [] then []
  else
    (readPiece delimiter (limit + 1) text).1 ::
      pieces delimiter limit (readPiece delimiter (limit + 1) text).2
termination_by text.length
decreasing_by exact length_readPiece_lt delimiter limit _nonempty

@[simp] theorem pieces_nil (limit : Nat) : pieces delimiter limit [] = [] := by
  rw [pieces, dif_pos rfl]

theorem pieces_of_ne_nil (limit : Nat) {text : List α} (nonempty : text ≠ []) :
    pieces delimiter limit text =
      (readPiece delimiter (limit + 1) text).1 ::
        pieces delimiter limit (readPiece delimiter (limit + 1) text).2 := by
  rw [pieces, dif_neg nonempty]

/-- A read that reaches the delimiter takes the line, whatever stands behind it. -/
theorem readPiece_of_le
    {line : List α} (undelimited : delimiter ∉ line) {limit : Nat}
    (short : line.length < limit) (rest : List α) :
    readPiece delimiter limit (line ++ delimiter :: rest) = (line ++ [delimiter], rest) := by
  induction line generalizing limit with
  | nil =>
      obtain ⟨limit, rfl⟩ := Nat.exists_eq_succ_of_ne_zero (Nat.ne_of_gt short)
      simp [readPiece]
  | cons element line inductionHypothesis =>
      simp only [List.mem_cons, not_or] at undelimited
      obtain ⟨limit, rfl⟩ := Nat.exists_eq_succ_of_ne_zero (by omega : limit ≠ 0)
      have shorter : line.length < limit := by simpa using short
      simp [readPiece, Ne.symm undelimited.1,
        inductionHypothesis undelimited.2 shorter]

/-- A read that stops before the delimiter takes as many elements as it may. -/
theorem readPiece_of_ge
    {line : List α} (undelimited : delimiter ∉ line) {limit : Nat}
    (long : limit ≤ line.length) (rest : List α) :
    readPiece delimiter limit (line ++ rest) =
      (line.take limit, line.drop limit ++ rest) := by
  induction line generalizing limit with
  | nil =>
      obtain rfl : limit = 0 := Nat.le_zero.mp long
      rfl
  | cons element line inductionHypothesis =>
      simp only [List.mem_cons, not_or] at undelimited
      cases limit with
      | zero => rfl
      | succ limit =>
          have longer : limit ≤ line.length := by simpa using long
          simp [readPiece, Ne.symm undelimited.1,
            inductionHypothesis undelimited.2 longer]

/-- A read takes what stands before the delimiter and within the limit. -/
theorem readPiece_fst_append
    {head : List α} (undelimited : delimiter ∉ head) {limit : Nat}
    (short : head.length ≤ limit) (rest : List α) :
    (readPiece delimiter limit (head ++ rest)).1 =
      head ++ (readPiece delimiter (limit - head.length) rest).1 := by
  induction head generalizing limit with
  | nil => rfl
  | cons element head inductionHypothesis =>
      simp only [List.mem_cons, not_or] at undelimited
      obtain ⟨limit, rfl⟩ := Nat.exists_eq_succ_of_ne_zero
        (Nat.ne_of_gt (Nat.lt_of_lt_of_le (Nat.succ_pos head.length) short))
      have shorter : head.length ≤ limit := Nat.le_of_succ_le_succ short
      simp [readPiece, Ne.symm undelimited.1,
        inductionHypothesis undelimited.2 shorter]

/-- No piece runs from a line into the text behind it. -/
theorem pieces_line_append
    {line : List α} (undelimited : delimiter ∉ line) (limit : Nat) (rest : List α) :
    pieces delimiter limit (line ++ delimiter :: rest) =
      pieces delimiter limit (line ++ [delimiter]) ++ pieces delimiter limit rest := by
  induction measured : line.length using Nat.strongRecOn generalizing line with
  | ind size inductionHypothesis =>
      rw [pieces_of_ne_nil delimiter limit (by simp : line ++ delimiter :: rest ≠ []),
        pieces_of_ne_nil delimiter limit (by simp : line ++ [delimiter] ≠ [])]
      by_cases short : line.length < limit + 1
      · rw [readPiece_of_le delimiter undelimited short rest,
          readPiece_of_le delimiter undelimited short []]
        simp
      · have long : limit + 1 ≤ line.length := Nat.le_of_not_lt short
        have fewer : (line.drop (limit + 1)).length < size := by
          rw [List.length_drop]
          omega
        rw [readPiece_of_ge delimiter undelimited long,
          readPiece_of_ge delimiter undelimited long, List.cons_append,
          inductionHypothesis _ fewer
            (fun present => undelimited (List.mem_of_mem_drop present)) rfl]

/-- A text of lines is read line by line. -/
theorem pieces_lines
    (limit : Nat) (lines : List (List α))
    (undelimited : ∀ line, line ∈ lines -> delimiter ∉ line) :
    pieces delimiter limit (lines.flatMap fun line => line ++ [delimiter]) =
      lines.flatMap fun line => pieces delimiter limit (line ++ [delimiter]) := by
  induction lines with
  | nil => simp
  | cons line lines inductionHypothesis =>
      obtain ⟨here, later⟩ := List.forall_mem_cons.mp undelimited
      rw [List.flatMap_cons, List.flatMap_cons, ← inductionHypothesis later,
        List.append_assoc, List.singleton_append, pieces_line_append delimiter here]

end BoundedLines
