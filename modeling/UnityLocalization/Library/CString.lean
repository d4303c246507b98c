import UnityLocalization.Library.Memory
import Mathlib.Data.List.TakeWhile

/-!
# NUL-terminated strings

A pointer into a string is the suffix of its buffer that starts there.  The
functions below read such a suffix up to its terminator and fault when the
buffer ends first.  `strtok` keeps its cursor as an explicit value; `tokens`
is the list of words a whole `strtok` loop visits.
-/

namespace CMemory

/-- The bytes before the terminator. -/
def stringBytes : Bytes -> Checked Bytes
  | [] => .error .outOfBounds
  | byte :: rest =>
      if byte = 0 then .ok []
      else do
        let text ← stringBytes rest
        return byte :: text

/-- The byte of a text at an index; behind its end the terminator is read. -/
def byteAt (text : Bytes) (index : Nat) : UInt8 := text.getD index 0

def strlen (string : Bytes) : Checked Nat := do
  let text ← stringBytes string
  return text.length

/-- The first occurrence of a needle as a pointer into the string. -/
def strstr (needle : Bytes) : Bytes -> Checked (Option Bytes)
  | [] => .error .outOfBounds
  | byte :: rest =>
      if needle.isPrefixOf (byte :: rest) then .ok (some (byte :: rest))
      else if byte = 0 then .ok none
      else strstr needle rest

def strcpy (destination source : Bytes) : Checked Bytes := do
  let text ← stringBytes source
  write destination 0 (text ++ [0])

def strcat (destination source : Bytes) : Checked Bytes := do
  let front ← stringBytes destination
  let text ← stringBytes source
  write destination front.length (text ++ [0])

def skipDelimiters (delimiters : Bytes) : Bytes -> Bytes
  | [] => []
  | byte :: rest =>
      if byte ∈ delimiters then skipDelimiters delimiters rest
      else byte :: rest

/-- The token that starts at the cursor and the cursor behind it.  A delimiter
that ends the token is overwritten by a terminator and passed; the terminator
of the whole text is not passed. -/
def scanToken (delimiters : Bytes) : Bytes -> Checked (Bytes × Bytes)
  | [] => .error .outOfBounds
  | byte :: rest =>
      if byte = 0 then .ok ([], byte :: rest)
      else if byte ∈ delimiters then .ok ([], rest)
      else do
        let (token, cursor) ← scanToken delimiters rest
        return (byte :: token, cursor)

/-- One `strtok` call: the next token as a terminated string, with the new
cursor, or null at the end of the text. -/
def strtok (delimiters cursor : Bytes) : Checked (Option (Bytes × Bytes)) :=
  match skipDelimiters delimiters cursor with
  | [] => .error .outOfBounds
  | byte :: rest =>
      if byte = 0 then .ok none
      else do
        let (token, next) ← scanToken delimiters (byte :: rest)
        return some (token ++ [0], next)

/-! ## Reading terminated strings -/

theorem stringBytes_terminated
    (text rest : Bytes) (terminated : 0 ∉ text) :
    stringBytes (text ++ 0 :: rest) = .ok text := by
  induction text with
  | nil => simp [stringBytes]
  | cons byte text inductionHypothesis =>
      simp only [List.mem_cons, not_or] at terminated
      have nonzero : ¬byte = 0 := fun equal => terminated.1 equal.symm
      simp [stringBytes, nonzero, inductionHypothesis terminated.2]

theorem zero_not_mem_takeWhile (text : Bytes) :
    0 ∉ text.takeWhile fun byte => byte ≠ 0 := by
  intro present
  have kept := List.mem_takeWhile_imp present
  simp at kept

/-- In front of a zero byte there is always a terminated string. -/
theorem exists_terminated (text rest : Bytes) :
    ∃ more, text ++ 0 :: rest = (text.takeWhile fun byte => byte ≠ 0) ++ 0 :: more := by
  induction text with
  | nil => exact ⟨rest, rfl⟩
  | cons byte text inductionHypothesis =>
      by_cases zero : byte = 0
      · subst zero
        exact ⟨text ++ 0 :: rest, rfl⟩
      · obtain ⟨more, split⟩ := inductionHypothesis
        refine ⟨more, ?_⟩
        rw [List.takeWhile_cons_of_pos (by simpa using zero), List.cons_append,
          List.cons_append, split]

theorem byteAt_of_le {text : Bytes} {index : Nat} (behind : text.length ≤ index) :
    byteAt text index = 0 := by
  simp [byteAt, List.getD_eq_getElem?_getD, behind]

theorem byteAt_zero_ne {text : Bytes} (nonempty : text ≠ []) (terminated : 0 ∉ text) :
    byteAt text 0 ≠ 0 := by
  cases text with
  | nil => exact absurd rfl nonempty
  | cons byte rest =>
      intro zero
      apply terminated
      have head : byte = 0 := by simpa [byteAt] using zero
      simp [head]

theorem load_terminated
    (text rest : Bytes) {index : Nat} (inside : index ≤ text.length) :
    load (regionOf (text ++ 0 :: rest)) index = .ok (byteAt text index) := by
  have bounded : index < (text ++ 0 :: rest).length := by
    simp only [List.length_append, List.length_cons]
    omega
  rw [load_regionOf _ _ bounded, List.getElem_append, byteAt]
  split
  case isTrue within => simp [List.getD_eq_getElem?_getD, within]
  case isFalse behind =>
    have atEnd : index = text.length := by omega
    subst atEnd
    simp

theorem strlen_terminated
    (text rest : Bytes) (terminated : 0 ∉ text) :
    strlen (text ++ 0 :: rest) = .ok text.length := by
  simp [strlen, stringBytes_terminated text rest terminated]

theorem strcpy_eq_write
    (destination text rest : Bytes) (terminated : 0 ∉ text) :
    strcpy destination (text ++ 0 :: rest) = write destination 0 (text ++ [0]) := by
  rw [strcpy, stringBytes_terminated text rest terminated, ok_bind]

/-- A string is appended if it fits behind the text with its terminator. -/
theorem strcat_terminated
    {front text : Bytes} (rest more : Bytes)
    (frontTerminated : 0 ∉ front) (textTerminated : 0 ∉ text) :
    strcat (front ++ 0 :: rest) (text ++ 0 :: more) =
      if text.length ≤ rest.length then
        .ok (front ++ text ++ 0 :: rest.drop text.length)
      else .error .outOfBounds := by
  rw [strcat, stringBytes_terminated front rest frontTerminated, ok_bind,
    stringBytes_terminated text more textTerminated, ok_bind]
  have room : front.length + (text ++ [0]).length ≤ (front ++ 0 :: rest).length ↔
      text.length ≤ rest.length := by
    simp only [List.length_append, List.length_cons, List.length_nil]
    omega
  by_cases fits : text.length ≤ rest.length
  · have behind : (front ++ 0 :: rest).drop (front.length + (text ++ [0]).length) =
        rest.drop text.length := by
      simp [List.drop_append]
    rw [if_pos fits, write_of_le _ _ _ (room.mpr fits), List.take_left, behind]
    simp
  · rw [if_neg fits, write, if_neg (fun inside => fits (room.mp inside))]

/-- Searching for one byte finds the suffix after the part without it. -/
theorem strstr_singleton_found
    (before after : Bytes) (needle : UInt8)
    (terminated : 0 ∉ before) (absent : needle ∉ before) :
    strstr [needle] (before ++ needle :: after) =
      .ok (some (needle :: after)) := by
  induction before with
  | nil => simp [strstr, List.isPrefixOf]
  | cons byte before inductionHypothesis =>
      simp only [List.mem_cons, not_or] at terminated absent
      have nonzero : ¬byte = 0 := fun equal => terminated.1 equal.symm
      have found := inductionHypothesis terminated.2 absent.2
      simp [strstr, List.isPrefixOf, absent.1, nonzero, found]

/-- Searching a text for a byte it does not have finds nothing. -/
theorem strstr_singleton_absent
    (text rest : Bytes) (needle : UInt8)
    (terminated : 0 ∉ text) (absent : needle ∉ text) (nonzero : needle ≠ 0) :
    strstr [needle] (text ++ 0 :: rest) = .ok none := by
  induction text with
  | nil => simp [strstr, List.isPrefixOf, nonzero]
  | cons byte text inductionHypothesis =>
      simp only [List.mem_cons, not_or] at terminated absent
      have continues : ¬byte = 0 := fun equal => terminated.1 equal.symm
      have rest := inductionHypothesis terminated.2 absent.2
      simp [strstr, List.isPrefixOf, absent.1, continues, rest]

/-- A needle without the separator does not reach into it. -/
theorem prefix_append_cons_iff
    {needle : List α} (text rest : List α) {separator : α} (absent : separator ∉ needle) :
    needle <+: text ++ separator :: rest ↔ needle <+: text := by
  constructor
  · intro found
    rcases Nat.lt_or_ge text.length needle.length with longer | shorter
    · have through : text ++ [separator] <+: needle :=
        List.prefix_of_prefix_length_le ⟨rest, by simp⟩ found
          (by simpa using Nat.succ_le_of_lt longer)
      exact absurd (through.subset (by simp)) absent
    · exact List.prefix_of_prefix_length_le found (List.prefix_append text _) shorter
  · exact fun inside => inside.trans (List.prefix_append text _)

/-- A needle without the separator occurs on one side of it. -/
theorem infix_append_cons
    {needle text rest : List α} {separator : α} (absent : separator ∉ needle)
    (found : needle <:+: text ++ separator :: rest) :
    needle <:+: text ∨ needle <:+: rest := by
  induction text with
  | nil =>
      rw [List.nil_append, List.infix_cons_iff] at found
      refine found.imp_left fun starts => ?_
      exact ((prefix_append_cons_iff [] rest absent).mp starts).isInfix
  | cons element text inductionHypothesis =>
      rw [List.cons_append, List.infix_cons_iff] at found
      rcases found with starts | later
      · exact .inl ((prefix_append_cons_iff (element :: text) rest absent).mp
          starts).isInfix
      · exact (inductionHypothesis later).imp_left fun inside =>
          inside.trans (List.suffix_cons element text).isInfix

/-- Searching a text finds every needle it has. -/
theorem strstr_terminated
    {needle : Bytes} (text rest : Bytes) (clean : 0 ∉ needle) (terminated : 0 ∉ text) :
    ∃ found, strstr needle (text ++ 0 :: rest) = .ok found ∧
      (found.isSome ↔ needle <:+: text) := by
  induction text with
  | nil =>
      have atEnd : needle.isPrefixOf (0 :: rest) = true ↔ needle <+: [] :=
        List.isPrefixOf_iff_prefix.trans (prefix_append_cons_iff [] rest clean)
      rw [List.nil_append]
      by_cases empty : needle = []
      · refine ⟨some (0 :: rest), ?_, by simp [empty]⟩
        rw [strstr, if_pos (atEnd.mpr (by simp [empty]))]
      · refine ⟨none, ?_, by simpa using empty⟩
        rw [strstr, if_neg (fun found => empty (List.prefix_nil.mp (atEnd.mp found))),
          if_pos rfl]
  | cons byte text inductionHypothesis =>
      simp only [List.mem_cons, not_or] at terminated
      obtain ⟨found, searched, occurs⟩ := inductionHypothesis terminated.2
      have here : needle.isPrefixOf (byte :: (text ++ 0 :: rest)) = true ↔
          needle <+: byte :: text :=
        List.isPrefixOf_iff_prefix.trans
          (prefix_append_cons_iff (byte :: text) rest clean)
      rw [List.cons_append]
      by_cases starts : needle <+: byte :: text
      · refine ⟨some (byte :: (text ++ 0 :: rest)), ?_, by simp [starts.isInfix]⟩
        rw [strstr, if_pos (here.mpr starts)]
      · refine ⟨found, ?_, ?_⟩
        · rw [strstr, if_neg (fun found => starts (here.mp found)),
            if_neg (Ne.symm terminated.1), searched]
        · rw [occurs, List.infix_cons_iff]
          exact (or_iff_right starts).symm

/-! ## Tokens -/

/-- The words of a text between delimiters. -/
def tokens (delimiters text : Bytes) : List Bytes :=
  (text.splitOnP fun byte => byte ∈ delimiters).filter fun word => word ≠ []

@[simp] theorem tokens_nil (delimiters : Bytes) : tokens delimiters [] = [] := by
  simp [tokens]

theorem tokens_cons_delimiter
    {delimiters : Bytes} {byte : UInt8} (text : Bytes)
    (delimiter : byte ∈ delimiters) :
    tokens delimiters (byte :: text) = tokens delimiters text := by
  simp [tokens, List.splitOnP_cons_eq_if_modifyHead, delimiter]

/-- Scanning returns the first word and leaves a cursor from which the
remaining words are found. -/
theorem scanToken_terminated
    (delimiters text rest : Bytes) (terminated : 0 ∉ text) :
    ∃ word words remaining,
      scanToken delimiters (text ++ 0 :: rest) =
        .ok (word, remaining ++ 0 :: rest) ∧
      text.splitOnP (fun byte => byte ∈ delimiters) = word :: words ∧
      words.filter (fun word => word ≠ []) = tokens delimiters remaining ∧
      0 ∉ remaining ∧ remaining.length ≤ text.length := by
  induction text with
  | nil => exact ⟨[], [], [], by simp [scanToken], by simp, by simp, by simp, by simp⟩
  | cons byte text inductionHypothesis =>
      simp only [List.mem_cons, not_or] at terminated
      have nonzero : ¬byte = 0 := fun equal => terminated.1 equal.symm
      by_cases delimiter : byte ∈ delimiters
      · refine ⟨[], text.splitOnP fun byte => byte ∈ delimiters, text,
          ?_, ?_, rfl, terminated.2, by simp⟩
        · simp [scanToken, nonzero, delimiter]
        · simp [List.splitOnP_cons_eq_if_modifyHead, delimiter]
      · obtain ⟨word, words, remaining, scanned, split, others, clean, shorter⟩ :=
          inductionHypothesis terminated.2
        refine ⟨byte :: word, words, remaining, ?_, ?_, others, clean, ?_⟩
        · simp [scanToken, nonzero, delimiter, scanned]
        · simp [List.splitOnP_cons_eq_if_modifyHead, delimiter, split]
        · simp only [List.length_cons]
          omega

/-- `strtok` returns null exactly when no word is left; otherwise it returns
the first word and a cursor from which the remaining words are found. -/
theorem strtok_terminated
    (delimiters text rest : Bytes)
    (terminated : 0 ∉ text) (delimited : 0 ∉ delimiters) :
    (tokens delimiters text = [] ∧
      strtok delimiters (text ++ 0 :: rest) = .ok none) ∨
    ∃ word words remaining,
      tokens delimiters text = word :: words ∧
      strtok delimiters (text ++ 0 :: rest) =
        .ok (some (word ++ [0], remaining ++ 0 :: rest)) ∧
      tokens delimiters remaining = words ∧
      0 ∉ remaining := by
  induction text with
  | nil => left; simp [strtok, skipDelimiters, delimited]
  | cons byte text inductionHypothesis =>
      simp only [List.mem_cons, not_or] at terminated
      have nonzero : ¬byte = 0 := fun equal => terminated.1 equal.symm
      by_cases delimiter : byte ∈ delimiters
      · have skipped : strtok delimiters (byte :: text ++ 0 :: rest) =
            strtok delimiters (text ++ 0 :: rest) := by
          simp [strtok, skipDelimiters, delimiter]
        rw [tokens_cons_delimiter text delimiter, skipped]
        exact inductionHypothesis terminated.2
      · obtain ⟨word, words, remaining, scanned, split, others, clean, -⟩ :=
          scanToken_terminated delimiters text rest terminated.2
        right
        refine ⟨byte :: word, tokens delimiters remaining, remaining, ?_, ?_,
          rfl, clean⟩
        · rw [← others]
          simp [tokens, List.splitOnP_cons_eq_if_modifyHead, delimiter, split]
        · simp [strtok, skipDelimiters, scanToken, delimiter, nonzero, scanned]

/-- The result of a `strtok` call from which a loop visits the given words:
null for none, else the first word and a cursor in front of the others. -/
def Visits (delimiters : Bytes) :
    Option (Bytes × Bytes) -> List Bytes -> Prop
  | none, [] => True
  | some (token, cursor), word :: words =>
      token = word ++ [0] ∧ ∃ remaining rest, cursor = remaining ++ 0 :: rest ∧
        0 ∉ remaining ∧ tokens delimiters remaining = words
  | _, _ => False

/-- A `strtok` loop over a text visits its words. -/
theorem strtok_visits
    (delimiters text rest : Bytes)
    (terminated : 0 ∉ text) (delimited : 0 ∉ delimiters) :
    ∃ token, strtok delimiters (text ++ 0 :: rest) = .ok token ∧
      Visits delimiters token (tokens delimiters text) := by
  rcases strtok_terminated delimiters text rest terminated delimited with
    ⟨noWords, ended⟩ | ⟨word, words, remaining, split, found, others, clean⟩
  · exact ⟨none, ended, by rw [noWords]; trivial⟩
  · refine ⟨_, found, ?_⟩
    rw [split]
    exact ⟨rfl, remaining, rest, rfl, clean, others⟩

theorem Visits.eq_none
    {delimiters : Bytes} {token : Option (Bytes × Bytes)}
    (visits : Visits delimiters token []) : token = none := by
  cases token with
  | none => rfl
  | some found => exact absurd visits id

/-- At a word the loop holds its token, and the next call leads to the words
behind it. -/
theorem Visits.exists_next
    {delimiters word : Bytes} {token : Option (Bytes × Bytes)} {words : List Bytes}
    (visits : Visits delimiters token (word :: words)) (delimited : 0 ∉ delimiters) :
    ∃ cursor next, token = some (word ++ [0], cursor) ∧
      strtok delimiters cursor = .ok next ∧ Visits delimiters next words := by
  cases token with
  | none => exact absurd visits id
  | some found =>
      obtain ⟨p, cursor⟩ := found
      obtain ⟨rfl, remaining, rest, rfl, clean, others⟩ := visits
      obtain ⟨next, scanned, visitsNext⟩ :=
        strtok_visits delimiters remaining rest clean delimited
      rw [others] at visitsNext
      exact ⟨_, next, rfl, scanned, visitsNext⟩

/-! ## Progress of the cursor -/

theorem length_le_of_scanToken
    {delimiters cursor token next : Bytes}
    (scanned : scanToken delimiters cursor = .ok (token, next)) :
    next.length ≤ cursor.length := by
  induction cursor generalizing token with
  | nil => cases scanned
  | cons byte rest inductionHypothesis =>
      simp only [scanToken] at scanned
      split at scanned
      · cases scanned
        exact le_rfl
      · split at scanned
        · cases scanned
          simp
        · obtain ⟨⟨word, cursor⟩, scannedRest, equal⟩ := bind_eq_ok.mp scanned
          cases equal
          have shorter := inductionHypothesis scannedRest
          simp only [List.length_cons]
          exact Nat.le_succ_of_le shorter

theorem length_skipDelimiters_le (delimiters cursor : Bytes) :
    (skipDelimiters delimiters cursor).length ≤ cursor.length := by
  induction cursor with
  | nil => simp [skipDelimiters]
  | cons byte rest inductionHypothesis =>
      simp only [skipDelimiters]
      split
      · simp only [List.length_cons]
        omega
      · exact le_rfl

/-- Each token found moves the cursor on, so a `strtok` loop ends. -/
theorem length_lt_of_strtok
    {delimiters cursor token next : Bytes}
    (found : strtok delimiters cursor = .ok (some (token, next))) :
    next.length < cursor.length := by
  have skipped := length_skipDelimiters_le delimiters cursor
  unfold strtok at found
  split at found
  case h_1 => cases found
  case h_2 byte rest start =>
    rw [start, List.length_cons] at skipped
    split at found
    · cases found
    · rename_i nonzero
      obtain ⟨⟨word, cursorAfter⟩, scanned, equal⟩ := bind_eq_ok.mp found
      cases equal
      simp only [scanToken, nonzero, if_false] at scanned
      split at scanned
      · cases scanned
        omega
      · obtain ⟨⟨word, cursorAfter⟩, scannedRest, equal⟩ := bind_eq_ok.mp scanned
        cases equal
        have shorter := length_le_of_scanToken scannedRest
        exact Nat.lt_of_lt_of_le (Nat.lt_succ_of_le shorter) skipped

/-- Induction along a `strtok` loop: a token rests on those the next call can
return. -/
@[elab_as_elim]
theorem strtok_induction
    (delimiters : Bytes) {motive : Option (Bytes × Bytes) -> Prop}
    (ended : motive none)
    (found : ∀ p cursor,
      (∀ next, strtok delimiters cursor = .ok next -> motive next) ->
        motive (some (p, cursor)))
    (token : Option (Bytes × Bytes)) : motive token := by
  induction measured : (token.map fun pair => pair.2.length + 1).getD 0
    using Nat.strong_induction_on generalizing token with
  | h size inductionHypothesis =>
      cases token with
      | none => exact ended
      | some pair =>
          obtain ⟨p, cursor⟩ := pair
          refine found p cursor fun next scanned => inductionHypothesis _ ?_ next rfl
          rw [← measured]
          cases next with
          | none => simp
          | some other => simpa using length_lt_of_strtok scanned

end CMemory
