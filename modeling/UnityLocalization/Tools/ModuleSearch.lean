import UnityLocalization.Library.BoundedLines
import UnityLocalization.Library.Strtol

/-!
# Searching the list of mapped modules

`findModuleByName` reads `/proc/<pid>/maps` through a buffer of 256 bytes.  A line
that does not fit is read in pieces, and each piece is tested as if it were a line.
-/

namespace UnityLocalization
namespace Tools

open CMemory BoundedLines

abbrev newline : UInt8 := 0x0A

abbrev dash : UInt8 := 0x2D

/-- `fgets(cmdline, size, fp)`: the bytes read and the rest of the stream, or null at
its end. -/
def fgets (size : Nat) (stream : Bytes) : Option (Bytes × Bytes) :=
  if stream = [] then none else some (readPiece newline (size - 1) stream)

/-- `r-xp` -/
def codePermissions : Bytes := [0x72, 0x2D, 0x78, 0x70]

/-- Cut the line at `str`, which points into it, and read what stands before it as a
hexadecimal number. -/
def readAddress (cmdline num str : Bytes) : Checked UInt32 := do
  let cmdline ← store cmdline (cmdline.length - str.length) 0
  let address ← stringBytes cmdline
  let num ← write num 0 ([0x30, 0x78] ++ address ++ [0])
  strtoul num

/-- The `while` loop. -/
def findModuleLoop (soName cmdline num maps : Bytes) : Checked UInt32 :=
  match _next : fgets 256 maps with
  | none => .ok 0
  | some (line, rest) => do
      let cmdline ← write cmdline 0 (line ++ [0])
      let found ← andAlso
        (do let name ← strstr soName cmdline; return name.isSome)
        (do let permissions ← strstr codePermissions cmdline; return permissions.isSome)
      let str ← if found then strstr [dash] cmdline else .ok none
      match str with
      | some str => readAddress cmdline num str
      | none => do
          let cmdline ← memset cmdline 0 256
          findModuleLoop soName cmdline num rest
termination_by maps.length
decreasing_by
  rw [fgets] at _next
  split at _next
  · cases _next
  case isFalse nonempty =>
    have shorter := length_readPiece_lt newline 254 nonempty
    rw [Option.some.inj _next] at shorter
    exact shorter

/-- `find_module_by_name(soName)`, where `maps` is missing when the file cannot be
opened.  The two local buffers hold anything. -/
def findModuleByName (soName cmdline num : Bytes) (maps : Option Bytes) : Checked UInt32 :=
  match maps with
  | none => .ok 0
  | some maps => findModuleLoop soName cmdline num maps

/-! ## One piece -/

/-- The piece has the name and the permissions, wherever they stand. -/
def Passes (soName piece : Bytes) : Prop :=
  soName <:+: piece ∧ codePermissions <:+: piece

instance (soName piece : Bytes) : Decidable (Passes soName piece) :=
  inferInstanceAs (Decidable (_ ∧ _))

/-- The part before the first `-`. -/
def beforeDash (piece : Bytes) : Bytes := piece.takeWhile fun byte => byte ≠ dash

/-- The number before the first `-`, if its text fits the buffer `num`. -/
def addressIn (piece : Bytes) : Option UInt32 :=
  if (beforeDash piece).length ≤ 29 then
    some (UInt32.ofNat (min (leadingHex 0 (beforeDash piece)) 4294967295))
  else none

/-- The outcome of reading the number of a piece. -/
def readOutcome (piece : Bytes) : Checked UInt32 :=
  (addressIn piece).elim (.error .outOfBounds) .ok

/-- A piece that passes has a `-`. -/
theorem Passes.dash_mem {soName piece : Bytes} (passes : Passes soName piece) :
    dash ∈ piece :=
  passes.2.subset (by decide)

theorem beforeDash_append {before : Bytes} (after : Bytes) (undashed : dash ∉ before) :
    beforeDash (before ++ dash :: after) = before := by
  rw [beforeDash, List.takeWhile_append_of_pos]
  · simp
  · intro byte member
    simpa using fun equal : byte = dash => undashed (equal ▸ member)

/-- Cutting a line at its first `-` reads the number before it, whatever stands
behind it. -/
theorem readAddress_eq
    {num before : Bytes} (after other : Bytes) (numSize : num.length = 32)
    (terminated : 0 ∉ before) (undashed : dash ∉ before) :
    readAddress (before ++ dash :: after) num (dash :: after) =
      readOutcome (before ++ dash :: other) := by
  have position : (before ++ dash :: after).length - (dash :: after).length =
      before.length := by
    rw [List.length_append, Nat.add_sub_cancel]
  have stored : store (before ++ dash :: after) before.length 0 =
      .ok (before ++ 0 :: after) := by
    rw [store_of_lt _ _ _ (by simp), List.set_append_right _ _ le_rfl]
    simp
  rw [readAddress, position, stored, ok_bind, stringBytes_terminated before after terminated,
    ok_bind, readOutcome, addressIn, beforeDash_append other undashed]
  by_cases fits : before.length ≤ 29
  · have inside : 0 + ([0x30, 0x78] ++ before ++ [0] : Bytes).length ≤ num.length := by
      simp
      omega
    have text : num.take 0 ++ ([0x30, 0x78] ++ before ++ [0]) ++
        num.drop (0 + ([0x30, 0x78] ++ before ++ [0] : Bytes).length) =
          0x30 :: 0x78 :: (before ++ 0 :: num.drop (before.length + 3)) := by
      simp
    rw [if_pos fits, write_of_le _ _ _ inside, ok_bind, text, strtoul_prefixed]
    rfl
  · have outside : ¬0 + ([0x30, 0x78] ++ before ++ [0] : Bytes).length ≤ num.length := by
      simp
      omega
    rw [if_neg fits, write, if_neg outside]
    rfl

/-- The two tests of the loop, on a piece in its buffer. -/
theorem tests_eq
    {soName piece : Bytes} (rest : Bytes) (clean : 0 ∉ soName) (terminated : 0 ∉ piece) :
    andAlso
      (do let name ← strstr soName (piece ++ 0 :: rest); return name.isSome)
      (do
        let permissions ← strstr codePermissions (piece ++ 0 :: rest)
        return permissions.isSome) =
      .ok (decide (Passes soName piece)) := by
  obtain ⟨name, searchedName, hasName⟩ := strstr_terminated piece rest clean terminated
  obtain ⟨permissions, searchedPermissions, hasPermissions⟩ :=
    strstr_terminated piece rest (show (0 : UInt8) ∉ codePermissions by decide) terminated
  rw [searchedName, searchedPermissions]
  simp only [ok_bind, pure_eq_ok, andAlso_ok, Passes, ← hasName, ← hasPermissions]
  cases name.isSome <;> simp

/-- A piece that passes is cut at its first `-`. -/
theorem exists_dash
    {soName piece num : Bytes} (rest : Bytes) (numSize : num.length = 32)
    (terminated : 0 ∉ piece) (passes : Passes soName piece) :
    ∃ str, strstr [dash] (piece ++ 0 :: rest) = .ok (some str) ∧
      readAddress (piece ++ 0 :: rest) num str = readOutcome piece := by
  obtain ⟨before, after, rfl, undashed⟩ := List.eq_append_cons_of_mem passes.dash_mem
  have beforeClean : 0 ∉ before := fun present =>
    terminated (List.mem_append_left _ present)
  rw [List.append_assoc, List.cons_append]
  exact ⟨_, strstr_singleton_found before (after ++ 0 :: rest) dash beforeClean undashed,
    readAddress_eq _ after numSize beforeClean undashed⟩

/-! ## The loop -/

/-- One turn of the loop: the first piece is read, and its number too if it
passes. -/
theorem findModuleLoop_of_ne_nil
    {soName cmdline num maps : Bytes}
    (cmdlineSize : cmdline.length = 256) (numSize : num.length = 32)
    (clean : 0 ∉ soName) (terminated : 0 ∉ maps) (nonempty : maps ≠ []) :
    ∃ cmdlineAfter, cmdlineAfter.length = 256 ∧
      findModuleLoop soName cmdline num maps =
        if Passes soName (readPiece newline 255 maps).1 then
          readOutcome (readPiece newline 255 maps).1
        else findModuleLoop soName cmdlineAfter num (readPiece newline 255 maps).2 := by
  have next : fgets 256 maps = some (readPiece newline 255 maps) := if_neg nonempty
  have whole := readPiece_append newline 255 maps
  have bounded := length_readPiece_le newline 255 maps
  generalize readPiece newline 255 maps = read at next whole bounded ⊢
  obtain ⟨piece, rest⟩ := read
  dsimp only at bounded whole ⊢
  have pieceClean : 0 ∉ piece := fun present =>
    terminated (whole ▸ List.mem_append_left _ present)
  have written : write cmdline 0 (piece ++ [0]) =
      .ok (piece ++ 0 :: cmdline.drop (piece.length + 1)) := by
    rw [write_of_le _ _ _ (by simp only [List.length_append, List.length_singleton]; omega)]
    simp
  have sized : (piece ++ 0 :: cmdline.drop (piece.length + 1)).length = 256 := by
    simp only [List.length_append, List.length_cons, List.length_drop]
    omega
  have cleared : memset (piece ++ 0 :: cmdline.drop (piece.length + 1)) 0 256 =
      .ok (calloc 256) := by
    rw [memset_of_le _ _ _ (by omega), List.drop_eq_nil_of_le (by omega), List.append_nil]
    rfl
  refine ⟨calloc 256, length_calloc 256, ?_⟩
  rw [findModuleLoop]
  split
  case h_1 ended =>
    rw [next] at ended
    cases ended
  case h_2 read =>
    rw [next] at read
    cases read
    rw [written, ok_bind, tests_eq _ clean pieceClean, ok_bind]
    by_cases passes : Passes soName piece
    · obtain ⟨str, cut, outcome⟩ := exists_dash (cmdline.drop (piece.length + 1)) numSize
        pieceClean passes
      rw [decide_eq_true passes, if_pos passes, if_pos rfl, cut, ok_bind]
      exact outcome
    · rw [decide_eq_false passes, if_neg passes, if_neg Bool.false_ne_true, ok_bind]
      simp only [cleared, ok_bind]

/-- The loop ends at the first piece that passes. -/
theorem findModuleLoop_eq
    {soName cmdline num maps : Bytes}
    (cmdlineSize : cmdline.length = 256) (numSize : num.length = 32)
    (clean : 0 ∉ soName) (terminated : 0 ∉ maps) :
    findModuleLoop soName cmdline num maps =
      ((pieces newline 254 maps).find? fun piece => Passes soName piece).elim
        (.ok 0) readOutcome := by
  induction measured : maps.length using Nat.strongRecOn generalizing cmdline maps with
  | ind size inductionHypothesis =>
      by_cases empty : maps = []
      · subst empty
        rw [pieces_nil, findModuleLoop]
        rfl
      · obtain ⟨cmdlineAfter, sizeAfter, turned⟩ := findModuleLoop_of_ne_nil cmdlineSize
          numSize clean terminated empty
        rw [turned, pieces_of_ne_nil newline 254 empty, List.find?_cons]
        by_cases passes : Passes soName (readPiece newline 255 maps).1
        · simp [passes]
        · have shorter := length_readPiece_lt newline 254 empty
          have restClean : 0 ∉ (readPiece newline 255 maps).2 := fun present =>
            terminated (readPiece_append newline 255 maps ▸
              List.mem_append_right _ present)
          rw [if_neg passes, inductionHypothesis _ (measured ▸ shorter) sizeAfter restClean rfl]
          simp [passes]

end Tools
end UnityLocalization
