import UnityLocalization.HookEngine.ThumbRelocation

/-!
# Thumb trampolines

The halfwords that the loop over Thumb instructions writes, and the places that it notes.
-/

namespace UnityLocalization
namespace HookEngine

open CMemory WordMemory

/-- What one turn of the loop meets.  The first halfword of an instruction can be the last
one that was saved. -/
inductive ThumbTurn
  | narrow (instruction : Half)
  | wide (high low : Half)
  | cut (high : Half)
  deriving DecidableEq

namespace ThumbTurn

/-- The number of halfwords that the loop goes on. -/
def size : ThumbTurn -> Nat
  | narrow _ => 1
  | wide _ _ => 2
  | cut _ => 0

def moved (load : Word -> Word) (pc : Word) : ThumbTurn -> List Half
  | narrow instruction => relocateInstructionInThumb16 load pc instruction
  | wide high low => relocateInstructionInThumb32 load pc high low
  | cut _ => []

end ThumbTurn

def thumbTurns : List Half -> List ThumbTurn
  | [] => []
  | instruction :: rest =>
      if isThumb32 instruction then
        match rest with
        | [] => [.cut instruction]
        | low :: rest => .wide instruction low :: thumbTurns rest
      else .narrow instruction :: thumbTurns rest

/-- The halfwords of the original instructions that were met. -/
def turnsSize (turns : List ThumbTurn) : Nat := (turns.map ThumbTurn.size).sum

/-- The halfwords for a list of instructions. -/
def movedTurns (load : Word -> Word) : (pc : Word) -> (turns : List ThumbTurn) -> List Half
  | _, [] => []
  | pc, turn :: turns =>
      turn.moved load pc ++ movedTurns load (pc + BitVec.ofNat 32 (2 * turn.size)) turns

/-- The places that are noted for Thumb instructions. -/
def ThumbNotes
    (load : Word -> Word) (pc : Word) (origPos trampolinePos : Nat)
    (turns : List ThumbTurn) : Boundaries -> Boundaries -> Prop :=
  Notes (fun index => (origPos + turnsSize (turns.take index)) * 2)
    (fun index => (trampolinePos + (movedTurns load pc (turns.take index)).length) * 2)
    turns.length

section

variable {load : Word -> Word} {pc : Word} {origPos trampolinePos : Nat}
  {instructions : List Half} {before : Boundaries}

theorem thumbTurns_narrow {instruction : Half} (narrow : ¬isThumb32 instruction = true)
    (rest : List Half) :
    thumbTurns (instruction :: rest) = .narrow instruction :: thumbTurns rest := by
  rw [thumbTurns.eq_def]
  exact if_neg narrow

@[simp] theorem turnsSize_cons (turn : ThumbTurn) (turns : List ThumbTurn) :
    turnsSize (turn :: turns) = turn.size + turnsSize turns := by
  rw [turnsSize, List.map_cons, List.sum_cons]
  rfl

theorem ThumbNotes.cons
    {turn : ThumbTurn} {turns : List ThumbTurn} {noted after : Boundaries}
    (first : Notes (fun _ => origPos * 2) (fun _ => trampolinePos * 2) 1 before noted)
    (later : ThumbNotes load (pc + BitVec.ofNat 32 (2 * turn.size)) (origPos + turn.size)
      (trampolinePos + (turn.moved load pc).length) turns noted after) :
    ThumbNotes load pc origPos trampolinePos (turn :: turns) before after := by
  refine Notes.cons first ?_
  simpa only [ThumbNotes, List.take_succ_cons, movedTurns, List.length_append, turnsSize_cons,
    Nat.add_assoc] using later

/-- The loop writes the halfwords and notes the places while there is room for them. -/
theorem relocateThumbLoop_eq (fits : before.count + (thumbTurns instructions).length ≤ 4) :
    ∃ after,
      relocateThumbLoop load pc origPos trampolinePos instructions before =
        .ok (movedTurns load pc (thumbTurns instructions),
          origPos + turnsSize (thumbTurns instructions), after) ∧
      ThumbNotes load pc origPos trampolinePos (thumbTurns instructions) before after := by
  induction instructions using thumbTurns.induct generalizing pc origPos trampolinePos before with
  | case1 => exact ⟨before, rfl, Notes.none _ _ before⟩
  | case2 instruction wide =>
      rw [thumbTurns, if_pos wide] at fits ⊢
      obtain ⟨noted, recorded, first⟩ :=
        record_eq before (origPos * 2) (trampolinePos * 2) fits
      refine ⟨noted, ?_, ThumbNotes.cons first (Notes.none _ _ noted)⟩
      rw [relocateThumbLoop, recorded, ok_bind, if_pos wide]
      rfl
  | case3 instruction wide low rest hypothesis =>
      rw [thumbTurns, if_pos wide] at fits ⊢
      rw [List.length_cons] at fits
      obtain ⟨noted, recorded, first⟩ :=
        record_eq before (origPos * 2) (trampolinePos * 2) (by omega)
      have one := first.count
      obtain ⟨after, looped, later⟩ := @hypothesis (pc + 4) (origPos + 2)
        (trampolinePos + (relocateInstructionInThumb32 load pc instruction low).length) noted
        (by omega)
      refine ⟨after, ?_, ThumbNotes.cons first later⟩
      rw [relocateThumbLoop, recorded, ok_bind, if_pos wide]
      simp only [looped, ok_bind, turnsSize_cons, ← Nat.add_assoc]
      rfl
  | case4 instruction rest narrow hypothesis =>
      rw [thumbTurns_narrow narrow] at fits ⊢
      rw [List.length_cons] at fits
      obtain ⟨noted, recorded, first⟩ :=
        record_eq before (origPos * 2) (trampolinePos * 2) (by omega)
      have one := first.count
      obtain ⟨after, looped, later⟩ := @hypothesis (pc + 2) (origPos + 1)
        (trampolinePos + (relocateInstructionInThumb16 load pc instruction).length) noted
        (by omega)
      refine ⟨after, ?_, ThumbNotes.cons first later⟩
      rw [relocateThumbLoop.eq_def]
      simp only [recorded, ok_bind, if_neg narrow]
      simp only [looped, ok_bind, turnsSize_cons, ← Nat.add_assoc]
      rfl

/-- A place that does not fit is written behind the array. -/
theorem relocateThumbLoop_full
    (nonempty : 0 < instructions.length)
    (full : 4 < before.count + (thumbTurns instructions).length) :
    relocateThumbLoop load pc origPos trampolinePos instructions before =
      .error .outOfBounds := by
  induction instructions using thumbTurns.induct generalizing pc origPos trampolinePos before with
  | case1 => exact absurd nonempty (Nat.lt_irrefl 0)
  | case2 instruction wide =>
      rw [thumbTurns, if_pos wide, List.length_singleton] at full
      rw [relocateThumbLoop, record_full (Nat.le_of_lt_succ full), error_bind]
  | case3 instruction wide low rest hypothesis =>
      rw [thumbTurns, if_pos wide, List.length_cons] at full
      rw [relocateThumbLoop]
      by_cases room : before.count < 4
      · obtain ⟨noted, recorded, first⟩ :=
          record_eq before (origPos * 2) (trampolinePos * 2) room
        have one := first.count
        rw [recorded, ok_bind, if_pos wide]
        have more : 0 < rest.length := by
          cases rest with
          | nil => exact absurd full (by simp only [thumbTurns, List.length_nil]; omega)
          | cons half rest => exact Nat.succ_pos _
        simp only [@hypothesis (pc + 4) (origPos + 2) _ noted more (by omega), error_bind]
      · rw [record_full (Nat.not_lt.mp room), error_bind]
  | case4 instruction rest narrow hypothesis =>
      rw [thumbTurns_narrow narrow, List.length_cons] at full
      rw [relocateThumbLoop.eq_def]
      by_cases room : before.count < 4
      · obtain ⟨noted, recorded, first⟩ :=
          record_eq before (origPos * 2) (trampolinePos * 2) room
        have one := first.count
        simp only [recorded, ok_bind, if_neg narrow]
        have more : 0 < rest.length := by
          cases rest with
          | nil => exact absurd full (by simp only [thumbTurns, List.length_nil]; omega)
          | cons half rest => exact Nat.succ_pos _
        simp only [@hypothesis (pc + 2) (origPos + 1) _ noted more (by omega), error_bind]
      · simp only [record_full (Nat.not_lt.mp room), error_bind]

/-! ## Sizes -/

/-- A moved instruction takes one to seven words. -/
def IsWords (moved : List Half) : Prop := moved.length % 2 = 0 ∧ moved.length ≤ 14

theorem isWords_thumb16 (load : Word -> Word) (pc : Word) (instruction : Half) :
    IsWords (relocateInstructionInThumb16 load pc instruction) ∧
      relocateInstructionInThumb16 load pc instruction ≠ [] := by
  rw [relocateInstructionInThumb16]
  split <;> simp [IsWords, longJump, halves]

theorem isWords_thumb32 (load : Word -> Word) (pc : Word) (high low : Half) :
    IsWords (relocateInstructionInThumb32 load pc high low) ∧
      relocateInstructionInThumb32 load pc high low ≠ [] := by
  rw [relocateInstructionInThumb32]
  split <;> simp [IsWords, longJump, halves]

theorem ThumbTurn.isWords_moved (load : Word -> Word) (pc : Word) (turn : ThumbTurn) :
    IsWords (turn.moved load pc) := by
  cases turn with
  | narrow instruction => exact (isWords_thumb16 load pc instruction).1
  | wide high low => exact (isWords_thumb32 load pc high low).1
  | cut high => exact ⟨rfl, Nat.zero_le _⟩

theorem length_movedTurns (load : Word -> Word) (pc : Word) (turns : List ThumbTurn) :
    (movedTurns load pc turns).length % 2 = 0 ∧
      (movedTurns load pc turns).length ≤ 14 * turns.length := by
  induction turns generalizing pc with
  | nil => exact ⟨rfl, Nat.le_refl 0⟩
  | cons turn turns hypothesis =>
      obtain ⟨even, short⟩ := turn.isWords_moved load pc
      obtain ⟨evenMore, shortMore⟩ := hypothesis (pc + BitVec.ofNat 32 (2 * turn.size))
      rw [movedTurns, List.length_append, List.length_cons]
      omega

theorem length_movedTurns_take_le
    (load : Word -> Word) (pc : Word) (turns : List ThumbTurn) (index : Nat) :
    (movedTurns load pc (turns.take index)).length ≤ (movedTurns load pc turns).length := by
  induction turns generalizing pc index with
  | nil => rw [List.take_nil]
  | cons turn turns hypothesis =>
      cases index with
      | zero => exact Nat.zero_le _
      | succ index =>
          rw [List.take_succ_cons, movedTurns, movedTurns, List.length_append,
            List.length_append]
          exact Nat.add_le_add_left (hypothesis _ index) _

/-- The last saved halfword begins an instruction that is not saved as a whole. -/
def EndsInCut (instructions : List Half) : Prop :=
  ∃ turns high, thumbTurns instructions = turns ++ [.cut high] ∧
    instructions.getLast? = some high ∧ isThumb32 high = true

theorem EndsInCut.cons
    {instruction : Half} {turn : ThumbTurn} {skipped : List Half}
    (turns : thumbTurns (instruction :: (skipped ++ instructions)) =
      turn :: thumbTurns instructions)
    (cut : EndsInCut instructions) : EndsInCut (instruction :: (skipped ++ instructions)) := by
  obtain ⟨earlier, high, split, last, wide⟩ := cut
  refine ⟨turn :: earlier, high, by rw [turns, split, List.cons_append], ?_, wide⟩
  rw [← List.cons_append, List.getLast?_append, last, Option.some_or]

/-- The loop ends behind the saved halfwords, or before the last one if it belongs to an
instruction that is not saved as a whole. -/
theorem turnsSize_thumbTurns (instructions : List Half) :
    (turnsSize (thumbTurns instructions) = instructions.length ∧
        ∀ high, .cut high ∉ thumbTurns instructions) ∨
      (turnsSize (thumbTurns instructions) + 1 = instructions.length ∧
        EndsInCut instructions) := by
  induction instructions using thumbTurns.induct with
  | case1 => exact .inl ⟨rfl, fun _ => List.not_mem_nil⟩
  | case2 instruction wide =>
      have turns : thumbTurns [instruction] = [.cut instruction] := by
        rw [thumbTurns, if_pos wide]
      rw [turns]
      exact .inr ⟨rfl, [], instruction, turns, rfl, wide⟩
  | case3 instruction wide low rest hypothesis =>
      have turns : thumbTurns (instruction :: low :: rest) =
          .wide instruction low :: thumbTurns rest := by
        rw [thumbTurns, if_pos wide]
      rw [turns, turnsSize_cons, List.length_cons, List.length_cons, ThumbTurn.size]
      obtain ⟨size, whole⟩ | ⟨size, cut⟩ := hypothesis
      · exact .inl ⟨by omega, fun high => by simpa using whole high⟩
      · exact .inr ⟨by omega, @EndsInCut.cons rest instruction _ [low] turns cut⟩
  | case4 instruction rest narrow hypothesis =>
      have turns := thumbTurns_narrow narrow rest
      rw [turns, turnsSize_cons, List.length_cons, ThumbTurn.size]
      obtain ⟨size, whole⟩ | ⟨size, cut⟩ := hypothesis
      · exact .inl ⟨by omega, fun high => by simpa using whole high⟩
      · exact .inr ⟨by omega, @EndsInCut.cons rest instruction _ [] turns cut⟩

theorem EndsInCut.cut_mem (cut : EndsInCut instructions) :
    ∃ high, .cut high ∈ thumbTurns instructions := by
  obtain ⟨turns, high, split, -⟩ := cut
  exact ⟨high, by rw [split]; exact List.mem_append_right _ List.mem_cons_self⟩

theorem turnsSize_of_cut (cut : EndsInCut instructions) :
    turnsSize (thumbTurns instructions) + 1 = instructions.length := by
  obtain ⟨-, whole⟩ | ⟨size, -⟩ := turnsSize_thumbTurns instructions
  · obtain ⟨high, member⟩ := cut.cut_mem
    exact absurd member (whole high)
  · exact size

theorem turnsSize_of_not_cut (whole : ¬EndsInCut instructions) :
    turnsSize (thumbTurns instructions) = instructions.length := by
  obtain ⟨size, -⟩ | ⟨-, cut⟩ := turnsSize_thumbTurns instructions
  · exact size
  · exact absurd cut whole

/-! ## The whole function -/

variable {target : Word} {moved : List Half} {noted : Boundaries}

/-- What `relocateInstructionInThumb` has written and noted. -/
theorem relocateInstructionInThumb_ok
    (nonempty : 0 < instructions.length)
    (relocated : relocateInstructionInThumb load target instructions before =
      .ok (moved, noted)) :
    moved = movedTurns load (target + 4) (thumbTurns instructions) ++
        longJump (target + BitVec.ofNat 32 (2 * turnsSize (thumbTurns instructions)) + 1) ∧
      before.count + (thumbTurns instructions).length ≤ 4 ∧
      ThumbNotes load (target + 4) 0 0 (thumbTurns instructions) before noted := by
  rw [relocateInstructionInThumb] at relocated
  by_cases fits : before.count + (thumbTurns instructions).length ≤ 4
  · obtain ⟨after, looped, notes⟩ := @relocateThumbLoop_eq load (target + 4) 0 0 _ _ fits
    rw [looped, ok_bind] at relocated
    cases relocated
    refine ⟨?_, fits, notes⟩
    rw [Nat.zero_add]
  · rw [relocateThumbLoop_full nonempty (Nat.not_le.mp fits), error_bind] at relocated
    cases relocated

/-- Thumb instructions are moved without a fault exactly if there is room for the places
of all that begin in the saved bytes. -/
theorem relocateInstructionInThumb_isOk_iff
    (load : Word -> Word) (target : Word) (before : Boundaries)
    (nonempty : 0 < instructions.length) :
    (∃ result, relocateInstructionInThumb load target instructions before = .ok result) ↔
      before.count + (thumbTurns instructions).length ≤ 4 := by
  constructor
  · rintro ⟨⟨moved, noted⟩, relocated⟩
    exact (relocateInstructionInThumb_ok nonempty relocated).2.1
  · intro fits
    obtain ⟨after, looped, -⟩ := @relocateThumbLoop_eq load (target + 4) 0 0 _ _ fits
    rw [relocateInstructionInThumb, looped, ok_bind]
    exact ⟨_, rfl⟩

/-- A load and two narrow instructions. -/
theorem three_thumb_instructions_fit :
    (∃ result, relocateInstructionInThumb (fun _ => 0) 0x1000 [0xF8DF, 0x0004, 0xB500, 0xBF00]
        .unused = .ok result) ↔
      Boundaries.unused.count + (thumbTurns [0xF8DF, 0x0004, 0xB500, 0xBF00]).length ≤ 4 :=
  relocateInstructionInThumb_isOk_iff _ _ _ (by decide)

theorem length_relocateInstructionInThumb_le
    (nonempty : 0 < instructions.length)
    (relocated : relocateInstructionInThumb load target instructions before =
      .ok (moved, noted)) : 2 * moved.length ≤ 120 := by
  obtain ⟨rfl, fits, -⟩ := relocateInstructionInThumb_ok nonempty relocated
  have total := length_movedTurns load (target + 4) (thumbTurns instructions)
  have jump : (longJump (target + BitVec.ofNat 32
      (2 * turnsSize (thumbTurns instructions)) + 1)).length = 4 := rfl
  rw [List.length_append, jump]
  omega

/-- Every noted place in a Thumb trampoline is a word address of the page, and the last
words lead behind the saved bytes, or to their last halfword exactly if that begins an
instruction that is not saved as a whole. -/
theorem thumb_trampoline_layout
    (nonempty : 0 < instructions.length)
    (relocated : relocateInstructionInThumb load target instructions before =
      .ok (moved, noted)) :
    (∀ index < (thumbTurns instructions).length, ∃ place,
        noted.trampoline[before.count + index]? = some place ∧
          place % 4 = 0 ∧ place + 8 ≤ 2 * moved.length) ∧
      2 * moved.length ≤ 120 ∧
      ∃ position, moved.drop (moved.length - 4) =
          longJump (target + BitVec.ofNat 32 (2 * position) + 1) ∧
        (¬EndsInCut instructions -> position = instructions.length) ∧
        (EndsInCut instructions -> position + 1 = instructions.length) := by
  have short := length_relocateInstructionInThumb_le nonempty relocated
  obtain ⟨rfl, -, notes⟩ := relocateInstructionInThumb_ok nonempty relocated
  have jump : (longJump (target + BitVec.ofNat 32
      (2 * turnsSize (thumbTurns instructions)) + 1)).length = 4 := rfl
  rw [List.length_append, jump] at short ⊢
  refine ⟨fun index inside => ?_, short, _, ?_, turnsSize_of_not_cut, turnsSize_of_cut⟩
  · have even := (length_movedTurns load (target + 4)
      ((thumbTurns instructions).take index)).1
    have within := length_movedTurns_take_le load (target + 4) (thumbTurns instructions) index
    exact ⟨_, notes.trampoline index inside, by omega, by omega⟩
  · rw [Nat.add_sub_cancel, List.drop_left]

end

/-- The trampoline of a load, a narrow instruction and half of a load. -/
theorem layout_of_cut_thumb_instructions :
    ∃ (moved : List Half) (noted : Boundaries),
      (∀ index < (thumbTurns [0xF8DF, 0x0004, 0xB500, 0xF8DF]).length, ∃ place,
        noted.trampoline[Boundaries.unused.count + index]? = some place ∧
          place % 4 = 0 ∧ place + 8 ≤ 2 * moved.length) ∧
      2 * moved.length ≤ 120 ∧
      ∃ position, moved.drop (moved.length - 4) =
          longJump (0x1000 + BitVec.ofNat 32 (2 * position) + 1) ∧
        (¬EndsInCut [0xF8DF, 0x0004, 0xB500, 0xF8DF] ->
          position = [(0xF8DF : Half), 0x0004, 0xB500, 0xF8DF].length) ∧
        (EndsInCut [0xF8DF, 0x0004, 0xB500, 0xF8DF] ->
          position + 1 = [(0xF8DF : Half), 0x0004, 0xB500, 0xF8DF].length) :=
  ⟨_, _, @thumb_trampoline_layout (fun _ => 0) _ _ _ _ _ (by decide) rfl⟩

end HookEngine
end UnityLocalization
