import UnityLocalization.Library.ArmRun

/-!
# Moved code

A block of instructions that is executed at another place than its own.  Other bytes
stand for each instruction, and behind them a jump leads back.  If the bytes for each
instruction do what the instruction does, then the bytes for the block do what the block
does.  Only a call makes a difference: it notes the place behind its own bytes.
-/

namespace MovedCode

open WordMemory Arm

/-- How instructions are moved: what each one does at its place, the bytes that stand for
it, and what these do if they end at `after`. -/
structure Move (Instruction : Type) where
  thumb : Bool
  size : Instruction -> Nat
  perform : (place : Word) -> Instruction -> Core -> Core × Next
  code : (place : Word) -> Instruction -> List Byte
  moved : (place after : Word) -> Instruction -> Core -> Core × Next
  back : (place : Word) -> List Byte

namespace Move

variable {Instruction : Type} (move : Move Instruction)

/-- The place behind an instruction. -/
def next (place : Word) (instruction : Instruction) : Word :=
  place + BitVec.ofNat 32 (move.size instruction)

/-- The place behind the bytes for an instruction. -/
def after (place a : Word) (instruction : Instruction) : Word :=
  a + BitVec.ofNat 32 (move.code place instruction).length

/-- The bytes for a block, with the jump back. -/
def bytes : (place : Word) -> (block : List Instruction) -> List Byte
  | place, [] => move.back place
  | place, instruction :: block =>
      move.code place instruction ++ bytes (move.next place instruction) block

/-- The place of an instruction of a block. -/
def origin : (place : Word) -> (block : List Instruction) -> (index : Nat) -> Word
  | place, instruction :: block, index + 1 => origin (move.next place instruction) block index
  | place, _, _ => place

/-- The place of the bytes for an instruction of a block. -/
def destination :
    (place a : Word) -> (block : List Instruction) -> (index : Nat) -> Word
  | place, a, instruction :: block, index + 1 =>
      destination (move.next place instruction) (move.after place a instruction) block index
  | _, a, _, _ => a

/-- The block at its own place, until one of its instructions branches away. -/
def run : (place : Word) -> (block : List Instruction) -> Core -> Machine
  | place, [], core => ⟨core, place, move.thumb⟩
  | place, instruction :: block, core =>
      let result := move.perform place instruction core
      match result.2 with
      | .behind => run (move.next place instruction) block result.1
      | .branch address thumb => ⟨result.1, address, thumb⟩

/-- Each instruction that the block reaches at its own place is reached in a state with a
property. -/
def Along (property : Word -> Instruction -> Core -> Prop) :
    (place : Word) -> (block : List Instruction) -> Core -> Prop
  | _, [], _ => True
  | place, instruction :: block, core =>
      let result := move.perform place instruction core
      property place instruction core ∧
        (result.2 = .behind -> Along property (move.next place instruction) block result.1)

/-- What a call notes of the place that it returns to. -/
def link (address : Word) : Word := if move.thumb then address ||| 1 else address

/-- The moved instruction does what the instruction does, or both call the same place. -/
def Agrees (place after : Word) (instruction : Instruction) (core : Core) : Prop :=
  move.moved place after instruction core = move.perform place instruction core ∨
    ∃ address thumb,
      move.perform place instruction core =
        (core.set lr (move.link (move.next place instruction)), .branch address thumb) ∧
      move.moved place after instruction core =
        (core.set lr (move.link after), .branch address thumb)

/-- The final state of a moved block: that of the block itself, or one where a call will
return to the moved code. -/
def Follows (place a : Word) (block : List Instruction) (original final : Machine) : Prop :=
  final = original ∨
    ∃ index ≤ block.length,
      original.core.register lr = move.link (move.origin place block index) ∧
      final = { original with
        core := original.core.set lr (move.link (move.destination place a block index)) }

/-- Execution that enters the moved code at `a` ends as the block would end at `place`. -/
def StandsFor
    (others : Others) (place a : Word) (block : List Instruction) (core : Core) : Prop :=
  ∃ final, Reaches others ⟨core, a, move.thumb⟩ final ∧
    move.Follows place a block (move.run place block core) final

/-- Execution of the bytes for one instruction does what `moved` says. -/
def Runs (others : Others) (place a : Word) (instruction : Instruction) (core : Core) :
    Prop :=
  let result := move.moved place (move.after place a instruction) instruction core
  Reaches others ⟨core, a, move.thumb⟩
    (result.2.follow a (BitVec.ofNat 32 (move.code place instruction).length) move.thumb
      result.1)

/-- What makes the bytes for a block in the given range do what the block does: it is
enough that each instruction is reached in a state with the property. -/
structure Faithful
    (others : Others) (start : Word) (room : Nat)
    (property : Word -> Instruction -> Core -> Prop) : Prop where
  even : ∀ instruction, move.size instruction % 2 = 0
  aligned : ∀ place instruction, (move.code place instruction).length % 4 = 0
  runs : ∀ {place a instruction core}, property place instruction core ->
    a.toNat % 4 = 0 -> HoldsBytes core.memory a (move.code place instruction) ->
    (∀ here, InRange a (move.code place instruction).length here -> InRange start room here) ->
    move.Runs others place a instruction core
  agrees : ∀ {place instruction core}, property place instruction core ->
    ∀ after, move.Agrees place after instruction core
  frame : ∀ {place instruction core}, property place instruction core ->
    ∀ here, InRange start room here ->
      (move.perform place instruction core).1.memory here = core.memory here
  leadsBack : ∀ {place a core}, place.toNat % 2 = 0 -> a.toNat % 4 = 0 ->
    HoldsBytes core.memory a (move.back place) ->
    Reaches others ⟨core, a, move.thumb⟩ ⟨core, place, move.thumb⟩

variable {move} {others : Others} {start place a : Word} {room : Nat} {core : Core}
  {property other : Word -> Instruction -> Core -> Prop} {block : List Instruction}

/-! ## Places -/

@[simp] theorem origin_zero (place : Word) (block : List Instruction) :
    move.origin place block 0 = place := by
  cases block <;> rfl

@[simp] theorem destination_zero (place a : Word) (block : List Instruction) :
    move.destination place a block 0 = a := by
  cases block <;> rfl

theorem even_next
    {instruction : Instruction} (even : move.size instruction % 2 = 0)
    (placed : place.toNat % 2 = 0) : (move.next place instruction).toNat % 2 = 0 := by
  rw [next, BitVec.toNat_add, BitVec.toNat_ofNat]
  omega

theorem aligned_after
    {instruction : Instruction} (words : (move.code place instruction).length % 4 = 0)
    (aligned : a.toNat % 4 = 0) : (move.after place a instruction).toNat % 4 = 0 := by
  rw [after, BitVec.toNat_add, BitVec.toNat_ofNat]
  omega

theorem Follows.refl (place a : Word) (block : List Instruction) (final : Machine) :
    move.Follows place a block final final := .inl rfl

/-- A call that is the first instruction. -/
theorem Follows.call
    (instruction : Instruction) (block : List Instruction) (core : Core) (address : Word)
    (thumb : Bool) :
    move.Follows place a (instruction :: block)
      ⟨core.set lr (move.link (move.next place instruction)), address, thumb⟩
      ⟨core.set lr (move.link (move.after place a instruction)), address, thumb⟩ := by
  refine .inr ⟨1, Nat.succ_le_succ (Nat.zero_le _), ?_, ?_⟩
  · rw [origin, origin_zero]
    exact Core.set_same core lr _
  · rw [destination, destination_zero, Core.set_set]

theorem Follows.cons
    {instruction : Instruction} {original final : Machine}
    (later : move.Follows (move.next place instruction) (move.after place a instruction) block
      original final) :
    move.Follows place a (instruction :: block) original final := by
  obtain same | ⟨index, inside, link, relinked⟩ := later
  · exact .inl same
  · exact .inr ⟨index + 1, Nat.succ_le_succ inside, link, relinked⟩

namespace Faithful

variable (faithful : move.Faithful others start room property)

include faithful in
/-- The moved code does what the block does. -/
theorem standsFor_block
    (along : move.Along property place block core) (placed : place.toNat % 2 = 0)
    (aligned : a.toNat % 4 = 0) (fits : (move.bytes place block).length ≤ 2 ^ 32)
    (within : ∀ here, InRange a (move.bytes place block).length here ->
      InRange start room here)
    (holds : HoldsBytes core.memory a (move.bytes place block)) :
    move.StandsFor others place a block core := by
  induction block generalizing place a core with
  | nil => exact ⟨_, faithful.leadsBack placed aligned holds, Follows.refl _ _ _ _⟩
  | cons instruction block hypothesis =>
      obtain ⟨here, later⟩ := along
      rw [bytes] at holds
      rw [bytes, List.length_append] at fits within
      have runs : move.Runs others place a instruction core :=
        faithful.runs here aligned holds.left
          fun _ inside => within _ (inside.weaken (Nat.le_add_right _ _))
      rw [Runs] at runs
      rw [StandsFor, run]
      obtain same | ⟨address, thumb, original, call⟩ :=
        faithful.agrees here (move.after place a instruction)
      · rw [same] at runs
        cases behind : (move.perform place instruction core).2 with
        | branch address thumb =>
            rw [behind] at runs
            exact ⟨_, runs, Follows.refl _ _ _ _⟩
        | behind =>
            rw [behind] at runs
            -- the memory of the moved code is as it was
            have rest : ∀ here, InRange (move.after place a instruction)
                (move.bytes (move.next place instruction) block).length here ->
                  InRange start room here := fun here inside => within here inside.of_behind
            have kept := holds.right.congr (by omega) fun there inside =>
              faithful.frame here there (rest there inside)
            obtain ⟨final, reached, follows⟩ := hypothesis (later behind)
              (even_next (faithful.even _) placed)
              (aligned_after (faithful.aligned _ _) aligned) (by omega) rest kept
            exact ⟨final, runs.trans reached, follows.cons⟩
      · rw [call] at runs
        rw [original]
        exact ⟨_, runs, Follows.call _ _ _ _ _⟩

include faithful in
/-- The moved code does what the block does from any of its instructions on. -/
theorem standsFor
    {index : Nat} (inside : index ≤ block.length)
    (along : move.Along property (move.origin place block index) (block.drop index) core)
    (placed : place.toNat % 2 = 0) (aligned : a.toNat % 4 = 0)
    (fits : (move.bytes place block).length ≤ 2 ^ 32)
    (within : ∀ here, InRange a (move.bytes place block).length here ->
      InRange start room here)
    (holds : HoldsBytes core.memory a (move.bytes place block)) :
    move.StandsFor others (move.origin place block index)
      (move.destination place a block index) (block.drop index) core := by
  induction index generalizing place a block with
  | zero =>
      rw [origin_zero] at along ⊢
      rw [destination_zero]
      exact faithful.standsFor_block along placed aligned fits within holds
  | succ index hypothesis =>
      cases block with
      | nil => exact absurd inside (Nat.not_succ_le_zero index)
      | cons instruction block =>
          rw [bytes] at holds
          rw [bytes, List.length_append] at fits within
          exact hypothesis (Nat.le_of_succ_le_succ inside) along
            (even_next (faithful.even _) placed)
            (aligned_after (faithful.aligned _ _) aligned) (by omega)
            (fun here within' => within here within'.of_behind) holds.right

end Faithful

end Move

end MovedCode
