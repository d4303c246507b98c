import UnityLocalization.Library.WordMemory

/-!
# A part of the ARM instruction set

The 32-bit instructions that branch, add, move, load or store a word, as the
architecture describes them.  What every other instruction does is a parameter of the
machine.  An instruction leaves the place where execution goes on to the machine, so that
its effect can be compared at two places.
-/

namespace Arm

open WordMemory

abbrev Register := BitVec 4

structure Flags where
  n : Bool
  z : Bool
  c : Bool
  v : Bool
  deriving DecidableEq

/-- The state without the place in the program.  Register 15 is not kept here: reading it
gives the place, and its entry is not used. -/
@[ext] structure Core where
  register : Register -> Word
  flags : Flags
  memory : Memory

/-- Where execution goes on: behind the instruction, or elsewhere in the given state of
the instruction set. -/
inductive Next
  | behind
  | branch (address : Word) (thumb : Bool)
  deriving DecidableEq

/-- What an instruction outside the modelled part does, given its place and its word. -/
abbrev Others := (place : Word) -> (word : Word) -> Core -> Core × Next

/-- The registers by their purpose. -/
def sp : Register := 13

def lr : Register := 14

def pc : Register := 15

/-- The conditions; the last one is that of unconditional instructions. -/
def Flags.passes (flags : Flags) (condition : BitVec 4) : Bool :=
  match condition.toNat with
  | 0 => flags.z
  | 1 => !flags.z
  | 2 => flags.c
  | 3 => !flags.c
  | 4 => flags.n
  | 5 => !flags.n
  | 6 => flags.v
  | 7 => !flags.v
  | 8 => flags.c && !flags.z
  | 9 => !flags.c || flags.z
  | 10 => flags.n == flags.v
  | 11 => flags.n != flags.v
  | 12 => !flags.z && flags.n == flags.v
  | 13 => flags.z || flags.n != flags.v
  | _ => true

/-- Reading a register, with the value that register 15 has. -/
def Core.read (core : Core) (pcValue : Word) (r : Register) : Word :=
  if r = pc then pcValue else core.register r

def Core.set (core : Core) (r : Register) (value : Word) : Core :=
  { core with register := Function.update core.register r value }

/-- Save a register below the stack. -/
def Core.push (core : Core) (r : Register) : Core :=
  { core.set sp (core.register sp - 4) with
    memory := storeBytes core.memory (core.register sp - 4) (wordBytes (core.register r)) }

/-- Take a register back from the stack. -/
def Core.pop (core : Core) (r : Register) : Core :=
  (core.set sp (core.register sp + 4)).set r (wordAt core.memory (core.register sp))

/-- Going on at an address whose lowest bit selects the instruction set. -/
def exchange (address : Word) : Next :=
  if address.getLsbD 0 then .branch (address &&& 0xFFFFFFFE) true else .branch address false

/-- Writing the result of a load or, in the ARM instruction set, of an addition: register
15 takes execution there. -/
def Core.write (core : Core) (r : Register) (value : Word) : Core × Next :=
  if r = pc then (core, exchange value) else (core.set r value, .behind)

/-! ## Instructions -/

/-- The offset of a branch, a number of words. -/
def wordOffset (imm24 : BitVec 24) : Word := (imm24 ++ 0#2).signExtend 32

/-- The constant of an immediate operand: eight bits that are rotated. -/
def expandImmediate (imm12 : BitVec 12) : Word :=
  ((imm12.extractLsb' 0 8).setWidth 32).rotateRight (2 * (imm12.extractLsb' 8 4).toNat)

/-- The shift of a register operand. -/
def shifted (kind : BitVec 2) (imm5 : BitVec 5) (carry : Bool) (value : Word) : Word :=
  let amount := if imm5 = 0 then 32 else imm5.toNat
  match kind.toNat with
  | 0 => value <<< imm5.toNat
  | 1 => value >>> amount
  | 2 => value.sshiftRight amount
  | _ =>
      if imm5 = 0 then (value >>> 1) ||| (BitVec.ofBool carry).setWidth 32 <<< 31
      else value.rotateRight imm5.toNat

/-- The flags of an addition. -/
def additionFlags (left right : Word) : Flags where
  n := (left + right).msb
  z := left + right == 0
  c := 2 ^ 32 ≤ left.toNat + right.toNat
  v := (left + right).toInt != left.toInt + right.toInt

/-- The offset of a load or store. -/
def offsetAddress (up : Bool) (base : Word) (imm12 : BitVec 12) : Word :=
  if up then base + imm12.setWidth 32 else base - imm12.setWidth 32

inductive Instruction
  | b (imm24 : BitVec 24)
  | bl (imm24 : BitVec 24)
  | blx (half : BitVec 1) (imm24 : BitVec 24)
  | bx (rm : Register)
  | add (setFlags : Bool) (rd rn rm : Register) (kind : BitVec 2) (imm5 : BitVec 5)
  | addImmediate (rd rn : Register) (imm12 : BitVec 12)
  | subImmediate (rd rn : Register) (imm12 : BitVec 12)
  | mov (rd rm : Register)
  | ldr (indexed up writeBack : Bool) (rt rn : Register) (imm12 : BitVec 12)
  | str (indexed up writeBack : Bool) (rt rn : Register) (imm12 : BitVec 12)
  deriving DecidableEq

/-- The word has the given bits where the mask has ones. -/
def Matches {width : Nat} (mask value word : BitVec width) : Prop := word &&& mask = value

instance {width : Nat} (mask value word : BitVec width) : Decidable (Matches mask value word) :=
  inferInstanceAs (Decidable (_ = _))

def condition (word : Word) : BitVec 4 := word.extractLsb' 28 4

def decode (word : Word) : Option Instruction :=
  if Matches 0xFE000000 0xFA000000 word then
    some (.blx (word.extractLsb' 24 1) (word.extractLsb' 0 24))
  else if Matches 0xF0000000 0xF0000000 word then none
  else if Matches 0x0F000000 0x0A000000 word then some (.b (word.extractLsb' 0 24))
  else if Matches 0x0F000000 0x0B000000 word then some (.bl (word.extractLsb' 0 24))
  else if Matches 0x0FFFFFF0 0x012FFF10 word then some (.bx (word.extractLsb' 0 4))
  else if Matches 0x0FE00010 0x00800000 word then
    some (.add (word.getLsbD 20) (word.extractLsb' 12 4) (word.extractLsb' 16 4)
      (word.extractLsb' 0 4) (word.extractLsb' 5 2) (word.extractLsb' 7 5))
  else if Matches 0x0FF00000 0x02800000 word then
    some (.addImmediate (word.extractLsb' 12 4) (word.extractLsb' 16 4)
      (word.extractLsb' 0 12))
  else if Matches 0x0FF00000 0x02400000 word then
    some (.subImmediate (word.extractLsb' 12 4) (word.extractLsb' 16 4)
      (word.extractLsb' 0 12))
  else if Matches 0x0FFF0FF0 0x01A00000 word then
    some (.mov (word.extractLsb' 12 4) (word.extractLsb' 0 4))
  else if Matches 0x0E500000 0x04100000 word then
    some (.ldr (word.getLsbD 24) (word.getLsbD 23) (word.getLsbD 21)
      (word.extractLsb' 12 4) (word.extractLsb' 16 4) (word.extractLsb' 0 12))
  else if Matches 0x0E500000 0x04000000 word then
    some (.str (word.getLsbD 24) (word.getLsbD 23) (word.getLsbD 21)
      (word.extractLsb' 12 4) (word.extractLsb' 16 4) (word.extractLsb' 0 12))
  else none

/-- The address of a load or store, and the core after the base is written back. -/
def transfer
    (indexed up writeBack : Bool) (rn : Register) (imm12 : BitVec 12)
    (pcValue : Word) (core : Core) : Word × Core :=
  let base := core.read pcValue rn
  let moved := offsetAddress up base imm12
  (if indexed then moved else base,
    if !indexed || writeBack then core.set rn moved else core)

/-- What an instruction does whose condition holds.  Register 15 reads as the place of
the instruction and eight bytes more. -/
def Instruction.execute (place : Word) (core : Core) : Instruction -> Core × Next
  | b imm24 => (core, .branch (place + 8 + wordOffset imm24) false)
  | bl imm24 =>
      (core.set lr (place + 4), .branch (place + 8 + wordOffset imm24) false)
  | blx half imm24 =>
      (core.set lr (place + 4),
        .branch (place + 8 + (imm24 ++ half ++ 0#1).signExtend 32) true)
  | bx rm => (core, exchange (core.read (place + 8) rm))
  | add setFlags rd rn rm kind imm5 =>
      let left := core.read (place + 8) rn
      let right := shifted kind imm5 core.flags.c (core.read (place + 8) rm)
      ({ core with flags := if setFlags then additionFlags left right else core.flags }
        ).write rd (left + right)
  | addImmediate rd rn imm12 =>
      core.write rd (core.read (place + 8) rn + expandImmediate imm12)
  | subImmediate rd rn imm12 =>
      core.write rd (core.read (place + 8) rn - expandImmediate imm12)
  | mov rd rm => core.write rd (core.read (place + 8) rm)
  | ldr indexed up writeBack rt rn imm12 =>
      let (address, moved) := transfer indexed up writeBack rn imm12 (place + 8) core
      moved.write rt (wordAt core.memory address)
  | str indexed up writeBack rt rn imm12 =>
      let (address, moved) := transfer indexed up writeBack rn imm12 (place + 8) core
      ({ moved with
        memory := storeBytes core.memory address (wordBytes (core.read (place + 8) rt)) },
        .behind)

/-- The instruction with the given word, executed at a place. -/
def perform (others : Others) (place word : Word) (core : Core) : Core × Next :=
  match decode word with
  | some instruction =>
      if core.flags.passes (condition word) then instruction.execute place core
      else (core, .behind)
  | none => others place word core

/-! ## The machine -/

structure Machine where
  core : Core
  place : Word
  thumb : Bool

/-- Go on from an instruction of the given size. -/
def Next.follow (next : Next) (place size : Word) (thumb : Bool) (core : Core) : Machine :=
  match next with
  | .behind => ⟨core, place + size, thumb⟩
  | .branch address thumb => ⟨core, address, thumb⟩

/-- One instruction of the ARM instruction set. -/
def stepArm (others : Others) (place : Word) (core : Core) : Machine :=
  let (after, next) := perform others place (wordAt core.memory place) core
  next.follow place 4 false after

end Arm
