import UnityLocalization.Library.Arm

/-!
# A part of the Thumb instruction set

The instructions of 16 and 32 bits that branch, that read register 15 or that save and
restore one register.  An instruction of 32 bits is written as one word, its first
halfword on top.  `IT` is only recognised: what it asks of the instructions behind it is not
part of the state.
-/

namespace Thumb

open WordMemory Arm

/-- The first halfword belongs to an instruction of 32 bits. -/
def IsWide (half : Half) : Prop := 0x1D ≤ (half >>> 11).toNat

instance (half : Half) : Decidable (IsWide half) := inferInstanceAs (Decidable (_ ≤ _))

/-- `IT`, which makes the next instructions depend on conditions. -/
def ConditionsNext (half : Half) : Prop :=
  Matches 0xFF00 0xBF00 half ∧ half.extractLsb' 0 4 ≠ 0

instance (half : Half) : Decidable (ConditionsNext half) :=
  inferInstanceAs (Decidable (_ ∧ _))

/-- The word address below, which literals are relative to. -/
def align (address : Word) : Word := address &&& 0xFFFFFFFC

inductive Instruction
  | bCondition (condition : BitVec 4) (imm8 : BitVec 8)
  | b (imm11 : BitVec 11)
  | bx (rm : Register)
  | add (rdn rm : Register)
  | mov (rd rm : Register)
  | adr (rd : Register) (imm8 : BitVec 8)
  | ldrLiteral (rt : Register) (imm8 : BitVec 8)
  | cb (nonzero : Bool) (rn : Register) (imm6 : BitVec 6)
  | push (r : Register)
  | pop (r : Register)
  | nop
  deriving DecidableEq

inductive WideInstruction
  | bCondition (condition : BitVec 4) (imm20 : BitVec 20)
  | b (imm24 : BitVec 24)
  | bl (imm24 : BitVec 24)
  | blx (imm23 : BitVec 23)
  | adr (up : Bool) (rd : Register) (imm12 : BitVec 12)
  | ldrLiteral (up : Bool) (rt : Register) (imm12 : BitVec 12)
  deriving DecidableEq

/-- A register with three bits. -/
def lowRegister (r : BitVec 3) : Register := r.setWidth 4

/-- The only register of a register list. -/
def onlyRegister (list : BitVec 8) : Option Register :=
  (List.range 8).findSome? fun r =>
    if list = 1 <<< r then some (BitVec.ofNat 4 r) else none

def decode (half : Half) : Option Instruction :=
  if Matches 0xF000 0xD000 half then
    -- the last two conditions stand for other instructions
    if Matches 0x0E00 0x0E00 half then none
    else some (.bCondition (half.extractLsb' 8 4) (half.extractLsb' 0 8))
  else if Matches 0xF800 0xE000 half then some (.b (half.extractLsb' 0 11))
  else if Matches 0xFF87 0x4700 half then some (.bx (half.extractLsb' 3 4))
  else if Matches 0xFF00 0x4400 half then
    some (.add (half.extractLsb' 7 1 ++ half.extractLsb' 0 3) (half.extractLsb' 3 4))
  else if Matches 0xFF00 0x4600 half then
    some (.mov (half.extractLsb' 7 1 ++ half.extractLsb' 0 3) (half.extractLsb' 3 4))
  else if Matches 0xF800 0xA000 half then
    some (.adr (lowRegister (half.extractLsb' 8 3)) (half.extractLsb' 0 8))
  else if Matches 0xF800 0x4800 half then
    some (.ldrLiteral (lowRegister (half.extractLsb' 8 3)) (half.extractLsb' 0 8))
  else if Matches 0xF500 0xB100 half then
    some (.cb (half.getLsbD 11) (lowRegister (half.extractLsb' 0 3))
      (half.extractLsb' 9 1 ++ half.extractLsb' 3 5))
  else if Matches 0xFF00 0xB400 half then
    (onlyRegister (half.extractLsb' 0 8)).map .push
  else if Matches 0xFF00 0xBC00 half then
    (onlyRegister (half.extractLsb' 0 8)).map .pop
  else if half = 0xBF00 then some .nop
  else none

/-- The top bits of the offset of a long branch: the sign and two bits that are kept
combined with it. -/
def branchTop (word : Word) : BitVec 3 :=
  let s := word.extractLsb' 26 1
  s ++ ~~~(word.extractLsb' 13 1 ^^^ s) ++ ~~~(word.extractLsb' 11 1 ^^^ s)

def decodeWide (word : Word) : Option WideInstruction :=
  if Matches 0xF800D000 0xF000D000 word then
    some (.bl (branchTop word ++ word.extractLsb' 16 10 ++ word.extractLsb' 0 11))
  else if Matches 0xF800D001 0xF000C000 word then
    some (.blx (branchTop word ++ word.extractLsb' 16 10 ++ word.extractLsb' 1 10))
  else if Matches 0xF800D000 0xF0009000 word then
    some (.b (branchTop word ++ word.extractLsb' 16 10 ++ word.extractLsb' 0 11))
  else if Matches 0xF800D000 0xF0008000 word then
    -- the last two conditions stand for other instructions
    if Matches 0x03800000 0x03800000 word then none
    else
      some (.bCondition (word.extractLsb' 22 4)
        (word.extractLsb' 26 1 ++ word.extractLsb' 11 1 ++ word.extractLsb' 13 1 ++
          word.extractLsb' 16 6 ++ word.extractLsb' 0 11))
  else if Matches 0xFBFF8000 0xF20F0000 word then
    some (.adr true (word.extractLsb' 8 4)
      (word.extractLsb' 26 1 ++ word.extractLsb' 12 3 ++ word.extractLsb' 0 8))
  else if Matches 0xFBFF8000 0xF2AF0000 word then
    some (.adr false (word.extractLsb' 8 4)
      (word.extractLsb' 26 1 ++ word.extractLsb' 12 3 ++ word.extractLsb' 0 8))
  else if Matches 0xFF7F0000 0xF85F0000 word then
    some (.ldrLiteral (word.getLsbD 23) (word.extractLsb' 12 4) (word.extractLsb' 0 12))
  else none

/-- Writing the result of an addition or a move: register 15 takes execution there. -/
def writeBranching (core : Core) (r : Register) (value : Word) : Core × Next :=
  if r = pc then (core, .branch (value &&& 0xFFFFFFFE) true)
  else (core.set r value, .behind)

/-- The offset of a branch, a number of halfwords. -/
def halfOffset (imm : BitVec width) : Word := (imm ++ 0#1).signExtend 32

/-- What an instruction does.  Register 15 reads as the place and four bytes more. -/
def Instruction.execute (place : Word) (core : Core) : Instruction -> Core × Next
  | bCondition condition imm8 =>
      (core,
        if core.flags.passes condition then .branch (place + 4 + halfOffset imm8) true
        else .behind)
  | b imm11 => (core, .branch (place + 4 + halfOffset imm11) true)
  | bx rm => (core, exchange (core.read (place + 4) rm))
  | add rdn rm =>
      writeBranching core rdn (core.read (place + 4) rdn + core.read (place + 4) rm)
  | mov rd rm => writeBranching core rd (core.read (place + 4) rm)
  | adr rd imm8 => (core.set rd (align (place + 4) + (imm8 ++ 0#2).setWidth 32), .behind)
  | ldrLiteral rt imm8 =>
      (core.set rt (wordAt core.memory (align (place + 4) + (imm8 ++ 0#2).setWidth 32)),
        .behind)
  | cb nonzero rn imm6 =>
      (core,
        if (core.register rn == 0) != nonzero then
          .branch (place + 4 + (imm6 ++ 0#1).setWidth 32) true
        else .behind)
  | push r => (core.push r, .behind)
  | pop r => (core.pop r, .behind)
  | nop => (core, .behind)

def WideInstruction.execute (place : Word) (core : Core) : WideInstruction -> Core × Next
  | bCondition condition imm20 =>
      (core,
        if core.flags.passes condition then .branch (place + 4 + halfOffset imm20) true
        else .behind)
  | b imm24 => (core, .branch (place + 4 + halfOffset imm24) true)
  | bl imm24 =>
      (core.set lr ((place + 4) ||| 1), .branch (place + 4 + halfOffset imm24) true)
  | blx imm23 =>
      (core.set lr ((place + 4) ||| 1),
        .branch (align (place + 4) + (imm23 ++ 0#2).signExtend 32) false)
  | adr up rd imm12 =>
      (core.set rd (offsetAddress up (align (place + 4)) imm12), .behind)
  | ldrLiteral up rt imm12 =>
      core.write rt (wordAt core.memory (offsetAddress up (align (place + 4)) imm12))

/-- The instruction of 16 bits with the given halfword, executed at a place. -/
def perform (others : Others) (place : Word) (half : Half) (core : Core) : Core × Next :=
  match decode half with
  | some instruction => instruction.execute place core
  | none => others place (half.setWidth 32) core

def performWide (others : Others) (place word : Word) (core : Core) : Core × Next :=
  match decodeWide word with
  | some instruction => instruction.execute place core
  | none => others place word core

/-- One instruction of the Thumb instruction set. -/
def stepThumb (others : Others) (place : Word) (core : Core) : Machine :=
  let half := halfAt core.memory place
  if IsWide half then
    let (after, next) :=
      performWide others place (half ++ halfAt core.memory (place + 2)) core
    next.follow place 4 true after
  else
    let (after, next) := perform others place half core
    next.follow place 2 true after

end Thumb
