import UnityLocalization.HookEngine.Boundaries
import UnityLocalization.Library.ArmRun

/-!
# Moving ARM instructions

`relocateInstructionInArm` copies the instructions that a jump is about to overwrite to
another place and rewrites those that depend on where they stand.
-/

namespace UnityLocalization
namespace HookEngine

open CMemory WordMemory

/-- `enum INSTRUCTION_TYPE` -/
inductive InstructionType
  | b1Thumb16
  | b2Thumb16
  | bxThumb16
  | addThumb16
  | movThumb16
  | adrThumb16
  | ldrThumb16
  | cbThumb16
  | blxThumb32
  | blThumb32
  | b1Thumb32
  | b2Thumb32
  | adr1Thumb32
  | adr2Thumb32
  | ldrThumb32
  | tbbThumb32
  | tbhThumb32
  | blxArm
  | blArm
  | bArm
  | bxArm
  | addArm
  | adr1Arm
  | adr2Arm
  | movArm
  | ldrArm
  | undefine
  deriving DecidableEq, Repr

def getTypeInArm (instruction : Word) : InstructionType :=
  if instruction &&& 0xFE000000 = 0xFA000000 then .blxArm
  else if instruction &&& 0xF000000 = 0xB000000 then .blArm
  else if instruction &&& 0xF000000 = 0xA000000 then .bArm
  else if instruction &&& 0xFF000FF = 0x120001F then .bxArm
  else if instruction &&& 0xFEF0010 = 0x8F0000 then .addArm
  else if instruction &&& 0xFFF0000 = 0x28F0000 then .adr1Arm
  else if instruction &&& 0xFFF0000 = 0x24F0000 then .adr2Arm
  else if instruction &&& 0xE5F0000 = 0x41F0000 then .ldrArm
  else if instruction &&& 0xFE00FFF = 0x1A0000F then .movArm
  else .undefine

/-- The offset of a branch from the 26 bits `x`. -/
def extendOffset (x : Word) : Word :=
  if x >>> 25 ≠ 0 then x ||| ((0xFFFFFFFF : Word) <<< 26) else x

/-- The highest register from `r` downwards that is neither `rd` nor `rm`. -/
def freeRegister (rd rm : Word) : (r : Nat) -> Word
  | 0 => 0
  | r + 1 =>
      let candidate := BitVec.ofNat 32 (r + 1)
      if candidate ≠ rd ∧ candidate ≠ rm then candidate else freeRegister rd rm r

/-- One turn of the loop: the words that stand for an instruction.  `load` reads the
memory of the process. -/
def relocateArm (load : Word -> Word) (pc instruction : Word) : List Word :=
  match getTypeInArm instruction with
  | .blxArm =>
      let x := ((instruction &&& 0xFFFFFF) <<< 2) ||| ((instruction &&& 0x1000000) >>> 23)
      [0xE28FE004, 0xE51FF004, pc + extendOffset x + 1]
  | .blArm => [0xE28FE004, 0xE51FF004, pc + extendOffset ((instruction &&& 0xFFFFFF) <<< 2)]
  | .bArm => [0xE51FF004, pc + extendOffset ((instruction &&& 0xFFFFFF) <<< 2)]
  | .bxArm => [0xE51FF004, pc + extendOffset 0]
  | .addArm =>
      let rd := (instruction &&& 0xF000) >>> 12
      let rm := instruction &&& 0xF
      let r := freeRegister rd rm 12
      [(0xE52D0004 : Word) ||| (r <<< 12), (0xE59F0008 : Word) ||| (r <<< 12),
        (instruction &&& (0xFFF0FFFF : Word)) ||| (r <<< 16), (0xE49D0004 : Word) ||| (r <<< 12),
        0xE28FF000, pc]
  | .adr1Arm =>
      let r := (instruction &&& 0xF000) >>> 12
      [(0xE51F0000 : Word) ||| (r <<< 12), 0xE28FF000, pc + (instruction &&& 0xFFF)]
  | .adr2Arm =>
      let r := (instruction &&& 0xF000) >>> 12
      [(0xE51F0000 : Word) ||| (r <<< 12), 0xE28FF000, pc - (instruction &&& 0xFFF)]
  | .ldrArm =>
      let r := (instruction &&& 0xF000) >>> 12
      let imm32 := instruction &&& 0xFFF
      let value :=
        if (instruction &&& 0x800000) >>> 23 ≠ 0 then load (pc + imm32)
        else load (pc - imm32)
      [(0xE51F0000 : Word) ||| (r <<< 12), 0xE28FF000, value]
  | .movArm =>
      let r := (instruction &&& 0xF000) >>> 12
      [(0xE51F0000 : Word) ||| (r <<< 12), 0xE28FF000, pc]
  | _ => [instruction]

/-- The loop over the instructions, with the words it writes. -/
def relocateArmLoop (load : Word -> Word) :
    (pc : Word) -> (origPos trampolinePos : Nat) -> (origInstructions : List Word) ->
      Boundaries -> Checked (List Word × Boundaries)
  | _, _, _, [], boundaries => .ok ([], boundaries)
  | pc, origPos, trampolinePos, instruction :: origInstructions, boundaries => do
      let boundaries ← boundaries.record (origPos * 4) (trampolinePos * 4)
      let moved := relocateArm load pc instruction
      let (more, boundaries) ← relocateArmLoop load (pc + 4) (origPos + 1)
        (trampolinePos + moved.length) origInstructions boundaries
      return (moved ++ more, boundaries)

/-- `relocateInstructionInArm`, with the words of the trampoline as its result. -/
def relocateInstructionInArm
    (load : Word -> Word) (targetAddr : Word) (origInstructions : List Word)
    (boundaries : Boundaries) : Checked (List Word × Boundaries) := do
  let (moved, boundaries) ←
    relocateArmLoop load (targetAddr + 8) 0 0 origInstructions boundaries
  return (moved ++ [0xE51FF004, targetAddr + BitVec.ofNat 32 (4 * origInstructions.length)],
    boundaries)

end HookEngine
end UnityLocalization
