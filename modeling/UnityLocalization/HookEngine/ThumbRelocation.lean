import UnityLocalization.HookEngine.ArmRelocation

/-!
# Moving Thumb instructions

`relocateInstructionInThumb` does for Thumb instructions, which have one or two
halfwords, what `relocateInstructionInArm` does for ARM instructions.
-/

namespace UnityLocalization
namespace HookEngine

open CMemory WordMemory

def getTypeInThumb16 (instruction : Half) : InstructionType :=
  if instruction &&& 0xF000 = 0xD000 then .b1Thumb16
  else if instruction &&& 0xF800 = 0xE000 then .b2Thumb16
  else if instruction &&& 0xFFF8 = 0x4778 then .bxThumb16
  else if instruction &&& 0xFF78 = 0x4478 then .addThumb16
  else if instruction &&& 0xFF78 = 0x4678 then .movThumb16
  else if instruction &&& 0xF800 = 0xA000 then .adrThumb16
  else if instruction &&& 0xF800 = 0x4800 then .ldrThumb16
  else if instruction &&& 0xF500 = 0xB100 then .cbThumb16
  else .undefine

def getTypeInThumb32 (instruction : Word) : InstructionType :=
  if instruction &&& 0xFFF0D000 = 0xF3B08000 then .undefine
  else if instruction &&& 0xF800D000 = 0xF000C000 then .blxThumb32
  else if instruction &&& 0xF800D000 = 0xF000D000 then .blThumb32
  else if instruction &&& 0xF800D000 = 0xF0008000 then .b1Thumb32
  else if instruction &&& 0xF800D000 = 0xF0009000 then .b2Thumb32
  else if instruction &&& 0xFBFF8000 = 0xF2AF0000 then .adr1Thumb32
  else if instruction &&& 0xFBFF8000 = 0xF20F0000 then .adr2Thumb32
  else if instruction &&& 0xFF7F0000 = 0xF85F0000 then .ldrThumb32
  else if instruction &&& 0xFFFF00F0 = 0xE8DF0000 then .tbbThumb32
  else if instruction &&& 0xFFFF00F0 = 0xE8DF0010 then .tbhThumb32
  else .undefine

/-- `ALIGN_PC` -/
def alignPc (pc : Word) : Word := pc &&& 0xFFFFFFFC

/-- The two halfwords of a word in the code. -/
def halves (value : Word) : List Half := [value.setWidth 16, (value >>> 16).setWidth 16]

/-- `LDR.W PC, [PC]` and the address it loads. -/
def longJump (value : Word) : List Half := 0xF8DF :: 0xF000 :: halves value

/-- `x`, with the bits above `bits` set if its bit `bits` is. -/
def extendFrom (bits : Nat) (x : Word) : Word :=
  if x >>> bits ≠ 0 then x ||| ((0xFFFFFFFF : Word) <<< bits) else x

/-- `x`, with the bits from `bits` on set if the sign is. -/
def extendSigned (s : Word) (bits : Nat) (x : Word) : Word :=
  if s ≠ 0 then x ||| ((0xFFFFFFFF : Word) <<< bits) else x

/-- The highest of the registers up to 7 that is not among the given ones. -/
def freeLowRegister (taken : List Half) : (r : Nat) -> Half
  | 0 => 0
  | r + 1 =>
      if BitVec.ofNat 16 (r + 1) ∈ taken then freeLowRegister taken r
      else BitVec.ofNat 16 (r + 1)

/-- `relocateInstructionInThumb16`, with the halfwords it writes as its result. -/
def relocateInstructionInThumb16
    (load : Word -> Word) (pc : Word) (instruction : Half) : List Half :=
  let wide : Word := instruction.setWidth 32
  match getTypeInThumb16 instruction with
  | .b1Thumb16 =>
      let value := pc + extendFrom 8 ((wide &&& 0xFF) <<< 1)
      (instruction &&& 0xFF00) :: 0xE003 :: longJump (value ||| 1)
  | .b2Thumb16 =>
      let value := pc + extendFrom 11 ((wide &&& 0x7FF) <<< 1)
      longJump (value ||| 1)
  | .bxThumb16 => longJump (pc ||| 1)
  | .addThumb16 =>
      let rdn := ((instruction &&& 0x80) >>> 4) ||| (instruction &&& 0x7)
      let r := freeLowRegister [rdn] 7
      [(0xB400 : Half) ||| ((1 : Half) <<< r), (0x4802 : Half) ||| (r <<< 8),
        (instruction &&& (0xFF87 : Half)) ||| (r <<< 3), (0xBC00 : Half) ||| ((1 : Half) <<< r),
        0xE002, 0xBF00] ++ halves pc
  | .movThumb16 =>
      let r := instruction &&& 0x7
      [(0x4800 : Half) ||| (r <<< 8), 0xE001] ++ halves pc
  | .adrThumb16 =>
      let r := (instruction &&& 0x700) >>> 8
      -- the sum is shifted, not only the offset
      let value := (alignPc pc + (wide &&& 0xFF)) <<< 2
      [(0x4800 : Half) ||| (r <<< 8), 0xE001] ++ halves value
  | .ldrThumb16 =>
      let r := (instruction &&& 0x700) >>> 8
      let value := load (alignPc pc + ((wide &&& 0xFF) <<< 2))
      [(0x4800 : Half) ||| (r <<< 8), 0xE001] ++ halves value
  | .cbThumb16 =>
      let imm32 := ((wide &&& 0x200) >>> 3) ||| ((wide &&& 0xF8) >>> 2)
      (instruction &&& 0xFD07) :: 0xE003 :: longJump (pc + imm32 + 1)
  | _ => [instruction, 0xBF00]

/-- `relocateInstructionInThumb32`, with the halfwords it writes as its result. -/
def relocateInstructionInThumb32
    (load : Word -> Word) (pc : Word) (highInstruction lowInstruction : Half) : List Half :=
  let high : Word := highInstruction.setWidth 32
  let low : Word := lowInstruction.setWidth 32
  let instruction := (high <<< 16) ||| low
  let j1 := (low &&& 0x2000) >>> 13
  let j2 := (low &&& 0x800) >>> 11
  let s := (high &&& 0x400) >>> 10
  let i1 : Word := if j1 ^^^ s = 0 then 1 else 0
  let i2 : Word := if j2 ^^^ s = 0 then 1 else 0
  let top := (s <<< 24) ||| (i1 <<< 23) ||| (i2 <<< 22) ||| ((high &&& 0x3FF) <<< 12)
  match getTypeInThumb32 instruction with
  | .blxThumb32 =>
      let value := alignPc pc + extendSigned s 25 (top ||| ((low &&& 0x7FE) <<< 1))
      0xF20F :: 0x0E09 :: longJump value
  | .blThumb32 =>
      let value := alignPc pc + extendSigned s 25 (top ||| ((low &&& 0x7FF) <<< 1)) + 1
      0xF20F :: 0x0E09 :: longJump value
  | .b1Thumb32 =>
      let x := (s <<< 20) ||| (j2 <<< 19) ||| (j1 <<< 18) ||| ((high &&& 0x3F) <<< 12) |||
        ((low &&& 0x7FF) <<< 1)
      let value := alignPc pc + extendSigned s 21 x + 1
      ((0xD000 : Half) ||| ((highInstruction &&& 0x3C0) <<< 2)) :: 0xE003 :: longJump value
  | .b2Thumb32 =>
      longJump (alignPc pc + extendSigned s 25 (top ||| ((low &&& 0x7FF) <<< 1)) + 1)
  | .adr1Thumb32 =>
      let r := (lowInstruction &&& 0xF00) >>> 8
      let imm32 := (s <<< 31) ||| (((low &&& 0x7000) >>> 12) <<< 30) |||
        ((instruction &&& 0xFF) <<< 27)
      [(0xF8DF : Half), (r <<< 12) ||| (4 : Half), 0xBF00, 0xE001] ++ halves (alignPc pc + imm32)
  | .adr2Thumb32 =>
      let r := (lowInstruction &&& 0xF00) >>> 8
      let imm32 := (s <<< 31) ||| (((low &&& 0x7000) >>> 12) <<< 30) |||
        ((instruction &&& 0xFF) <<< 27)
      [(0xF8DF : Half), (r <<< 12) ||| (4 : Half), 0xBF00, 0xE001] ++ halves (alignPc pc - imm32)
  | .ldrThumb32 =>
      let r := lowInstruction >>> 12
      let imm32 := low &&& 0xFFF
      let value :=
        if (highInstruction &&& 0x80) >>> 7 ≠ 0 then load (alignPc pc + imm32)
        else load (alignPc pc - imm32)
      [(0xF8DF : Half), (r <<< 12) ||| (4 : Half), 0xBF00, 0xE001] ++ halves value
  | .tbbThumb32 =>
      let rm := lowInstruction &&& 0xF
      let r := freeLowRegister [rm] 7
      let rx := freeLowRegister [rm, r] 7
      [(0xB400 : Half) ||| ((1 : Half) <<< rx), (0x4805 : Half) ||| (r <<< 8),
        (0x4600 : Half) ||| (rm <<< 3) ||| rx, (0xEB00 : Half) ||| r, (rx <<< 8) ||| rx,
        (0x7800 : Half) ||| (rx <<< 3) ||| rx, (0xEB00 : Half) ||| r,
        (0x0040 : Half) ||| (r <<< 8) ||| rx, (0x3001 : Half) ||| (r <<< 8),
        (0xBC00 : Half) ||| ((1 : Half) <<< rx), (0x4700 : Half) ||| (r <<< 3), 0xBF00] ++
        halves pc
  | .tbhThumb32 =>
      let rm := lowInstruction &&& 0xF
      let r := freeLowRegister [rm] 7
      let rx := freeLowRegister [rm, r] 7
      [(0xB400 : Half) ||| ((1 : Half) <<< rx), (0x4805 : Half) ||| (r <<< 8),
        (0x4600 : Half) ||| (rm <<< 3) ||| rx, (0xEB00 : Half) ||| r,
        (0x0040 : Half) ||| (rx <<< 8) ||| rx, (0x8800 : Half) ||| (rx <<< 3) ||| rx,
        (0xEB00 : Half) ||| r, (0x0040 : Half) ||| (r <<< 8) ||| rx,
        (0x3001 : Half) ||| (r <<< 8), (0xBC00 : Half) ||| ((1 : Half) <<< rx),
        (0x4700 : Half) ||| (r <<< 3), 0xBF00] ++ halves pc
  | _ => [highInstruction, lowInstruction]

/-- The first halfword of an instruction that has two. -/
def isThumb32 (instruction : Half) : Bool :=
  0x1D ≤ (instruction >>> 11).toNat && (instruction >>> 11).toNat ≤ 0x1F

/-- The loop over the instructions, with the halfwords it writes and the position it ends
at. -/
def relocateThumbLoop (load : Word -> Word) :
    (pc : Word) -> (origPos trampolinePos : Nat) -> (origInstructions : List Half) ->
      Boundaries -> Checked (List Half × Nat × Boundaries)
  | _, origPos, _, [], boundaries => .ok ([], origPos, boundaries)
  | pc, origPos, trampolinePos, instruction :: rest, boundaries => do
      let boundaries ← boundaries.record (origPos * 2) (trampolinePos * 2)
      if isThumb32 instruction then
        match rest with
        | [] => return ([], origPos, boundaries)
        | low :: rest => do
            let moved := relocateInstructionInThumb32 load pc instruction low
            let (more, final, boundaries) ← relocateThumbLoop load (pc + 4) (origPos + 2)
              (trampolinePos + moved.length) rest boundaries
            return (moved ++ more, final, boundaries)
      else do
        let moved := relocateInstructionInThumb16 load pc instruction
        let (more, final, boundaries) ← relocateThumbLoop load (pc + 2) (origPos + 1)
          (trampolinePos + moved.length) rest boundaries
        return (moved ++ more, final, boundaries)

/-- `relocateInstructionInThumb`, with the halfwords of the trampoline as its result. -/
def relocateInstructionInThumb
    (load : Word -> Word) (targetAddr : Word) (origInstructions : List Half)
    (boundaries : Boundaries) : Checked (List Half × Boundaries) := do
  let (moved, origPos, boundaries) ←
    relocateThumbLoop load (targetAddr + 4) 0 0 origInstructions boundaries
  let lr := targetAddr + BitVec.ofNat 32 (2 * origPos) + 1
  return (moved ++ longJump lr, boundaries)

end HookEngine
end UnityLocalization
