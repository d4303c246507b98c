import UnityLocalization.Install.Model
import UnityLocalization.Library.SignedField

/-!
# Following the branch at `il2cpp_class_get_methods`

The first instruction of the function is an ARM branch.  Both builds decode it with
two shifts and hook its target.
-/

namespace UnityLocalization
namespace Install

open CMemory SignedField

/-- The word of `B<condition> target` at an address: the condition, the opcode and
the distance from eight bytes behind the instruction, without its two zero bits. -/
def encodeBranch (condition : BitVec 4) (address target : UInt32) : UInt32 :=
  .ofBitVec (condition ++ 0b1010#4 ++
    (target - (address + 8)).toBitVec.extractLsb' 2 24)

/-- Both addresses are aligned, and the branch reaches the target. -/
structure Reaches (address target : UInt32) : Prop where
  address_aligned : address.toNat % 4 = 0
  target_aligned : target.toNat % 4 = 0
  lower : -2 ^ 25 ≤ (target - (address + 8)).toInt32.toInt
  upper : (target - (address + 8)).toInt32.toInt ≤ 2 ^ 25 - 4

/-- The distance is a multiple of four. -/
theorem Reaches.exists_factor {address target : UInt32} (reaches : Reaches address target) :
    ∃ factor : Int, (target - (address + 8)).toInt32.toInt = factor * 2 ^ 2 ∧
      -2 ^ 24 ≤ factor * 2 ∧ factor * 2 < 2 ^ 24 := by
  have lower := reaches.lower
  have upper := reaches.upper
  have distance : (target - (address + 8)).toNat % 4 = 0 := by
    have addressAligned := reaches.address_aligned
    have targetAligned := reaches.target_aligned
    rw [UInt32.toNat_sub, UInt32.toNat_add]
    have eight : (8 : UInt32).toNat = 8 := rfl
    omega
  obtain ⟨carry, value⟩ := exists_toNat_eq (target - (address + 8)).toBitVec
  have signed : (target - (address + 8)).toInt32.toInt % 4 = 0 := by
    rw [UInt32.toNat_toBitVec] at value
    rw [← Int32.toInt_toBitVec, UInt32.toBitVec_toInt32]
    omega
  refine ⟨(target - (address + 8)).toInt32.toInt / 4, ?_, ?_, ?_⟩ <;> omega

/-- The two shifts take the signed field out of the word. -/
theorem toInt_shifts (word : UInt32) :
    ((word.toInt32 <<< 8) >>> 8).toInt = (word.toBitVec.setWidth 24).toInt := by
  have shifted : ((word.toInt32 <<< 8) >>> 8).toBitVec =
      (word.toBitVec.setWidth 24).signExtend 32 :=
    sshiftRight_shiftLeft 8 24 word.toBitVec
  rw [← Int32.toInt_toBitVec, shifted, BitVec.toInt_signExtend_of_le (by decide)]

/-- Decoding the branch at an address gives its target back. -/
theorem branchTarget_encodeBranch
    (condition : BitVec 4) {address target : UInt32} (reaches : Reaches address target) :
    branchTarget address (encodeBranch condition address target) = target := by
  obtain ⟨factor, multiple, lower, upper⟩ := reaches.exists_factor
  have field : (((encodeBranch condition address target).toInt32 <<< 8) >>> 8).toInt =
      factor := by
    have low : (encodeBranch condition address target).toBitVec.setWidth 24 =
        (target - (address + 8)).toBitVec.extractLsb' 2 24 :=
      BitVec.setWidth_append_eq_right
    rw [toInt_shifts, low]
    exact toInt_extractLsb'_of_multiple (by decide) multiple lower upper
  have scaled : (((encodeBranch condition address target).toInt32 <<< 8) >>> 8) * 4 =
      (target - (address + 8)).toInt32 := by
    rw [← Int32.toInt_inj, Int32.toInt_mul, field, show (4 : Int32).toInt = 2 ^ 2 from rfl,
      ← multiple, Int32.toInt_bmod]
  rw [branchTarget, scaled, Int32.toUInt32_add, UInt32.toUInt32_toInt32]
  change target - (address + 8) + 8 + address = target
  rw [UInt32.add_assoc, UInt32.add_comm 8 address, UInt32.sub_add_cancel]

/-- Where the function starts with a branch, its target is hooked. -/
theorem hookGetMethods_encodeBranch
    (environment : Environment) (state : State) (condition : BitVec 4) {target : UInt32}
    (reaches : Reaches (environment.dlsym state.libil2cppHandle) target)
    (present : environment.word (environment.dlsym state.libil2cppHandle) =
      some (encodeBranch condition (environment.dlsym state.libil2cppHandle) target)) :
    branchTarget (environment.dlsym state.libil2cppHandle)
        (encodeBranch condition (environment.dlsym state.libil2cppHandle) target) =
      target ∧
    hookGetMethods environment state =
      .ok (state.dobbyHook target .newFuncGetMethods) := by
  have decoded := branchTarget_encodeBranch condition reaches
  refine ⟨decoded, ?_⟩
  rw [hookGetMethods, present, deref_some, ok_bind, decoded]
  rfl

/-- A backward branch from 4 to FFFFFFFC. -/
def backwardBranch : Environment :=
  ⟨0, fun _ => 4, fun _ => some (encodeBranch 14 4 0xFFFFFFFC), 0⟩

theorem hookGetMethods_encodeBranch_backwardBranch :
    branchTarget 4 (encodeBranch 14 4 0xFFFFFFFC) = 0xFFFFFFFC ∧
      hookGetMethods backwardBranch (initial 0 0) =
        .ok ((initial 0 0).dobbyHook 0xFFFFFFFC .newFuncGetMethods) :=
  hookGetMethods_encodeBranch backwardBranch (initial 0 0) 14
    ⟨by decide, by decide, by decide, by decide⟩ rfl

end Install
end UnityLocalization
