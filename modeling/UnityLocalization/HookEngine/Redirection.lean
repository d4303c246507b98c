import UnityLocalization.HookEngine.Registry
import UnityLocalization.HookEngine.ThumbWords

/-!
# Where a patched function leads

Execution that enters a function with the bytes of `doInlineHook` at its beginning goes on
at the new address, in the instruction set that the new address asks for, and nothing
else changes.
-/

namespace UnityLocalization
namespace HookEngine

open WordMemory Arm

/-- Execution goes on at an address whose lowest bit selects the instruction set. -/
def enter (address : Word) (core : Core) : Machine := (exchange address).follow 0 0 false core

theorem enter_eq_follow (address place size : Word) (thumb : Bool) (core : Core) :
    (exchange address).follow place size thumb core = enter address core :=
  follow_exchange address place size 0 0 thumb false core

/-! ## The lowest bit of an address -/

theorem testBit0_eq (address : Word) : testBit0 address = decide (address.toNat % 2 = 1) := by
  have bit : (address &&& 1).toNat = address.toNat % 2 := by
    rw [BitVec.toNat_and]
    exact Nat.and_one_is_mod _
  rw [testBit0, decide_eq_decide, ne_eq, ← BitVec.toNat_inj, bit]
  change ¬address.toNat % 2 = 0 ↔ _
  omega

theorem clearBit0_of_arm {address : Word} (arm : testBit0 address = false) :
    clearBit0 address = address := by
  rw [testBit0_eq, decide_eq_false_iff_not] at arm
  exact clear_of_even (by omega)

theorem clearBit0_even (address : Word) : (clearBit0 address).toNat % 2 = 0 := by
  have low : (clearBit0 address).getLsbD 0 = false := by
    rw [clearBit0, BitVec.getLsbD_and]
    exact Bool.and_false _
  rw [getLsbD_zero_eq, decide_eq_false_iff_not] at low
  omega

theorem enter_arm {address : Word} (arm : testBit0 address = false) (core : Core) :
    enter address core = ⟨core, address, false⟩ := by
  rw [testBit0_eq, decide_eq_false_iff_not] at arm
  rw [enter, exchange_even (by omega), Next.follow_branch]

theorem enter_thumb {address : Word} (thumb : testBit0 address = true) (core : Core) :
    enter address core = ⟨core, clearBit0 address, true⟩ := by
  have low : address.getLsbD 0 = true := by
    rw [getLsbD_zero_eq, ← testBit0_eq, thumb]
  rw [enter, exchange, if_pos low]
  rfl

/-! ## The patch -/

section

variable {others : Others} {core : Core} {item : InlineHookItem}

theorem reaches_of_arm_patch
    (arm : testBit0 item.targetAddr = false)
    (patched : HoldsBytes core.memory (clearBit0 item.targetAddr) (patchBytes item)) :
    Reaches others ⟨core, clearBit0 item.targetAddr, false⟩ (enter item.newAddr core) := by
  rw [patchBytes, arm] at patched
  have jumped := @reaches_jump others core _ _ (holdsWords_of_bytes patched)
  rwa [enter_eq_follow] at jumped

theorem reaches_of_thumb_patch
    (thumb : testBit0 item.targetAddr = true)
    (patched : HoldsBytes core.memory (clearBit0 item.targetAddr) (patchBytes item)) :
    Reaches others ⟨core, clearBit0 item.targetAddr, true⟩ (enter item.newAddr core) := by
  have even := clearBit0_even item.targetAddr
  rw [patchBytes, thumb, if_pos rfl] at patched
  by_cases aligned : (clearBit0 item.targetAddr).toNat % 4 = 0
  · rw [if_neg (not_not.mpr aligned)] at patched
    have jumped := @reaches_longJump others core _ _ aligned (holdsHalves_of_bytes patched)
    rwa [enter_eq_follow] at jumped
  · rw [if_pos aligned] at patched
    obtain ⟨nop, code⟩ := holdsHalves_of_bytes patched
    have behind : (clearBit0 item.targetAddr + 2).toNat % 4 = 0 := by bv_omega
    have jumped := @reaches_longJump others core _ _ behind code
    rw [enter_eq_follow] at jumped
    exact reaches_nop nop jumped

theorem reaches_of_patch
    (patched : HoldsBytes core.memory (clearBit0 item.targetAddr) (patchBytes item)) :
    Reaches others (enter item.targetAddr core) (enter item.newAddr core) := by
  cases mode : testBit0 item.targetAddr with
  | false =>
      rw [enter_arm mode]
      have jumped := @reaches_of_arm_patch others core item mode patched
      rwa [clearBit0_of_arm mode] at jumped
  | true =>
      rw [enter_thumb mode]
      exact reaches_of_thumb_patch mode patched

/-- Execution that calls a patched function goes on at the new address with all registers,
flags and memory as they were. -/
theorem patched_function_leads_to_new_addr
    (patched : HoldsBytes core.memory (clearBit0 item.targetAddr) (patchBytes item)) :
    Reaches others (enter item.targetAddr core) (enter item.newAddr core) :=
  reaches_of_patch patched

end

/-- A Thumb function at an odd halfword that leads to an ARM function. -/
theorem patched_thumb_function_leads_to_arm :
    let others : Others := fun _ _ core => (core, .behind)
    let item : InlineHookItem :=
      { InlineHookItem.unused with targetAddr := 0x1003, newAddr := 0x2000 }
    let core : Core := ⟨fun _ => 0, ⟨false, false, false, false⟩,
      storeBytes (fun _ => 0) (clearBit0 item.targetAddr) (patchBytes item)⟩
    Reaches others (enter item.targetAddr core) (enter item.newAddr core) := by
  intro others item core
  exact patched_function_leads_to_new_addr (storeBytes_holds _ _ (by decide))

/-- The patch is never longer than the instructions that are saved before. -/
theorem length_patchBytes (item : InlineHookItem) :
    (patchBytes item).length ≤ if testBit0 item.targetAddr then 12 else 8 := by
  rw [patchBytes]
  split
  · rw [length_flatMap_halfBytes]
    split <;> simp [longJump, halves]
  · rw [length_flatMap_wordBytes]
    simp

end HookEngine
end UnityLocalization
