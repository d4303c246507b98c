import UnityLocalization.Library.Thumb
import Mathlib.Logic.Function.Iterate

/-!
# Runs of an ARM processor

A run is a number of instructions of either set.  One rule for each kind of instruction
puts it in front of a run.
-/

namespace Arm

open WordMemory

variable {others : Others}

def Machine.step (others : Others) (machine : Machine) : Machine :=
  if machine.thumb then Thumb.stepThumb others machine.place machine.core
  else stepArm others machine.place machine.core

/-- The second state comes some instructions after the first one. -/
def Reaches (others : Others) (start final : Machine) : Prop :=
  ∃ steps, (Machine.step others)^[steps] start = final

theorem Reaches.refl (machine : Machine) : Reaches others machine machine := ⟨0, rfl⟩

theorem Reaches.trans
    {start middle final : Machine}
    (first : Reaches others start middle) (second : Reaches others middle final) :
    Reaches others start final := by
  obtain ⟨early, rfl⟩ := first
  obtain ⟨late, rfl⟩ := second
  exact ⟨late + early, Function.iterate_add_apply _ _ _ _⟩

theorem Reaches.step
    {start final : Machine} (later : Reaches others (start.step others) final) :
    Reaches others start final := by
  obtain ⟨steps, rfl⟩ := later
  exact ⟨steps + 1, Function.iterate_succ_apply _ _ _⟩

/-- An ARM instruction in front of a run. -/
theorem Reaches.arm
    {core : Core} {place word : Word} {result : Core × Next} {final : Machine}
    (fetched : wordAt core.memory place = word)
    (performed : perform others place word core = result)
    (later : Reaches others (result.2.follow place 4 false result.1) final) :
    Reaches others ⟨core, place, false⟩ final := by
  apply Reaches.step
  have stepped : Machine.step others ⟨core, place, false⟩ =
      result.2.follow place 4 false result.1 := by
    rw [Machine.step, if_neg Bool.false_ne_true, stepArm, fetched, performed]
  rwa [stepped]

/-- A Thumb instruction of 16 bits in front of a run. -/
theorem Reaches.thumb
    {core : Core} {place : Word} {half : Half} {result : Core × Next} {final : Machine}
    (fetched : halfAt core.memory place = half) (narrow : ¬Thumb.IsWide half)
    (performed : Thumb.perform others place half core = result)
    (later : Reaches others (result.2.follow place 2 true result.1) final) :
    Reaches others ⟨core, place, true⟩ final := by
  apply Reaches.step
  have stepped : Machine.step others ⟨core, place, true⟩ =
      result.2.follow place 2 true result.1 := by
    rw [Machine.step, if_pos rfl, Thumb.stepThumb]
    simp only [fetched, if_neg narrow, performed]
  rwa [stepped]

/-- A Thumb instruction of 32 bits in front of a run. -/
theorem Reaches.thumbWide
    {core : Core} {place : Word} {high low : Half} {result : Core × Next} {final : Machine}
    (fetchedHigh : halfAt core.memory place = high) (wide : Thumb.IsWide high)
    (fetchedLow : halfAt core.memory (place + 2) = low)
    (performed : Thumb.performWide others place (high ++ low) core = result)
    (later : Reaches others (result.2.follow place 4 true result.1) final) :
    Reaches others ⟨core, place, true⟩ final := by
  apply Reaches.step
  have stepped : Machine.step others ⟨core, place, true⟩ =
      result.2.follow place 4 true result.1 := by
    rw [Machine.step, if_pos rfl, Thumb.stepThumb]
    simp only [fetchedHigh, if_pos wide, fetchedLow, performed]
  rwa [stepped]

@[simp] theorem Next.follow_behind (place size : Word) (thumb : Bool) (core : Core) :
    Next.behind.follow place size thumb core = ⟨core, place + size, thumb⟩ := rfl

@[simp] theorem Next.follow_branch
    (address place size : Word) (thumb before : Bool) (core : Core) :
    (Next.branch address thumb).follow place size before core = ⟨core, address, thumb⟩ := rfl

/-- An exchange goes on at its address, wherever it stands. -/
theorem follow_exchange (value place size other otherSize : Word) (thumb before : Bool)
    (core : Core) :
    (exchange value).follow place size thumb core =
      (exchange value).follow other otherSize before core := by
  rw [exchange]
  split <;> rfl

theorem thumbPerform_of_decode
    {place : Word} {half : Half} {core : Core} {instruction : Thumb.Instruction}
    (decoded : Thumb.decode half = some instruction) :
    Thumb.perform others place half core = instruction.execute place core := by
  rw [Thumb.perform, decoded]

theorem thumbPerformWide_of_decode
    {place word : Word} {core : Core} {instruction : Thumb.WideInstruction}
    (decoded : Thumb.decodeWide word = some instruction) :
    Thumb.performWide others place word core = instruction.execute place core := by
  rw [Thumb.performWide, decoded]

/-- An instruction whose condition holds is executed. -/
theorem perform_of_decode
    {place word : Word} {core : Core} {instruction : Instruction}
    (decoded : decode word = some instruction)
    (holds : core.flags.passes (condition word) = true) :
    perform others place word core = instruction.execute place core := by
  rw [perform, decoded]
  exact if_pos holds

/-! ## Cores -/

@[simp] theorem Core.set_same (core : Core) (r : Register) (value : Word) :
    (core.set r value).register r = value := Function.update_self _ _ _

@[simp] theorem Core.set_self (core : Core) (r : Register) :
    core.set r (core.register r) = core := by
  simp [Core.set]

@[simp] theorem Core.set_set (core : Core) (r : Register) (first second : Word) :
    (core.set r first).set r second = core.set r second := by
  simp [Core.set]

theorem Core.set_other
    {r other : Register} (different : other ≠ r) (core : Core) (value : Word) :
    (core.set r value).register other = core.register other :=
  Function.update_of_ne different _ _

@[simp] theorem Core.set_flags (core : Core) (r : Register) (value : Word) :
    (core.set r value).flags = core.flags := rfl

@[simp] theorem Core.set_memory (core : Core) (r : Register) (value : Word) :
    (core.set r value).memory = core.memory := rfl

@[simp] theorem Core.read_pc (core : Core) (pcValue : Word) :
    core.read pcValue pc = pcValue := if_pos rfl

theorem Core.read_of_ne
    {r : Register} (notPc : r ≠ pc) (core : Core) (pcValue : Word) :
    core.read pcValue r = core.register r := if_neg notPc

@[simp] theorem Core.write_pc (core : Core) (value : Word) :
    core.write pc value = (core, exchange value) := if_pos rfl

theorem Core.set_inj {core : Core} {r : Register} {value other : Word} :
    core.set r value = core.set r other ↔ value = other := by
  refine ⟨fun same => ?_, congrArg _⟩
  have read := congrArg (fun final => final.register r) same
  rwa [Core.set_same, Core.set_same] at read

theorem Core.write_of_ne
    {r : Register} (notPc : r ≠ pc) (core : Core) (value : Word) :
    core.write r value = (core.set r value, .behind) := if_neg notPc

@[simp] theorem Core.push_flags (core : Core) (r : Register) :
    (core.push r).flags = core.flags := rfl

@[simp] theorem Core.push_memory (core : Core) (r : Register) :
    (core.push r).memory = storeBytes core.memory (core.register sp - 4)
      (wordBytes (core.register r)) := rfl

@[simp] theorem Core.push_sp (core : Core) (r : Register) :
    (core.push r).register sp = core.register sp - 4 := core.set_same sp _

theorem Core.push_other
    {r other : Register} (notSp : other ≠ sp) (core : Core) :
    (core.push r).register other = core.register other := core.set_other notSp _

@[simp] theorem Core.pop_flags (core : Core) (r : Register) :
    (core.pop r).flags = core.flags := rfl

@[simp] theorem Core.pop_memory (core : Core) (r : Register) :
    (core.pop r).memory = core.memory := rfl

theorem execute_push (place : Word) (core : Core) {r : Register} (notPc : r ≠ pc) :
    (Instruction.str true false true r sp 4).execute place core = (core.push r, .behind) := by
  simp [Instruction.execute, transfer, offsetAddress, Core.read, notPc, Core.push,
    show sp ≠ pc by decide]

theorem execute_pop (place : Word) (core : Core) {r : Register} (notPc : r ≠ pc) :
    (Instruction.ldr false true false r sp 4).execute place core = (core.pop r, .behind) := by
  simp [Instruction.execute, transfer, offsetAddress, Core.read, Core.write, notPc, Core.pop,
    show sp ≠ pc by decide]

/-- What stands between saving a register and taking it back may use the register. -/
theorem Core.pop_of_push
    {core middle : Core} {r : Register}
    (stack : middle.register sp = core.register sp - 4)
    (memory : middle.memory = (core.push r).memory) :
    middle.pop r = (middle.set sp (core.register sp)).set r (core.register r) := by
  have moved : core.register sp - 4 + 4 = core.register sp := BitVec.sub_add_cancel _ _
  rw [Core.pop, memory, stack, moved, Core.push_memory, wordAt_storeBytes]

/-- Loading a word relative to the place. -/
theorem execute_ldr_pc (place : Word) (core : Core) (up : Bool) (rt : Register)
    (imm12 : BitVec 12) :
    (Instruction.ldr true up false rt pc imm12).execute place core =
      core.write rt (wordAt core.memory (offsetAddress up (place + 8) imm12)) := by
  simp [Instruction.execute, transfer]

/-- Adding a constant to the place. -/
theorem execute_addImmediate_pc (place : Word) (core : Core) (rd : Register)
    (imm12 : BitVec 12) :
    (Instruction.addImmediate rd pc imm12).execute place core =
      core.write rd (place + 8 + expandImmediate imm12) := by
  simp [Instruction.execute]

theorem execute_subImmediate_pc (place : Word) (core : Core) (rd : Register)
    (imm12 : BitVec 12) :
    (Instruction.subImmediate rd pc imm12).execute place core =
      core.write rd (place + 8 - expandImmediate imm12) := by
  simp [Instruction.execute]

/-! ## Addresses -/

theorem getLsbD_zero_eq (address : Word) :
    address.getLsbD 0 = decide (address.toNat % 2 = 1) := by
  rw [BitVec.getLsbD, Nat.testBit_zero]

theorem exchange_even {address : Word} (even : address.toNat % 2 = 0) :
    exchange address = .branch address false := by
  rw [exchange, getLsbD_zero_eq, if_neg (by simp [even])]

theorem and_one_of_even {address : Word} (even : address.toNat % 2 = 0) :
    address &&& 1 = 0 := by
  apply BitVec.eq_of_toNat_eq
  rw [BitVec.toNat_and]
  simpa [Nat.and_one_is_mod] using even

theorem clear_of_even {address : Word} (even : address.toNat % 2 = 0) :
    address &&& 0xFFFFFFFE = address := by
  calc
    address &&& 0xFFFFFFFE = (address &&& 0xFFFFFFFE) ||| (address &&& 1) := by
      rw [and_one_of_even even]
      exact BitVec.or_zero.symm
    _ = address &&& BitVec.allOnes 32 := BitVec.and_or_distrib_left.symm
    _ = address := BitVec.and_allOnes

theorem and_three_of_aligned {address : Word} (aligned : address.toNat % 4 = 0) :
    address &&& 3 = 0 := by
  apply BitVec.eq_of_toNat_eq
  rw [BitVec.toNat_and]
  exact (Nat.and_two_pow_sub_one_eq_mod address.toNat 2).trans aligned

/-- A word address is below itself. -/
theorem align_of_aligned {address : Word} (aligned : address.toNat % 4 = 0) :
    Thumb.align address = address := by
  calc
    Thumb.align address = (address &&& 0xFFFFFFFC) ||| (address &&& 3) := by
      rw [and_three_of_aligned aligned, Thumb.align]
      exact BitVec.or_zero.symm
    _ = address &&& BitVec.allOnes 32 := BitVec.and_or_distrib_left.symm
    _ = address := BitVec.and_allOnes

/-- A word address is below the halfword in its middle. -/
theorem align_add_two {address : Word} (aligned : address.toNat % 4 = 0) :
    Thumb.align (address + 2) = address := by
  have apart : address &&& 2 = 0 := by
    have low := congrArg (· &&& (2 : Word)) (and_three_of_aligned aligned)
    simp only [BitVec.and_assoc] at low
    exact low
  calc
    Thumb.align (address + 2) = (address ||| 2) &&& 0xFFFFFFFC := by
      rw [Thumb.align, BitVec.add_eq_or_of_and_eq_zero _ _ apart]
    _ = (0xFFFFFFFC &&& address) ||| 0 := by
      rw [BitVec.and_comm, BitVec.and_or_distrib_left]
      rfl
    _ = Thumb.align address := by
      rw [BitVec.and_comm]
      exact BitVec.or_zero
    _ = address := align_of_aligned aligned

theorem add_one_of_even {address : Word} (even : address.toNat % 2 = 0) :
    address + 1 = address ||| 1 :=
  BitVec.add_eq_or_of_and_eq_zero _ _ (and_one_of_even even)

theorem clear_odd {address : Word} (even : address.toNat % 2 = 0) :
    (address ||| 1) &&& 0xFFFFFFFE = address := by
  rw [BitVec.and_comm, BitVec.and_or_distrib_left, BitVec.and_comm, clear_of_even even]
  exact BitVec.or_zero

theorem exchange_odd {address : Word} (even : address.toNat % 2 = 0) :
    exchange (address ||| 1) = .branch address true := by
  rw [exchange, if_pos (by simp), clear_odd even]

/-! ## Words given by their bits -/

section

variable {width : Nat}

/-- A field taken out by a shift and a mask. -/
theorem shiftRight_and_mask (word : BitVec width) (low size : Nat) :
    (word >>> low) &&& (BitVec.allOnes size).setWidth width =
      (word.extractLsb' low size).setWidth width := by
  ext index inside
  by_cases inField : index < size <;> simp [inField]

theorem and_mask (word : BitVec width) (size : Nat) :
    word &&& (BitVec.allOnes size).setWidth width =
      (word.extractLsb' 0 size).setWidth width := by
  rw [← shiftRight_and_mask, BitVec.ushiftRight_zero]

/-- A field taken out by a mask and a shift that leaves zeros behind it. -/
theorem masked_field
    (word : BitVec width) {up down size : Nat} (fits : up + down + size ≤ width) :
    (word &&& (BitVec.allOnes size).setWidth width <<< (up + down)) >>> down =
      (word.extractLsb' (up + down) size).setWidth width <<< up := by
  apply BitVec.eq_of_getLsbD_eq
  intro index inside
  have shift : down + index < up + down ↔ index < up := by omega
  have behind : down + index - (up + down) = index - up := by omega
  by_cases inField : index - up < size ∧ up ≤ index
  · have place : up + down + (index - up) = down + index := by omega
    have low : ¬index < up := by omega
    have within : down + index < width := by omega
    simp [shift, behind, inField, place, inside, low, within]
  · rw [not_and_or, Nat.not_le] at inField
    rcases inField with outside | below
    · simp [shift, behind, outside]
    · simp [shift, below]

theorem lowered_field (word : BitVec width) {low size : Nat} (fits : low + size ≤ width) :
    (word &&& (BitVec.allOnes size).setWidth width <<< low) >>> low =
      (word.extractLsb' low size).setWidth width := by
  have field := @masked_field width word 0 low size (by omega)
  rwa [Nat.zero_add, BitVec.shiftLeft_zero] at field

/-- The bits of a word do not depend on the zeros above it. -/
theorem extractLsb'_setWidth
    (word : BitVec width) (low size : Nat) {wider : Nat} (le : width ≤ wider) :
    (word.setWidth wider).extractLsb' low size = word.extractLsb' low size := by
  ext index inside
  simp only [BitVec.getElem_extractLsb', BitVec.getLsbD_setWidth, Bool.and_eq_right_iff_imp,
    decide_eq_true_eq]
  exact fun set => Nat.lt_of_lt_of_le (BitVec.lt_of_getLsbD set) le

/-- A part of a field. -/
theorem extractLsb'_extractLsb'
    (word : BitVec width) {low size inner innerSize : Nat} (fits : inner + innerSize ≤ size) :
    (word.extractLsb' low size).extractLsb' inner innerSize =
      word.extractLsb' (low + inner) innerSize := by
  ext index inside
  have within : inner + index < size := by omega
  simp [within, Nat.add_assoc]

/-- A field that is shifted up has zeros behind it. -/
theorem shiftLeft_field {size : Nat} (field : BitVec size) (zeros : Nat) :
    field.setWidth width <<< zeros = (field ++ BitVec.ofNat zeros 0).setWidth width := by
  rw [BitVec.setWidth_append_eq_shiftLeft_setWidth_or, BitVec.setWidth_zero]
  exact BitVec.or_zero.symm

/-- A single bit as a word. -/
theorem setWidth_bit (word : Word) (index : Nat) :
    (word.extractLsb' index 1).setWidth 32 = if word.getLsbD index then 1 else 0 := by
  rw [← shiftRight_and_mask]
  change word >>> index &&& BitVec.twoPow 32 0 = _
  rw [BitVec.and_twoPow, BitVec.getLsbD_ushiftRight, Nat.add_zero]
  rfl

/-- An offset that counts halfwords or words is even. -/
theorem append_zeros_low {size : Nat} (field : BitVec size) (zeros : Nat) :
    ((field ++ BitVec.ofNat (zeros + 1) 0).signExtend 32).getLsbD 0 = false := by
  rw [BitVec.getLsbD_signExtend, if_pos (by omega), BitVec.getLsbD_append,
    if_pos (Nat.succ_pos zeros)]
  simp

/-- A sum is even if an even word is moved by an even offset. -/
theorem even_add
    {address offset : Word} (evenAddress : address.toNat % 2 = 0)
    (evenOffset : offset.getLsbD 0 = false) : (address + offset).toNat % 2 = 0 := by
  rw [getLsbD_zero_eq, decide_eq_false_iff_not] at evenOffset
  bv_omega

/-- Only the bits that the mask looks at matter. -/
theorem Matches.congr
    {mask value word other : BitVec width} (known : Matches mask value word)
    (same : ∀ index, mask.getLsbD index = true ->
      other.getLsbD index = word.getLsbD index) : Matches mask value other := by
  rw [Matches] at known ⊢
  rw [← known]
  apply BitVec.eq_of_getLsbD_eq
  intro index _
  rw [BitVec.getLsbD_and, BitVec.getLsbD_and]
  cases asked : mask.getLsbD index with
  | false => rw [Bool.and_false, Bool.and_false]
  | true => rw [same index asked]

/-- Bits outside the mask may be cleared. -/
theorem matches_masked_iff
    {mask value keep word : BitVec width} (kept : keep &&& mask = mask) :
    Matches mask value (word &&& keep) ↔ Matches mask value word := by
  rw [Matches, Matches, BitVec.and_assoc, kept]

theorem field_kept
    {keep : BitVec width} {low size : Nat} (word : BitVec width)
    (all : keep.extractLsb' low size = BitVec.allOnes size) :
    (word &&& keep).extractLsb' low size = word.extractLsb' low size := by
  rw [BitVec.extractLsb'_and, all, BitVec.and_allOnes]

theorem field_cleared
    {keep : BitVec width} {low size : Nat} (word : BitVec width)
    (cleared : keep.extractLsb' low size = 0) : (word &&& keep).extractLsb' low size = 0 := by
  rw [BitVec.extractLsb'_and, cleared]
  exact BitVec.and_zero

/-- Bits that are known stay known under a smaller mask. -/
theorem Matches.weaken
    {mask value smaller word : BitVec width}
    (known : Matches mask value word) (below : mask &&& smaller = smaller) :
    Matches smaller (value &&& smaller) word := by
  rw [Matches] at known ⊢
  rw [← known, BitVec.and_assoc, below]

theorem Matches.join
    {mask value otherMask otherValue word : BitVec width}
    (first : Matches mask value word) (second : Matches otherMask otherValue word) :
    Matches (mask ||| otherMask) (value ||| otherValue) word := by
  rw [Matches] at first second ⊢
  rw [BitVec.and_or_distrib_left, first, second]

/-- Two descriptions that differ on a common bit exclude each other. -/
theorem Matches.excludes
    {mask value otherMask otherValue word : BitVec width}
    (known : Matches mask value word) (conflict : value &&& otherMask ≠ otherValue &&& mask) :
    ¬Matches otherMask otherValue word := by
  intro also
  apply conflict
  rw [Matches] at known also
  rw [← known, ← also, BitVec.and_assoc, BitVec.and_assoc, BitVec.and_comm mask]

end

end Arm
