import Mathlib.Data.LawfulXor.Basic

/-!
# Masking a prefix with XOR

Masking the same prefix with one value after the other is masking it once with the
XOR of all of them.  A mask leaves a nonempty prefix alone only if it is zero.
-/

namespace XorMask

variable {α : Type*} [XorOp α] [Zero α]

/-- XOR the first `length` values with a mask. -/
def maskBelow (length : Nat) (mask : α) (values : List α) : List α :=
  values.mapIdx fun index value => if index < length then mask ^^^ value else value

/-- The XOR of all parts of a key. -/
def xorAll (key : List α) : α := key.foldr (· ^^^ ·) 0

omit [Zero α] in
@[simp] theorem length_maskBelow (length : Nat) (mask : α) (values : List α) :
    (maskBelow length mask values).length = values.length := by
  simp [maskBelow]

omit [Zero α] in
theorem getElem?_maskBelow (length : Nat) (mask : α) (values : List α) (index : Nat) :
    (maskBelow length mask values)[index]? =
      values[index]?.map fun value => if index < length then mask ^^^ value else value := by
  simp [maskBelow]

@[simp] theorem xorAll_nil : xorAll ([] : List α) = 0 := rfl

@[simp] theorem xorAll_cons (part : α) (key : List α) :
    xorAll (part :: key) = part ^^^ xorAll key := rfl

variable [LawfulXor α]

/-- Two masks of one range combine. -/
theorem maskBelow_maskBelow (length : Nat) (first second : α) (values : List α) :
    maskBelow length second (maskBelow length first values) =
      maskBelow length (first ^^^ second) values := by
  apply List.ext_getElem?
  intro index
  simp only [getElem?_maskBelow, Option.map_map]
  congr 1
  funext value
  by_cases below : index < length
  · simp only [Function.comp_apply, if_pos below]
    rw [← xor_assoc, xor_comm second first]
  · simp only [Function.comp_apply, if_neg below]

theorem maskBelow_zero (length : Nat) (values : List α) :
    maskBelow length 0 values = values := by
  apply List.ext_getElem?
  intro index
  simp [getElem?_maskBelow]

/-- A mask that changes nothing masks nothing or is zero. -/
theorem maskBelow_eq_self_iff
    {length : Nat} {values : List α} (mask : α) (inside : length ≤ values.length) :
    maskBelow length mask values = values ↔ length = 0 ∨ mask = 0 := by
  constructor
  · intro same
    by_cases none : length = 0
    · exact .inl none
    · have here : 0 < values.length := by omega
      have first := congrArg (fun masked => masked[0]?) same
      simp only [getElem?_maskBelow, List.getElem?_eq_getElem here, Option.map_some,
        if_pos (Nat.pos_of_ne_zero none), Option.some.injEq, xor_eq_iff_left_eq,
        LawfulXor.xor_self] at first
      exact .inr first
  · rintro (rfl | rfl)
    · apply List.ext_getElem?
      intro index
      simp [getElem?_maskBelow]
    · exact maskBelow_zero _ _

theorem xorAll_append (front back : List α) :
    xorAll (front ++ back) = xorAll front ^^^ xorAll back := by
  induction front with
  | nil => simp
  | cons part front inductionHypothesis =>
      rw [List.cons_append, xorAll_cons, xorAll_cons, inductionHypothesis, xor_assoc]

end XorMask
