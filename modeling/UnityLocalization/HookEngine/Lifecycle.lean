import UnityLocalization.HookEngine.Registry
import UnityLocalization.Library.Transition

/-!
# The life of a hook

Seen from outside, the engine keeps one of three states for every function.  Over any run
the registry answers as this abstract table does.
-/

namespace UnityLocalization
namespace HookEngine

open CMemory WordMemory

/-! ## What the engine is for -/

/-- The state of a function that is registered. -/
inductive HookState
  | registered
  | hooked
  deriving DecidableEq

/-- The functions with their states. -/
abbrev HookTable := Word -> Option HookState

namespace HookTable

def register (executable : Bool) (target : Word) (table : HookTable) :
    HookTable × Ele7enStatus :=
  if executable then
    match table target with
    | none => (Function.update table target (some .registered), .ok)
    | some .registered => (table, .errorAlreadyRegistered)
    | some .hooked => (table, .errorAlreadyHooked)
  else (table, .errorNotExecutable)

def hook (target : Word) (table : HookTable) : HookTable × Ele7enStatus :=
  match table target with
  | none => (table, .errorNotRegistered)
  | some .registered => (Function.update table target (some .hooked), .ok)
  | some .hooked => (table, .errorAlreadyHooked)

def unHook (target : Word) (table : HookTable) : HookTable × Ele7enStatus :=
  match table target with
  | some .hooked => (Function.update table target none, .ok)
  | _ => (table, .errorNotHooked)

def hookAll (table : HookTable) : HookTable := fun target =>
  (table target).map fun _ => .hooked

def unHookAll (table : HookTable) : HookTable := fun target =>
  (table target).filter (· ≠ .hooked)

end HookTable

/-! ## Calls of the engine -/

inductive Call
  | register (answers : Answers) (targetAddr newAddr protoAddr : Word)
  | hook (targetAddr : Word)
  | unHook (targetAddr : Word)
  | hookAll
  | unHookAll
  /-- The other threads run on. -/
  | schedule (threads : List Word)

/-- A call, and what it returns. -/
def call (process : Process) : Call -> Checked (Process × Option Ele7enStatus)
  | .register answers targetAddr newAddr protoAddr =>
      (registerInlineHook answers targetAddr newAddr protoAddr process).map
        fun (process, status) => (process, some status)
  | .hook targetAddr =>
      let (process, status) := inlineHook targetAddr process
      .ok (process, some status)
  | .unHook targetAddr =>
      let (process, status) := inlineUnHook targetAddr process
      .ok (process, some status)
  | .hookAll => .ok (inlineHookAll process, none)
  | .unHookAll => .ok (inlineUnHookAll process, none)
  | .schedule threads => .ok ({ process with threads := threads }, none)

/-- The same call on the abstract table. -/
def HookTable.call (table : HookTable) : Call -> HookTable × Option Ele7enStatus
  | .register answers targetAddr newAddr _ =>
      let (table, status) := table.register
        (answers.isExecutableAddr targetAddr && answers.isExecutableAddr newAddr) targetAddr
      (table, some status)
  | .hook targetAddr =>
      let (table, status) := table.hook targetAddr
      (table, some status)
  | .unHook targetAddr =>
      let (table, status) := table.unHook targetAddr
      (table, some status)
  | .hookAll => (table.hookAll, none)
  | .unHookAll => (table.unHookAll, none)
  | .schedule _ => (table, none)

/-- An item as the abstract table sees it. -/
def InlineHookItem.state (item : InlineHookItem) : HookState :=
  if item.status = HOOKED then .hooked else .registered

def hookTable (info : InlineHookInfo) : HookTable := fun target =>
  (info.lookup InlineHookItem.targetAddr target).map InlineHookItem.state

/-- What every call keeps. -/
structure WellFormed (info : InlineHookInfo) : Prop where
  distinct : info.Distinct InlineHookItem.targetAddr
  status : info.All fun item => item.status = REGISTERED ∨ item.status = HOOKED
  size : info.size ≤ 1024

/-! ## The table under changes of the registry -/

section

variable {info : InlineHookInfo} {item : InlineHookItem} {position : Nat} {target : Word}

theorem find_eq_none_iff :
    findInlineHookItem info target = none ↔
      info.lookup InlineHookItem.targetAddr target = none :=
  Option.map_eq_none_iff.symm

theorem find_eq_some (found : findInlineHookItem info target = some position) :
    position < info.size ∧ (info.slot position).targetAddr = target ∧
      info.lookup InlineHookItem.targetAddr target = some (info.slot position) := by
  obtain ⟨inside, matching, -⟩ := SlotTable.find?_eq_some.mp found
  refine ⟨inside, of_decide_eq_true matching, ?_⟩
  rw [findInlineHookItem] at found
  rw [SlotTable.lookup, found]
  rfl

theorem find_slot (well : WellFormed info) (inside : position < info.size) :
    findInlineHookItem info (info.slot position).targetAddr = some position := by
  apply SlotTable.find?_eq_some.mpr
  refine ⟨inside, decide_eq_true rfl, fun earlier before => decide_eq_false ?_⟩
  exact well.distinct earlier (Nat.lt_trans before inside) position inside (Nat.ne_of_lt before)

theorem fresh_of_lookup
    (unknown : info.lookup InlineHookItem.targetAddr item.targetAddr = none) :
    info.All fun other => other.targetAddr ≠ item.targetAddr :=
  SlotTable.lookup_eq_none.mp unknown

theorem hookTable_push
    (well : WellFormed info)
    (unknown : info.lookup InlineHookItem.targetAddr item.targetAddr = none) :
    hookTable (info.push item) =
      Function.update (hookTable info) item.targetAddr (some item.state) := by
  funext other
  rw [hookTable, SlotTable.lookup_push well.distinct (fresh_of_lookup unknown),
    Function.update_apply]
  split <;> rfl

theorem hookTable_update
    (well : WellFormed info) (inside : position < info.size)
    (sameTarget : item.targetAddr = (info.slot position).targetAddr) :
    hookTable (info.update position item) =
      Function.update (hookTable info) item.targetAddr (some item.state) := by
  funext other
  rw [hookTable, SlotTable.lookup_update well.distinct inside sameTarget,
    Function.update_apply]
  split <;> rfl

theorem hookTable_remove (well : WellFormed info) (inside : position < info.size) :
    hookTable (info.remove position) =
      Function.update (hookTable info) (info.slot position).targetAddr none := by
  funext other
  rw [hookTable, SlotTable.lookup_remove well.distinct inside, Function.update_apply]
  split <;> rfl

theorem WellFormed.push
    (well : WellFormed info)
    (unknown : info.lookup InlineHookItem.targetAddr item.targetAddr = none)
    (status : item.status = REGISTERED) (room : info.size < 1024) :
    WellFormed (info.push item) where
  distinct := well.distinct.push (fresh_of_lookup unknown)
  status := SlotTable.all_push.mpr ⟨well.status, .inl status⟩
  size := room

theorem WellFormed.update
    (well : WellFormed info) (inside : position < info.size)
    (sameTarget : item.targetAddr = (info.slot position).targetAddr)
    (status : item.status = HOOKED) : WellFormed (info.update position item) where
  distinct := well.distinct.update inside sameTarget
  status := well.status.update (.inr status)
  size := well.size

theorem WellFormed.remove (well : WellFormed info) : WellFormed (info.remove position) where
  distinct := well.distinct.remove
  status := well.status.remove
  size := Nat.le_trans (Nat.sub_le _ _) well.size

theorem hookTable_of_lookup
    (found : info.lookup InlineHookItem.targetAddr target = some item) :
    hookTable info target = some item.state := by
  rw [hookTable, found]
  rfl

theorem hookTable_of_unknown
    (unknown : info.lookup InlineHookItem.targetAddr target = none) :
    hookTable info target = none := by
  rw [hookTable, unknown]
  rfl

theorem state_of_registered (status : item.status = REGISTERED) :
    item.state = .registered := by
  rw [InlineHookItem.state, status]
  rfl

theorem state_of_hooked (status : item.status = HOOKED) : item.state = .hooked :=
  if_pos status

end

/-! ## The calls -/

section

variable {process next : Process} {status : Ele7enStatus} {target : Word}

@[simp] theorem freeze_info (item : Option InlineHookItem) (action : Action) :
    (freeze process item action).info = process.info := rfl

@[simp] theorem doInlineHook_info (position : Nat) :
    (doInlineHook process position).info =
      process.info.update position { process.info.slot position with status := HOOKED } := rfl

@[simp] theorem doInlineUnHook_info (position : Nat) :
    (doInlineUnHook process position).info = process.info.remove position := rfl

theorem inlineHook_registered
    {position : Nat} (well : WellFormed process.info) (inside : position < process.info.size)
    (registered : (process.info.slot position).status = REGISTERED) :
    inlineHook (process.info.slot position).targetAddr process =
      (doInlineHook (freeze process (some (process.info.slot position)) .enable) position,
        .ok) := by
  rw [inlineHook, find_slot well inside]
  exact if_pos registered

theorem inlineUnHook_hooked
    {position : Nat} (well : WellFormed process.info) (inside : position < process.info.size)
    (hooked : (process.info.slot position).status = HOOKED) :
    inlineUnHook (process.info.slot position).targetAddr process =
      (doInlineUnHook (freeze process (some (process.info.slot position)) .disable) position,
        .ok) := by
  have found : process.info.find? (fun item => item.targetAddr =
      (process.info.slot position).targetAddr ∧ item.status = HOOKED) = some position := by
    apply SlotTable.find?_eq_some.mpr
    refine ⟨inside, decide_eq_true ⟨rfl, hooked⟩, fun earlier before => decide_eq_false ?_⟩
    rintro ⟨same, -⟩
    exact well.distinct earlier (Nat.lt_trans before inside) position inside
      (Nat.ne_of_lt before) same
  rw [inlineUnHook, found]

theorem hookTable_doInlineHook
    {position : Nat} (well : WellFormed process.info) (inside : position < process.info.size) :
    hookTable (doInlineHook process position).info =
      Function.update (hookTable process.info) (process.info.slot position).targetAddr
        (some .hooked) :=
  hookTable_update well inside rfl

theorem inlineHook_refines (target : Word) (well : WellFormed process.info) :
    WellFormed (inlineHook target process).1.info ∧
      (hookTable (inlineHook target process).1.info, (inlineHook target process).2) =
        (hookTable process.info).hook target := by
  rw [inlineHook]
  cases found : findInlineHookItem process.info target with
  | none =>
      have unknown := hookTable_of_unknown (find_eq_none_iff.mp found)
      rw [HookTable.hook, unknown]
      exact ⟨well, rfl⟩
  | some position =>
      obtain ⟨inside, matching, known⟩ := find_eq_some found
      have entry := hookTable_of_lookup known
      obtain registered | hooked := well.status position inside
      · simp only [registered, if_true]
        rw [state_of_registered registered] at entry
        refine ⟨well.update inside rfl rfl, ?_⟩
        rw [HookTable.hook, entry]
        have table : hookTable (doInlineHook (freeze process (some (process.info.slot position))
            .enable) position).info = _ := hookTable_doInlineHook well inside
        rw [table, freeze_info, matching]
      · have notRegistered : HOOKED ≠ REGISTERED := by decide
        simp only [hooked, notRegistered, if_false, if_true]
        rw [state_of_hooked hooked] at entry
        rw [HookTable.hook, entry]
        exact ⟨well, rfl⟩

theorem inlineUnHook_refines (target : Word) (well : WellFormed process.info) :
    WellFormed (inlineUnHook target process).1.info ∧
      (hookTable (inlineUnHook target process).1.info, (inlineUnHook target process).2) =
        (hookTable process.info).unHook target := by
  rw [inlineUnHook]
  cases found : process.info.find?
      (fun item => item.targetAddr = target ∧ item.status = HOOKED) with
  | some position =>
      obtain ⟨inside, matching, -⟩ := SlotTable.find?_eq_some.mp found
      obtain ⟨sameTarget, hooked⟩ := of_decide_eq_true matching
      have known := SlotTable.lookup_slot well.distinct inside
      have entry := hookTable_of_lookup known
      rw [sameTarget, state_of_hooked hooked] at entry
      have table := hookTable_remove well inside
      rw [HookTable.unHook, entry]
      refine ⟨well.remove, ?_⟩
      rw [doInlineUnHook_info, freeze_info, table, sameTarget]
  | none =>
      have absent := SlotTable.find?_eq_none.mp found
      have entry : hookTable process.info target ≠ some .hooked := by
        intro entry
        obtain ⟨item, known, state⟩ := Option.map_eq_some_iff.mp entry
        obtain ⟨index, inside, rfl, matching⟩ :=
          (SlotTable.lookup_eq_some well.distinct).mp known
        have hooked : (process.info.slot index).status = HOOKED := by
          by_contra other
          rw [InlineHookItem.state, if_neg other] at state
          cases state
        exact of_decide_eq_false (absent index inside) ⟨matching, hooked⟩
      refine ⟨well, ?_⟩
      rw [HookTable.unHook]
      cases known : hookTable process.info target with
      | none => rfl
      | some state =>
          cases state with
          | registered => rfl
          | hooked => exact absurd known entry

/-- Hooking and unhooking are one write each, and the item keeps its position. -/
theorem inlineUnHook_inlineHook
    {position : Nat} (well : WellFormed process.info) (inside : position < process.info.size)
    (registered : (process.info.slot position).status = REGISTERED) :
    let item := process.info.slot position
    let hooked := doInlineHook (freeze process (some item) .enable) position
    (inlineHook item.targetAddr process).1 = hooked ∧
      hooked.info.slot position = { item with status := HOOKED } ∧
      WellFormed hooked.info ∧
      (inlineUnHook item.targetAddr hooked).1 =
        doInlineUnHook (freeze hooked (some { item with status := HOOKED }) .disable)
          position := by
  intro item hooked
  have isHooked : (inlineHook item.targetAddr process).1 = hooked :=
    congrArg Prod.fst (inlineHook_registered well inside registered)
  have slot : hooked.info.slot position = { item with status := HOOKED } :=
    SlotTable.update_slot
  have still : WellFormed hooked.info := by
    rw [← isHooked]
    exact (inlineHook_refines _ well).1
  have unHooks := inlineUnHook_hooked still inside (by rw [slot])
  rw [slot] at unHooks
  exact ⟨isHooked, slot, still, congrArg Prod.fst unHooks⟩

/-! ## The loops -/

/-- The loop hooks the items from its position on. -/
theorem inlineHookFrom_spec
    {remaining position : Nat} (well : WellFormed process.info)
    (rest : position + remaining = process.info.size)
    (earlier : ∀ index < position, (process.info.slot index).status = HOOKED) :
    WellFormed (inlineHookFrom remaining position process).info ∧
      (inlineHookFrom remaining position process).info.All (fun item => item.status = HOOKED) ∧
      ∀ target, (hookTable (inlineHookFrom remaining position process).info target).isSome =
        (hookTable process.info target).isSome := by
  induction remaining generalizing position process with
  | zero =>
      rw [Nat.add_zero] at rest
      exact ⟨well, rest ▸ earlier, fun _ => rfl⟩
  | succ remaining hypothesis =>
      have inside : position < process.info.size := by omega
      rw [inlineHookFrom]
      obtain registered | hooked := well.status position inside
      · rw [if_pos registered]
        have hookedUpTo : ∀ index < position + 1,
            ((doInlineHook process position).info.slot index).status = HOOKED := by
          intro index before
          rw [doInlineHook_info]
          by_cases here : index = position
          · rw [here, SlotTable.update_slot]
          · rw [SlotTable.update_slot_of_ne here]
            exact earlier index (by omega)
        obtain ⟨still, all, same⟩ := @hypothesis (doInlineHook process position) (position + 1)
          (well.update inside rfl rfl) (by rw [doInlineHook_info, SlotTable.update_size]; omega)
          hookedUpTo
        refine ⟨still, all, fun target => (same target).trans ?_⟩
        rw [hookTable_doInlineHook well inside, Function.update_apply]
        split
        · rename_i here
          have entry := hookTable_of_lookup (SlotTable.lookup_slot well.distinct inside)
          rw [here, entry]
          rfl
        · rfl
      · have notRegistered : HOOKED ≠ REGISTERED := by decide
        rw [if_neg (by rw [hooked]; exact notRegistered)]
        refine hypothesis well (by omega) fun index before => ?_
        by_cases here : index = position
        · rw [here, hooked]
        · exact earlier index (by omega)

theorem state_of_all_hooked
    {info : InlineHookInfo} {state : HookState}
    (all : info.All fun item => item.status = HOOKED) (entry : hookTable info target = some state) :
    state = .hooked := by
  obtain ⟨item, found, rfl⟩ := Option.map_eq_some_iff.mp entry
  obtain ⟨index, first, rfl⟩ := Option.map_eq_some_iff.mp found
  exact state_of_hooked (all index (SlotTable.find?_eq_some.mp first).1)

theorem inlineHookAll_refines (well : WellFormed process.info) :
    WellFormed (inlineHookAll process).info ∧
      hookTable (inlineHookAll process).info = (hookTable process.info).hookAll := by
  have frozen : WellFormed (freeze process none .enable).info := well
  obtain ⟨still, all, same⟩ := inlineHookFrom_spec frozen (Nat.zero_add _)
    (fun index before => absurd before (Nat.not_lt_zero index))
  refine ⟨still, ?_⟩
  funext target
  have domain : (hookTable (inlineHookAll process).info target).isSome =
    (hookTable process.info target).isSome := same target
  rw [HookTable.hookAll]
  cases entry : hookTable process.info target with
  | none =>
      rw [entry] at domain
      exact Option.not_isSome_iff_eq_none.mp (by rw [domain]; exact Bool.false_ne_true)
  | some state =>
      rw [entry] at domain
      obtain ⟨after, known⟩ := Option.isSome_iff_exists.mp domain
      rw [known, state_of_all_hooked all known]
      rfl

/-- The loop unhooks the items from its position on. -/
theorem inlineUnHookFrom_spec
    (position : Nat) (process : Process) (well : WellFormed process.info)
    (earlier : ∀ index < position, index < process.info.size ->
      (process.info.slot index).status ≠ HOOKED) :
    WellFormed (inlineUnHookFrom position process).info ∧
      (inlineUnHookFrom position process).info.All (fun item => item.status ≠ HOOKED) ∧
      hookTable (inlineUnHookFrom position process).info =
        (hookTable process.info).unHookAll := by
  induction position, process using inlineUnHookFrom.induct with
  | case1 position process inside hooked hypothesis =>
      rw [inlineUnHookFrom, if_pos inside, if_pos hooked]
      have entry := hookTable_of_lookup (SlotTable.lookup_slot well.distinct inside)
      rw [state_of_hooked hooked] at entry
      obtain ⟨still, none, same⟩ := hypothesis well.remove fun index before inside => by
        rw [doInlineUnHook_info, SlotTable.remove_slot_of_ne (Nat.ne_of_lt before)]
        exact earlier index before (Nat.lt_of_lt_of_le inside (Nat.sub_le _ _))
      refine ⟨still, none, same.trans ?_⟩
      funext other
      rw [doInlineUnHook_info, hookTable_remove well inside, HookTable.unHookAll,
        HookTable.unHookAll, Function.update_apply]
      split
      · rename_i here
        rw [here, entry]
        rfl
      · rfl
  | case2 position process inside other hypothesis =>
      rw [inlineUnHookFrom, if_pos inside, if_neg other]
      refine hypothesis well fun index before size => ?_
      by_cases here : index = position
      · rw [here]
        exact other
      · exact earlier index (by omega) size
  | case3 position process outside =>
      rw [inlineUnHookFrom, if_neg outside]
      have noneHooked : process.info.All fun item => item.status ≠ HOOKED :=
        fun index inside => earlier index (by omega) inside
      refine ⟨well, noneHooked, ?_⟩
      funext other
      rw [HookTable.unHookAll]
      cases entry : hookTable process.info other with
      | none => rfl
      | some state =>
          obtain ⟨item, found, rfl⟩ := Option.map_eq_some_iff.mp entry
          obtain ⟨index, first, rfl⟩ := Option.map_eq_some_iff.mp found
          have notHooked := noneHooked index (SlotTable.find?_eq_some.mp first).1
          have registered : (process.info.slot index).state = .registered := if_neg notHooked
          rw [registered]
          rfl

theorem inlineUnHookAll_refines (well : WellFormed process.info) :
    WellFormed (inlineUnHookAll process).info ∧
      hookTable (inlineUnHookAll process).info = (hookTable process.info).unHookAll := by
  obtain ⟨still, -, same⟩ := inlineUnHookFrom_spec 0 (freeze process none .disable) well
    (fun index before => absurd before (Nat.not_lt_zero index))
  exact ⟨still, same⟩

/-! ## Registrations -/

/-- What a registration answers for a function that it knows. -/
def refusal (status : Int) : Ele7enStatus :=
  if status = REGISTERED then .errorAlreadyRegistered
  else if status = HOOKED then .errorAlreadyHooked
  else .errorUnknown

/-- A registration that goes through. -/
structure Registers
    (answers : Answers) (targetAddr newAddr protoAddr : Word) (process next : Process)
    (page : Word) (moved : List Byte) (boundaries : Boundaries) : Prop where
  unknown : process.info.lookup InlineHookItem.targetAddr targetAddr = none
  room : process.info.size < 1024
  malloc : answers.malloc = true
  mapped : answers.page = some page
  relocated : relocateInstruction (wordAt process.memory) targetAddr
    (loadBytes process.memory (clearBit0 targetAddr) (if testBit0 targetAddr then 12 else 8))
    (process.info.slot process.info.size).boundaries = .ok (moved, boundaries)
  next : next = { process with
    info := process.info.push
      { targetAddr := targetAddr, newAddr := newAddr, protoAddr := protoAddr,
        origInstructions := loadBytes process.memory (clearBit0 targetAddr)
          (if testBit0 targetAddr then 12 else 8)
        boundaries := boundaries, trampolineInstructions := page,
        length := if testBit0 targetAddr then 12 else 8, status := REGISTERED }
    memory := storeBytes process.memory page moved }

theorem registerInlineHook_ok
    {answers : Answers} {newAddr protoAddr : Word}
    (ran : registerInlineHook answers target newAddr protoAddr process = .ok (next, status)) :
    (¬(answers.isExecutableAddr target && answers.isExecutableAddr newAddr) = true ∧
        next = process ∧ status = .errorNotExecutable) ∨
      (answers.isExecutableAddr target && answers.isExecutableAddr newAddr) = true ∧
        ((∃ item, process.info.lookup InlineHookItem.targetAddr target = some item ∧
            next = process ∧ status = refusal item.status) ∨
          status = .ok ∧ ∃ page moved boundaries,
            Registers answers target newAddr protoAddr process next page moved boundaries) := by
  rw [registerInlineHook, ← Bool.not_and] at ran
  by_cases executable :
      (answers.isExecutableAddr target && answers.isExecutableAddr newAddr) = true
  · refine .inr ⟨executable, ?_⟩
    rw [executable] at ran
    cases found : findInlineHookItem process.info target with
    | some position =>
        obtain ⟨-, -, known⟩ := find_eq_some found
        simp only [found] at ran
        refine .inl ⟨_, known, ?_⟩
        rw [refusal]
        by_cases registered : (process.info.slot position).status = REGISTERED
        · simp only [registered, if_true] at ran ⊢
          cases ran
          exact ⟨rfl, rfl⟩
        · by_cases hooked : (process.info.slot position).status = HOOKED
          · simp only [hooked, if_true] at ran ⊢
            cases ran
            exact ⟨rfl, rfl⟩
          · simp only [registered, hooked, if_false] at ran ⊢
            cases ran
            exact ⟨rfl, rfl⟩
    | none =>
        simp only [found, Bool.not_true, Bool.false_eq_true, if_false] at ran
        by_cases full : 1024 ≤ process.info.size
        · rw [addInlineHookItem, if_pos full, deref_none, error_bind] at ran
          cases ran
        rw [addInlineHookItem, if_neg full, deref_some, ok_bind] at ran
        cases memory : answers.malloc with
        | false =>
            simp only [memory, Bool.not_false, if_true] at ran
            cases ran
        | true =>
            simp only [memory, Bool.not_true, Bool.false_eq_true, if_false, pure_eq_ok] at ran
            cases mapped : answers.page with
            | none =>
                rw [mapped] at ran
                cases ran
            | some page =>
                rw [mapped, Option.elim_some, ok_bind] at ran
                obtain ⟨⟨moved, boundaries⟩, relocated, ran⟩ := bind_eq_ok.mp ran
                cases ran
                exact .inr ⟨rfl, page, moved, boundaries, find_eq_none_iff.mp found,
                  Nat.not_le.mp full, memory, mapped, relocated, rfl⟩
  · rw [Bool.eq_false_of_not_eq_true executable] at ran
    cases ran
    exact .inl ⟨executable, rfl, rfl⟩

theorem registerInlineHook_refines
    {answers : Answers} {newAddr protoAddr : Word} (well : WellFormed process.info)
    (ran : registerInlineHook answers target newAddr protoAddr process = .ok (next, status)) :
    WellFormed next.info ∧
      (hookTable next.info, status) =
        (hookTable process.info).register
          (answers.isExecutableAddr target && answers.isExecutableAddr newAddr) target := by
  obtain ⟨refused, rfl, rfl⟩ |
      ⟨executable, known | ⟨rfl, page, moved, boundaries, new⟩⟩ :=
    registerInlineHook_ok ran
  · rw [HookTable.register, if_neg refused]
    exact ⟨well, rfl⟩
  · obtain ⟨item, found, rfl, rfl⟩ := known
    have entry := hookTable_of_lookup found
    obtain ⟨index, inside, rfl, -⟩ := (SlotTable.lookup_eq_some well.distinct).mp found
    refine ⟨well, ?_⟩
    rw [HookTable.register, if_pos executable, entry]
    obtain registered | hooked := well.status index inside
    · rw [state_of_registered registered, registered]
      rfl
    · rw [state_of_hooked hooked, hooked]
      rfl
  · rw [new.next]
    refine ⟨well.push new.unknown rfl new.room, ?_⟩
    rw [HookTable.register, if_pos executable, hookTable_of_unknown new.unknown,
      hookTable_push well new.unknown]
    rfl

/-- Every call answers as the abstract table does and leaves the registry well-formed. -/
theorem call_refines
    {event : Call} {answer : Option Ele7enStatus} (well : WellFormed process.info)
    (ran : call process event = .ok (next, answer)) :
    WellFormed next.info ∧
      (hookTable next.info, answer) = (hookTable process.info).call event := by
  cases event with
  | register answers target newAddr protoAddr =>
      rw [call] at ran
      cases result : registerInlineHook answers target newAddr protoAddr process with
      | error fault =>
          rw [result] at ran
          cases ran
      | ok outcome =>
          obtain ⟨after, status⟩ := outcome
          rw [result] at ran
          cases ran
          obtain ⟨still, same⟩ := registerInlineHook_refines well result
          refine ⟨still, ?_⟩
          rw [HookTable.call, ← same]
  | hook target =>
      cases ran
      obtain ⟨still, same⟩ := inlineHook_refines target well
      refine ⟨still, ?_⟩
      rw [HookTable.call, ← same]
      rfl
  | unHook target =>
      cases ran
      obtain ⟨still, same⟩ := inlineUnHook_refines target well
      refine ⟨still, ?_⟩
      rw [HookTable.call, ← same]
      rfl
  | hookAll =>
      cases ran
      obtain ⟨still, same⟩ := inlineHookAll_refines well
      exact ⟨still, by rw [HookTable.call, same]⟩
  | unHookAll =>
      cases ran
      obtain ⟨still, same⟩ := inlineUnHookAll_refines well
      exact ⟨still, by rw [HookTable.call, same]⟩
  | schedule threads =>
      cases ran
      exact ⟨well, rfl⟩

/-! ## What a call is made of -/

def Call.unHooks : Call -> Bool
  | .unHook _ | .unHookAll => true
  | _ => false

/-- One turn of a call that is not a registration. -/
inductive Turn (event : Call) : Process -> Process -> Prop
  /-- Only threads are moved. -/
  | threads {process next : Process} (info : next.info = process.info)
      (memory : next.memory = process.memory) : Turn event process next
  | hook {process : Process} {position : Nat} (inside : position < process.info.size)
      (registered : (process.info.slot position).status = REGISTERED) :
      Turn event process (doInlineHook process position)
  | unHook {process : Process} {position : Nat} (unHooks : event.unHooks = true)
      (inside : position < process.info.size)
      (hooked : (process.info.slot position).status = HOOKED) :
      Turn event process (doInlineUnHook process position)

/-- Turns one after the other. -/
abbrev Turns (event : Call) : Process -> Process -> Prop := Relation.ReflTransGen (Turn event)

theorem turns_inlineHookFrom
    (event : Call) {remaining position : Nat} (rest : position + remaining ≤ process.info.size) :
    Turns event process (inlineHookFrom remaining position process) := by
  induction remaining generalizing position process with
  | zero => exact .refl
  | succ remaining hypothesis =>
      rw [inlineHookFrom]
      by_cases registered : (process.info.slot position).status = REGISTERED
      · rw [if_pos registered]
        refine .head (.hook (by omega) registered) (hypothesis ?_)
        rw [doInlineHook_info, SlotTable.update_size]
        omega
      · rw [if_neg registered]
        exact hypothesis (by omega)

theorem turns_inlineUnHookFrom
    {event : Call} (unHooks : event.unHooks = true) (position : Nat) (process : Process) :
    Turns event process (inlineUnHookFrom position process) := by
  induction position, process using inlineUnHookFrom.induct with
  | case1 position process inside hooked hypothesis =>
      rw [inlineUnHookFrom, if_pos inside, if_pos hooked]
      exact .head (.unHook unHooks inside hooked) hypothesis
  | case2 position process inside other hypothesis =>
      rw [inlineUnHookFrom, if_pos inside, if_neg other]
      exact hypothesis
  | case3 position process outside =>
      rw [inlineUnHookFrom, if_neg outside]

theorem turns_freeze
    {event : Call} {item : Option InlineHookItem} {action : Action}
    (later : Turns event (freeze process item action) next) : Turns event process next := by
  have first : Turn event process (freeze process item action) := .threads rfl rfl
  exact .head first later

/-- A call registers a function, or it takes turns. -/
theorem call_cases
    {event : Call} {answer : Option Ele7enStatus}
    (ran : call process event = .ok (next, answer)) :
    (∃ answers targetAddr newAddr protoAddr page moved boundaries,
      event = .register answers targetAddr newAddr protoAddr ∧
        Registers answers targetAddr newAddr protoAddr process next page moved boundaries) ∨
      Turns event process next := by
  cases event with
  | register answers targetAddr newAddr protoAddr =>
      rw [call] at ran
      cases result : registerInlineHook answers targetAddr newAddr protoAddr process with
      | error fault =>
          rw [result] at ran
          cases ran
      | ok outcome =>
          rw [result] at ran
          cases ran
          obtain ⟨-, same, -⟩ |
              ⟨-, ⟨_, -, same, -⟩ | ⟨-, page, moved, boundaries, new⟩⟩ :=
            registerInlineHook_ok result
          · exact .inr (same ▸ .refl)
          · exact .inr (same ▸ .refl)
          · exact .inl ⟨_, _, _, _, page, moved, boundaries, rfl, new⟩
  | hook targetAddr =>
      cases ran
      right
      change Turns _ process (inlineHook targetAddr process).1
      rw [inlineHook]
      cases found : findInlineHookItem process.info targetAddr with
      | none => exact .refl
      | some position =>
          simp only
          split
          · rename_i registered
            exact turns_freeze (.single (.hook (find_eq_some found).1 registered))
          · split <;> exact .refl
  | unHook targetAddr =>
      cases ran
      right
      change Turns _ process (inlineUnHook targetAddr process).1
      rw [inlineUnHook]
      split
      · rename_i position found
        obtain ⟨inside, matching, -⟩ := SlotTable.find?_eq_some.mp found
        obtain ⟨-, hooked⟩ := of_decide_eq_true matching
        exact turns_freeze (.single (.unHook rfl inside hooked))
      · exact .refl
  | hookAll =>
      cases ran
      exact .inr (turns_freeze (turns_inlineHookFrom _ (Nat.le_of_eq (Nat.zero_add _))))
  | unHookAll =>
      cases ran
      exact .inr (turns_freeze (turns_inlineUnHookFrom rfl 0 _))
  | schedule threads =>
      cases ran
      exact .inr (.single (.threads rfl rfl))

/-- What every turn keeps is kept by all of them. -/
theorem Turns.keep
    {event : Call} {invariant : Process -> Prop} (turns : Turns event process next)
    (kept : ∀ process next, invariant process -> Turn event process next -> invariant next)
    (holds : invariant process) : invariant next := by
  induction turns with
  | refl => exact holds
  | tail _ turn hypothesis => exact kept _ _ hypothesis turn

/-- Hooking an item keeps the invariant. -/
def KeptByHook (invariant : InlineHookInfo -> Prop) : Prop :=
  ∀ info, ∀ position < info.size, invariant info ->
    invariant (info.update position { info.slot position with status := HOOKED })

/-- Unhooking an item keeps the invariant. -/
def KeptByUnHook (invariant : InlineHookInfo -> Prop) : Prop :=
  ∀ info, ∀ position < info.size, invariant info -> invariant (info.remove position)

/-- Every call keeps an invariant of the registry that its changes keep. -/
theorem call_keeps
    {invariant : InlineHookInfo -> Prop} {event : Call} {answer : Option Ele7enStatus}
    (hook : KeptByHook invariant) (unHook : event.unHooks = true -> KeptByUnHook invariant)
    (register : ∀ answers targetAddr newAddr protoAddr page moved boundaries,
      event = .register answers targetAddr newAddr protoAddr ->
      Registers answers targetAddr newAddr protoAddr process next page moved boundaries ->
        invariant next.info)
    (holds : invariant process.info) (ran : call process event = .ok (next, answer)) :
    invariant next.info := by
  obtain
    ⟨answers, target, newAddr, protoAddr, page, moved, boundaries, isRegister, new⟩ | turns :=
    call_cases ran
  · exact register answers target newAddr protoAddr page moved boundaries isRegister new
  · refine @Turns.keep _ _ _ (fun process => invariant process.info) turns ?_ holds
    intro process next holds turn
    cases turn with
    | threads info memory => exact info ▸ holds
    | hook inside registered => exact hook process.info _ inside holds
    | unHook unHooks inside hooked => exact unHook unHooks process.info _ inside holds

/-- The process before the first call. -/
def Process.fresh (memory vacated : Memory) : Process :=
  ⟨⟨fun _ => .unused, 0⟩, memory, vacated, [], []⟩

theorem wellFormed_fresh (memory vacated : Memory) :
    WellFormed (Process.fresh memory vacated).info where
  distinct := fun index inside => absurd inside (Nat.not_lt_zero index)
  status := fun index inside => absurd inside (Nat.not_lt_zero index)
  size := Nat.zero_le _

theorem HookTable.call_ne_unknown (table : HookTable) (event : Call) :
    (table.call event).2 ≠ some .errorUnknown := by
  cases event with
  | register answers target newAddr protoAddr =>
      simp only [HookTable.call, HookTable.register]
      split
      · split <;> simp
      · simp
  | hook target =>
      simp only [HookTable.call, HookTable.hook]
      split <;> simp
  | unHook target =>
      simp only [HookTable.call, HookTable.unHook]
      split <;> simp
  | hookAll => simp [HookTable.call]
  | unHookAll => simp [HookTable.call]
  | schedule threads => simp [HookTable.call]

theorem HookTable.answers_ne_unknown (table : HookTable) (events : List Call) :
    some .errorUnknown ∉ (Transition.answers HookTable.call table events).2 := by
  induction events generalizing table with
  | nil => exact List.not_mem_nil
  | cons event events hypothesis =>
      rw [Transition.answers]
      intro member
      obtain here | later := List.mem_cons.mp member
      · exact table.call_ne_unknown event here.symm
      · exact hypothesis _ later

/-- In every run that does not fault, the engine answers as the abstract table does, and
never with an unknown error. -/
theorem engine_refines_hook_table
    {memory vacated : Memory} {events : List Call} {statuses : List (Option Ele7enStatus)}
    (ran : Transition.trace call (Process.fresh memory vacated) events = .ok (next, statuses)) :
    (hookTable next.info, statuses) =
        Transition.answers HookTable.call (fun _ => none) events ∧
      some .errorUnknown ∉ statuses := by
  have start : hookTable (Process.fresh memory vacated).info = fun _ => none := rfl
  have same : (hookTable next.info, statuses) =
      Transition.answers HookTable.call (hookTable (Process.fresh memory vacated).info) events := by
    have refines : ∀ (process : Process) event next answer, WellFormed process.info ->
        call process event = .ok (next, answer) -> WellFormed next.info ∧
          (hookTable next.info, answer) = (hookTable process.info).call event :=
      fun _ _ _ _ well ran => call_refines well ran
    have traced := @Transition.trace_refines _ _ _ _ _ call (fun process => WellFormed process.info)
      events _ _ _ (fun process => hookTable process.info) HookTable.call refines
      (wellFormed_fresh memory vacated) ran
    exact traced
  rw [start] at same
  refine ⟨same, ?_⟩
  have answered : statuses = (Transition.answers HookTable.call (fun _ => none) events).2 :=
    congrArg Prod.snd same
  rw [answered]
  exact HookTable.answers_ne_unknown _ events

end

/-- Answers that refuse nothing. -/
def Answers.granting (page : Word) : Answers := ⟨fun _ => true, true, some page⟩

/-- One function that is hooked twice and unhooked. -/
theorem engine_answers_two_hooks : ∃ (next : Process) (statuses : List (Option Ele7enStatus)),
    (hookTable next.info, statuses) =
        Transition.answers HookTable.call (fun _ => none)
          [.register (.granting 0x9000) 0x1000 0x2000 0, .hook 0x1000, .hook 0x1000,
            .unHook 0x1000] ∧
      some .errorUnknown ∉ statuses :=
  ⟨_, _, @engine_refines_hook_table _ (fun _ => 0) (fun _ => 0) _ _ rfl⟩

end HookEngine
end UnityLocalization
