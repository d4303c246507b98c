import UnityLocalization.HookEngine.ArmTrampoline
import UnityLocalization.HookEngine.Lifecycle
import UnityLocalization.HookEngine.Redirection
import UnityLocalization.HookEngine.ThumbTrampoline

/-!
# The code of a process with hooks

Over any run whose registrations keep to separate functions and pages, the code of the
process is the original code with the patches of the hooked functions, and every item has
its trampoline.
-/

namespace UnityLocalization
namespace HookEngine

open CMemory WordMemory Transition

/-! ## Sizes -/

/-- A trampoline takes a small part of its page. -/
theorem length_relocateInstruction_le
    {load : Word -> Word} {target : Word} {saved moved : List Byte}
    {before noted : Boundaries} (long : 4 ≤ saved.length)
    (relocated : relocateInstruction load target saved before = .ok (moved, noted)) :
    moved.length ≤ PAGE_SIZE := by
  rw [relocateInstruction] at relocated
  cases mode : testBit0 target with
  | true =>
      rw [if_pos mode] at relocated
      obtain ⟨⟨halves, boundaries⟩, written, same⟩ := bind_eq_ok.mp relocated
      cases same
      have more : 0 < (halvesOf saved).length := by
        rw [length_halvesOf]
        omega
      have short := length_relocateInstructionInThumb_le more written
      rw [length_flatMap_halfBytes, PAGE_SIZE]
      omega
  | false =>
      rw [if_neg (by rw [mode]; exact Bool.false_ne_true)] at relocated
      obtain ⟨⟨words, boundaries⟩, written, same⟩ := bind_eq_ok.mp relocated
      cases same
      have more : 0 < (wordsOf saved).length := by
        rw [length_wordsOf]
        omega
      obtain ⟨rfl, fits, -⟩ := relocateInstructionInArm_ok more written
      have short := length_movedWords_le load (target + 8) (wordsOf saved)
      rw [length_flatMap_wordBytes, trampolineWords, List.length_append, PAGE_SIZE]
      simp only [List.length_cons, List.length_nil]
      omega

/-! ## What registrations are asked for -/

/-- The bytes of a function that are saved and patched. -/
def InlineHookItem.Covers (item : InlineHookItem) (here : Word) : Prop :=
  InRange (clearBit0 item.targetAddr) item.length here

instance (item : InlineHookItem) (here : Word) : Decidable (item.Covers here) :=
  inferInstanceAs (Decidable (InRange _ _ _))

/-- The page of the trampoline. -/
def InlineHookItem.Page (item : InlineHookItem) (here : Word) : Prop :=
  InRange item.trampolineInstructions PAGE_SIZE here

/-- The pointer that is set to the trampoline. -/
def InlineHookItem.Proto (item : InlineHookItem) (here : Word) : Prop :=
  item.protoAddr ≠ 0 ∧ InRange item.protoAddr 4 here

/-- Two items use different memory. -/
structure Separate (first second : InlineHookItem) : Prop where
  covers : ∀ here, first.Covers here -> ¬second.Covers here
  page : ∀ here, first.Page here -> ¬second.Page here
  proto : ∀ here, first.Proto here -> ¬second.Page here
  protoBack : ∀ here, second.Proto here -> ¬first.Page here

theorem Separate.symm {first second : InlineHookItem} (separate : Separate first second) :
    Separate second first where
  covers here inSecond inFirst := separate.covers here inFirst inSecond
  page here inSecond inFirst := separate.page here inFirst inSecond
  proto := separate.protoBack
  protoBack := separate.proto

/-- The memory of an item: its function is code, its page and its pointer are data. -/
structure Placed (data : Word -> Prop) (item : InlineHookItem) : Prop where
  length : item.length = if testBit0 item.targetAddr then 12 else 8
  covers : ∀ here, item.Covers here -> ¬data here
  page : ∀ here, item.Page here -> data here
  proto : ∀ here, item.Proto here -> data here
  apart : ∀ here, item.Proto here -> ¬item.Page here

/-- The trampoline of an item stands in its page. -/
def HasTrampoline (memory : Memory) (item : InlineHookItem) : Prop :=
  ∃ load before moved,
    relocateInstruction load item.targetAddr item.origInstructions before =
        .ok (moved, item.boundaries) ∧
      HoldsBytes memory item.trampolineInstructions moved

/-- What holds of an item in a process that began with the memory `initial`. -/
structure Intact (initial memory : Memory) (item : InlineHookItem) : Prop where
  saved : item.origInstructions =
    loadBytes initial (clearBit0 item.targetAddr) item.length
  patched : item.status = HOOKED -> ∀ here, item.Covers here ->
    memory here = storeBytes initial (clearBit0 item.targetAddr) (patchBytes item) here
  trampoline : HasTrampoline memory item

/-- The code of the process is the original code with the patches of the hooked
functions. -/
structure CodeIntact (data : Word -> Prop) (initial : Memory) (process : Process) : Prop where
  well : WellFormed process.info
  separate : process.info.Pairwise Separate
  placed : process.info.All (Placed data)
  intact : process.info.All (Intact initial process.memory)
  rest : ∀ here, ¬data here ->
    (process.info.All fun item => item.status = HOOKED -> ¬item.Covers here) ->
      process.memory here = initial here

section

variable {data : Word -> Prop} {initial before after : Memory} {item : InlineHookItem}
  {process : Process} {position : Nat}

theorem Placed.length_ge (placed : Placed data item) : 8 ≤ item.length := by
  rw [placed.length]
  split <;> decide

theorem Placed.length_patchBytes_le (placed : Placed data item) :
    (patchBytes item).length ≤ item.length := by
  rw [placed.length]
  exact length_patchBytes item

theorem HasTrampoline.congr
    (trampoline : HasTrampoline before item) (long : 4 ≤ item.origInstructions.length)
    (same : ∀ here, item.Page here -> after here = before here) : HasTrampoline after item := by
  obtain ⟨load, noted, moved, relocated, holds⟩ := trampoline
  have short := length_relocateInstruction_le long relocated
  refine ⟨load, noted, moved, relocated, holds.congr (Nat.le_trans short (by decide)) ?_⟩
  exact fun here inside => same here (inside.weaken short)

theorem Intact.length_saved_ge (intact : Intact initial before item) (placed : Placed data item) :
    4 ≤ item.origInstructions.length := by
  rw [intact.saved, length_loadBytes]
  exact Nat.le_trans (by decide) placed.length_ge

/-- An item stays intact where its function and its page are left alone. -/
theorem Intact.congr
    (intact : Intact initial before item) (placed : Placed data item)
    (same : ∀ here, item.Covers here ∨ item.Page here -> after here = before here) :
    Intact initial after item where
  saved := intact.saved
  patched hooked here covered :=
    (same here (.inl covered)).trans (intact.patched hooked here covered)
  trampoline := intact.trampoline.congr (intact.length_saved_ge placed) fun here page =>
    same here (.inr page)

/-- The function of an item that is not hooked is as it was. -/
theorem CodeIntact.unpatched
    (code : CodeIntact data initial process) (inside : position < process.info.size)
    (notHooked : (process.info.slot position).status ≠ HOOKED) {here : Word}
    (covered : (process.info.slot position).Covers here) : process.memory here = initial here := by
  apply code.rest here ((code.placed position inside).covers here covered)
  intro other otherInside hooked otherCovers
  have different : other ≠ position := by
    rintro rfl
    exact notHooked hooked
  exact (code.separate other otherInside position inside different).covers here otherCovers
    covered

/-- Hooking a function changes its beginning and the pointer to the trampoline. -/
theorem doInlineHook_memory
    (process : Process) (position : Nat) {here : Word}
    (notProto : ¬(process.info.slot position).Proto here) :
    (HookEngine.doInlineHook process position).memory here =
      storeBytes process.memory (clearBit0 (process.info.slot position).targetAddr)
        (patchBytes (process.info.slot position)) here := by
  apply storeBytes_at
  by_cases pointer : (process.info.slot position).protoAddr ≠ 0
  · rw [if_pos pointer]
    exact storeBytes_outside fun inside => notProto ⟨pointer, inside⟩
  · rw [if_neg pointer]

theorem doInlineHook_memory_outside
    (placed : Placed data (process.info.slot position)) {here : Word}
    (notProto : ¬(process.info.slot position).Proto here)
    (notCovers : ¬(process.info.slot position).Covers here) :
    (HookEngine.doInlineHook process position).memory here = process.memory here := by
  rw [doInlineHook_memory process position notProto]
  exact storeBytes_outside fun inside => notCovers (inside.weaken placed.length_patchBytes_le)

/-- Unhooking a function puts its saved beginning back and gives the page of its trampoline
up; it changes nothing else. -/
theorem doInlineUnHook_memory
    (intact : Intact initial process.memory (process.info.slot position)) {here : Word}
    (notPage : ¬(process.info.slot position).Page here) :
    (HookEngine.doInlineUnHook process position).memory here =
      if (process.info.slot position).Covers here then initial here
      else process.memory here := by
  rw [HookEngine.doInlineUnHook]
  refine (if_neg notPage).trans ?_
  simp only [intact.saved]
  split
  · exact storeBytes_loadBytes initial process.memory ‹_›
  · exact storeBytes_outside (by rwa [length_loadBytes])

/-- Hooking a function keeps the code intact. -/
theorem CodeIntact.doInlineHook
    (code : CodeIntact data initial process) (inside : position < process.info.size)
    (registered : (process.info.slot position).status = REGISTERED) :
    CodeIntact data initial (HookEngine.doInlineHook process position) := by
  let item := process.info.slot position
  have placed : Placed data item := code.placed position inside
  have notHooked : item.status ≠ HOOKED := by
    rw [show item.status = REGISTERED from registered]
    decide
  refine ⟨code.well.update inside rfl rfl, ?_, ?_, ?_, ?_⟩
  · refine code.separate.update (fun _ _ => Separate.symm) fun other otherInside different => ?_
    have separate := code.separate other otherInside position inside different
    exact ⟨separate.covers, separate.page, separate.proto, separate.protoBack⟩
  · exact code.placed.update
      ⟨placed.length, placed.covers, placed.page, placed.proto, placed.apart⟩
  · intro other otherInside
    rw [doInlineHook_info, SlotTable.update_size] at otherInside
    rw [doInlineHook_info]
    by_cases same : other = position
    · rw [same, SlotTable.update_slot]
      have intact := code.intact position inside
      have still : HasTrampoline (HookEngine.doInlineHook process position).memory item := by
        refine intact.trampoline.congr (intact.length_saved_ge placed) fun here page => ?_
        exact doInlineHook_memory_outside placed (fun proto => placed.apart here proto page)
          fun covers => placed.covers here covers (placed.page here page)
      refine ⟨intact.saved, fun _ here covered => ?_, still⟩
      have isCode := placed.covers here covered
      rw [doInlineHook_memory process position fun proto => isCode (placed.proto here proto)]
      exact storeBytes_at (code.unpatched inside notHooked covered) _ _
    · rw [SlotTable.update_slot_of_ne same]
      have separate := code.separate other otherInside position inside same
      have otherPlaced := code.placed other otherInside
      refine (code.intact other otherInside).congr otherPlaced fun here used => ?_
      refine doInlineHook_memory_outside placed ?_ ?_
      · obtain covers | page := used
        · exact fun proto => otherPlaced.covers here covers (placed.proto here proto)
        · exact fun proto => separate.protoBack here proto page
      · obtain covers | page := used
        · exact separate.covers here covers
        · exact fun covers => placed.covers here covers (otherPlaced.page here page)
  · intro here isCode none
    rw [doInlineHook_info] at none
    have notCovers : ¬item.Covers here := by
      have last := none position inside
      rw [SlotTable.update_slot] at last
      exact last rfl
    rw [doInlineHook_memory_outside placed (fun proto => isCode (placed.proto here proto))
      notCovers]
    refine code.rest here isCode fun other otherInside hooked => ?_
    by_cases same : other = position
    · rw [same]
      exact notCovers
    · have earlier := none other otherInside
      rw [SlotTable.update_slot_of_ne same] at earlier
      exact earlier hooked

/-- Unhooking a function keeps the code intact. -/
theorem CodeIntact.doInlineUnHook
    (code : CodeIntact data initial process) (inside : position < process.info.size) :
    CodeIntact data initial (HookEngine.doInlineUnHook process position) := by
  let item := process.info.slot position
  have placed : Placed data item := code.placed position inside
  have memory := fun here => @doInlineUnHook_memory initial process position
    (code.intact position inside) here
  refine ⟨code.well.remove, code.separate.remove, code.placed.remove, ?_, ?_⟩
  · intro now still
    rw [doInlineUnHook_info, SlotTable.remove_size] at still
    rw [doInlineUnHook_info, SlotTable.remove_slot_eq]
    have otherInside : process.info.origin position now < process.info.size :=
      SlotTable.origin_lt still
    have separate := code.separate _ otherInside position inside (SlotTable.origin_ne still)
    have otherPlaced := code.placed _ otherInside
    refine (code.intact _ otherInside).congr otherPlaced fun here used => ?_
    obtain covers | page := used
    · rw [memory here fun inPage => otherPlaced.covers here covers (placed.page here inPage),
        if_neg (separate.covers here covers)]
    · rw [memory here (separate.page here page),
        if_neg fun covers => placed.covers here covers (otherPlaced.page here page)]
  · intro here isCode none
    rw [memory here fun inPage => isCode (placed.page here inPage)]
    split
    · rfl
    · rename_i notCovers
      refine code.rest here isCode fun other otherInside hooked => ?_
      by_cases same : other = position
      · rw [same]
        exact notCovers
      · obtain ⟨now, still, origin⟩ := SlotTable.exists_origin otherInside same inside
        have later := none now still
        rw [doInlineUnHook_info, SlotTable.remove_slot_eq, origin] at later
        exact later hooked

/-! ## Runs -/

/-- The memory that a registration asks for. -/
def requested (targetAddr newAddr protoAddr page : Word) : InlineHookItem where
  targetAddr := targetAddr
  newAddr := newAddr
  protoAddr := protoAddr
  origInstructions := []
  boundaries := .unused
  trampolineInstructions := page
  length := if testBit0 targetAddr then 12 else 8
  status := REGISTERED

/-- A new function, its page and its pointer are apart from those of the other items. -/
def Admissible (data : Word -> Prop) (process : Process) : Call -> Prop
  | .register answers targetAddr newAddr protoAddr =>
      ∀ page, answers.page = some page ->
        process.info.lookup InlineHookItem.targetAddr targetAddr = none ->
          Placed data (requested targetAddr newAddr protoAddr page) ∧
            process.info.All fun item =>
              Separate item (requested targetAddr newAddr protoAddr page)
  | _ => True

theorem CodeIntact.register
    {answers : Answers} {target newAddr protoAddr page : Word} {next : Process}
    {moved : List Byte} {boundaries : Boundaries}
    (code : CodeIntact data initial process)
    (new : Registers answers target newAddr protoAddr process next page moved boundaries)
    (admissible : Admissible data process (.register answers target newAddr protoAddr)) :
    CodeIntact data initial next := by
  obtain ⟨placed, separate⟩ := admissible page new.mapped new.unknown
  let item := requested target newAddr protoAddr page
  have lengthIs : item.length = if testBit0 target then 12 else 8 := rfl
  have short : moved.length ≤ PAGE_SIZE := by
    refine length_relocateInstruction_le ?_ new.relocated
    rw [length_loadBytes]
    split <;> decide
  have outside : ∀ here, ¬item.Page here ->
      storeBytes process.memory page moved here = process.memory here :=
    fun here notPage => storeBytes_outside fun inside => notPage (inside.weaken short)
  have codeKept : ∀ here, ¬data here ->
      storeBytes process.memory page moved here = process.memory here :=
    fun here isCode => outside here fun inPage => isCode (placed.page here inPage)
  have saved : loadBytes process.memory (clearBit0 target) item.length =
      loadBytes initial (clearBit0 target) item.length := by
    refine loadBytes_congr ?_ fun here covered => ?_
    · rw [lengthIs]
      split <;> decide
    · refine code.rest here (placed.covers here covered) fun other inside _ covers => ?_
      exact (separate other inside).covers here covers covered
  rw [new.next]
  refine ⟨code.well.push new.unknown rfl new.room, ?_, ?_, ?_, ?_⟩
  · refine SlotTable.pairwise_push (fun _ _ => Separate.symm) code.separate ?_
    intro other inside
    obtain ⟨covers, pages, proto, protoBack⟩ := separate other inside
    exact ⟨covers, pages, proto, protoBack⟩
  · exact SlotTable.all_push.mpr ⟨code.placed,
      ⟨lengthIs, placed.covers, placed.page, placed.proto, placed.apart⟩⟩
  · refine SlotTable.all_push.mpr ⟨fun other inside => ?_, ?_⟩
    · have otherPlaced := code.placed other inside
      refine (code.intact other inside).congr otherPlaced fun here used => outside here ?_
      obtain ⟨-, pages, -, -⟩ := separate other inside
      obtain covers | inPage := used
      · exact fun newPage => otherPlaced.covers here covers (placed.page here newPage)
      · exact pages here inPage
    · have notHooked : REGISTERED ≠ HOOKED := by decide
      refine ⟨saved, fun hooked => absurd hooked notHooked, ?_⟩
      exact ⟨_, _, moved, new.relocated,
        storeBytes_holds _ _ (Nat.le_trans short (by decide))⟩
  · intro here isCode none
    obtain ⟨others, -⟩ := SlotTable.all_push.mp none
    exact (codeKept here isCode).trans (code.rest here isCode others)

/-- Neither the threads nor the flushed ranges matter. -/
theorem CodeIntact.of_same
    {other : Process} (code : CodeIntact data initial process)
    (info : other.info = process.info) (memory : other.memory = process.memory) :
    CodeIntact data initial other := by
  obtain ⟨well, separate, placed, intact, rest⟩ := code
  constructor
  · rwa [info]
  · rwa [info]
  · rwa [info]
  · rwa [info, memory]
  · rwa [info, memory]

theorem CodeIntact.turn
    {event : Call} {next : Process} (code : CodeIntact data initial process)
    (turn : Turn event process next) : CodeIntact data initial next := by
  cases turn with
  | threads info memory => exact code.of_same info memory
  | hook inside registered => exact code.doInlineHook inside registered
  | unHook unHooks inside hooked => exact code.doInlineUnHook inside

/-- Every admissible call keeps the code intact. -/
theorem CodeIntact.call
    {event : Call} {next : Process} {answer : Option Ele7enStatus}
    (code : CodeIntact data initial process) (admissible : Admissible data process event)
    (ran : HookEngine.call process event = .ok (next, answer)) :
    CodeIntact data initial next := by
  obtain ⟨answers, target, newAddr, protoAddr, page, moved, boundaries, rfl, new⟩ | turns :=
    call_cases ran
  · exact code.register new admissible
  · exact turns.keep (fun _ _ => CodeIntact.turn) code

theorem codeIntact_fresh (data : Word -> Prop) (initial vacated : Memory) :
    CodeIntact data initial (Process.fresh initial vacated) where
  well := wellFormed_fresh initial vacated
  separate := fun index inside => absurd inside (Nat.not_lt_zero index)
  placed := fun index inside => absurd inside (Nat.not_lt_zero index)
  intact := fun index inside => absurd inside (Nat.not_lt_zero index)
  rest := fun _ _ _ => rfl

/-- A call without its answer. -/
def step (process : Process) (event : Call) : Checked Process :=
  (HookEngine.call process event).map Prod.fst

theorem step_eq_ok {event : Call} {next : Process} (stepped : step process event = .ok next) :
    ∃ answer, HookEngine.call process event = .ok (next, answer) := by
  rw [step] at stepped
  cases result : HookEngine.call process event with
  | error fault =>
      rw [result] at stepped
      cases stepped
  | ok outcome =>
      rw [result] at stepped
      cases stepped
      exact ⟨outcome.2, rfl⟩

/-- The process that an admissible run from the beginning reaches. -/
def Reachable (data : Word -> Prop) (initial : Memory) (process : Process) : Prop :=
  ∃ vacated events, AllowedRun step (Admissible data) (Process.fresh initial vacated) events ∧
    run step (Process.fresh initial vacated) events = .ok process

theorem Reachable.codeIntact (reachable : Reachable data initial process) :
    CodeIntact data initial process := by
  obtain ⟨vacated, events, allowed, ran⟩ := reachable
  refine run_invariant ?_ (codeIntact_fresh data initial vacated) allowed ran
  intro process event next code admissible stepped
  obtain ⟨answer, ran⟩ := step_eq_ok stepped
  exact code.call admissible ran

/-- A call of a reached process. -/
theorem Reachable.call
    {event : Call} {next : Process} {answer : Option Ele7enStatus}
    (reachable : Reachable data initial process) (admissible : Admissible data process event)
    (ran : HookEngine.call process event = .ok (next, answer)) : Reachable data initial next := by
  obtain ⟨vacated, events, allowed, reached⟩ := reachable
  have stepped : step process event = .ok next := by
    rw [step, ran]
    rfl
  refine ⟨vacated, events ++ [event],
    allowed.append reached ⟨admissible, fun _ _ => trivial⟩, ?_⟩
  rw [run_append reached, run, stepped]
  rfl

/-- In every process that is reached, the code is the original code with the patches of
the functions that are hooked. -/
theorem code_is_original_with_patches
    (reachable : Reachable data initial process) {here : Word} (isCode : ¬data here) :
    (∃ position < process.info.size, (process.info.slot position).status = HOOKED ∧
        (process.info.slot position).Covers here ∧
        process.memory here =
          storeBytes initial (clearBit0 (process.info.slot position).targetAddr)
            (patchBytes (process.info.slot position)) here) ∨
      (process.info.All fun item => item.status = HOOKED -> ¬item.Covers here) ∧
        process.memory here = initial here := by
  have code := reachable.codeIntact
  by_cases none : process.info.All fun item => item.status = HOOKED -> ¬item.Covers here
  · exact .inr ⟨none, code.rest here isCode none⟩
  · simp only [SlotTable.All, not_forall, not_not] at none
    obtain ⟨position, inside, hooked, covers⟩ := none
    exact .inl ⟨position, inside, hooked, covers,
      (code.intact position inside).patched hooked here covers⟩

theorem CodeIntact.unHookAll
    (code : CodeIntact data initial process) {here : Word} (isCode : ¬data here) :
    (inlineUnHookAll process).memory here = initial here := by
  have frozen : CodeIntact data initial (freeze process none .disable) :=
    code.of_same (freeze_info _ _) rfl
  obtain ⟨-, none, -⟩ := inlineUnHookFrom_spec 0 (freeze process none .disable) frozen.well
    (fun index before => absurd before (Nat.not_lt_zero index))
  have after := @CodeIntact.call data initial process .unHookAll _ _ code trivial rfl
  exact after.rest here isCode fun position inside hooked => absurd hooked (none position inside)

/-- After `inlineUnHookAll` the code is the original code. -/
theorem inlineUnHookAll_restores_code
    (reachable : Reachable data initial process) {here : Word} (isCode : ¬data here) :
    (inlineUnHookAll process).memory here = initial here :=
  reachable.codeIntact.unHookAll isCode

end

/-! ## One hook -/

section

/-- The addresses from 0x8000 on, as data. -/
def High (here : Word) : Prop := 0x8000 ≤ here.toNat

theorem placed_low : Placed High (requested 0x1000 0x2000 0 0x9000) where
  length := rfl
  covers here inside := by
    change (here - 0x1000).toNat < 8 at inside
    rw [High]
    bv_omega
  page here inside := by
    change (here - 0x9000).toNat < 4096 at inside
    rw [High]
    bv_omega
  proto here inside := absurd rfl inside.1
  apart here inside := absurd rfl inside.1

/-- A process with one function that is hooked. -/
theorem reachable_hooked : ∃ process, Reachable High (fun _ => 0) process ∧
    process.info.size = 1 ∧ (process.info.slot 0).status = HOOKED ∧
      (process.info.slot 0).targetAddr = 0x1000 ∧
      (process.info.slot 0).trampolineInstructions = 0x9000 := by
  refine ⟨_, ⟨fun _ => 0, [.register (.granting 0x9000) 0x1000 0x2000 0, .hook 0x1000], ?_,
    rfl⟩, rfl, rfl, rfl, rfl⟩
  refine ⟨fun page found _ => ?_, fun next _ => ⟨trivial, fun _ _ => trivial⟩⟩
  cases found
  exact ⟨placed_low, fun index inside => absurd inside (Nat.not_lt_zero index)⟩

theorem code_of_one_hook : ∃ process : Process,
    (∃ position < process.info.size, (process.info.slot position).status = HOOKED ∧
        (process.info.slot position).Covers 0x1000 ∧
        process.memory 0x1000 =
          storeBytes (fun _ => 0) (clearBit0 (process.info.slot position).targetAddr)
            (patchBytes (process.info.slot position)) 0x1000) ∨
      (process.info.All fun item => item.status = HOOKED -> ¬item.Covers 0x1000) ∧
        process.memory 0x1000 = 0 := by
  obtain ⟨process, reachable, -⟩ := reachable_hooked
  exact ⟨process, code_is_original_with_patches reachable (by rw [High]; decide)⟩

theorem unHookAll_of_one_hook : ∃ process : Process,
    process.info.size = 1 ∧ (inlineUnHookAll process).memory 0x1000 = 0 := by
  obtain ⟨process, reachable, one, -⟩ := reachable_hooked
  exact ⟨process, one, inlineUnHookAll_restores_code reachable (by rw [High]; decide)⟩

end

end HookEngine
end UnityLocalization
