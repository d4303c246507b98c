import UnityLocalization.Install.FirstLine
import UnityLocalization.MappingFile
import UnityLocalization.TextHook.Translation

/-!
# Parsing undoes writing

The accessors with a record of the lines their loops split.  Forgetting the
record gives the accessors back.  For a written file the record lists the header,
which is not tried, and the entries, which are tried in order; the buffers hold
their texts and zeros.
-/

namespace UnityLocalization
namespace TextHook

open CMemory Table Install

/-- A line split by the loop: its number, the token, the two part buffers, and
whether it was tried as an entry. -/
structure Visit where
  currentLines : Nat
  p : Bytes
  left : Bytes
  right : Bytes
  tried : Bool
  deriving DecidableEq

/-! ## Recording -/

/-- `entryTurn`, noting whether the entry was tried. -/
def recordedTurn
    (convertSize : Nat) (dumped : Option Region) (srcLength : Int)
    (currentLines : Nat) (left right header middle : Bytes) :
    Checked (Bool × LoopState) :=
  if currentLines ≠ 0 then do
    let state ← tryEntry convertSize dumped srcLength currentLines left right header middle
    return (true, state)
  else .ok (false, ⟨header, middle, none⟩)

/-- `entryLoop`, noting every line it splits. -/
def recordedLoop
    (convertSize : Nat) (dumped : Option Region) (srcLength : Int)
    (token : Option (Bytes × Bytes))
    (currentLines : Nat) (left right header middle : Bytes) :
    Checked (List Visit × LoopState) :=
  match token with
  | none => .ok ([], ⟨header, middle, none⟩)
  | some (p, cursor) => do
      let (left, right) ← splitLine left right p
      let (tried, state) ←
        recordedTurn convertSize dumped srcLength currentLines left right header middle
      let visit : Visit := ⟨currentLines, p, left, right, tried⟩
      if state.substitution.isSome then return ([visit], state)
      match _next : strtok lineDelimiters cursor with
      | .error fault => .error fault
      | .ok next => do
          let (visits, state) ←
            recordedLoop convertSize dumped srcLength next (currentLines + 1)
              left right state.header state.middle
          return (visit :: visits, state)
termination_by (token.map fun found => found.2.length + 1).getD 0
decreasing_by
  cases next with
  | none => simp
  | some found =>
      have shorter := length_lt_of_strtok _next
      simp
      omega

/-- `walkTable` with the record of its loop. -/
def recordedWalk
    (convertSize : Nat) (globals : Globals)
    (target : Region) (dumped : Option Region) (srcLength : Int)
    (header middle : Bytes) : Checked (List Visit × LoopState) := do
  let header ← memset header 0 headerSize
  let header ← memcpy header 0 target 0 headerSize
  let middle ← memset middle 0 splitSize
  let middle ← memccpy middle target headerSize globals.endPointer.toUInt8 splitSize
  let tempBuffer ← read (regionOf globals.buffer) 0 (globals.fileSize + 4)
  let token ← strtok lineDelimiters tempBuffer
  recordedLoop convertSize dumped srcLength token 0
    (calloc splitSize) (calloc splitSize) header middle

/-- `new_func_set` with the record of its loop. -/
def recordedSet
    (globals : Globals)
    (arg : UInt32) (arg1 : Option Region) (arg2 arg3 : UInt32) :
    Checked (List Visit × SetResult) := do
  let globals := { globals with currentSetIndex := globals.currentSetIndex + 1 }
  let target ← deref arg1
  let length ← loadInt32 target 8
  let srcLength := wrapInt32 (length * 2)
  if arg1.isNone ∨ srcLength = 0 then
    return ([], ⟨globals, [⟨arg, .caller, arg2, arg3⟩], none⟩)
  else do
    let (visits, state) ← recordedWalk (splitSize * 2) globals target arg1 srcLength
      globals.headerSet globals.middleSet
    let globals :=
      { globals with headerSet := state.header, middleSet := state.middle }
    return (visits,
      ⟨globals, [⟨arg, passedOn state.substitution, arg2, arg3⟩], state.substitution⟩)

/-- `new_func_get` with the record of its loop. -/
def recordedGet
    (globals : Globals) (ret : Option Region)
    (arg : UInt32) (arg1 : Option Region) (arg2 arg3 : UInt32) :
    Checked (List Visit × GetResult) := do
  let globals := { globals with currentGetIndex := globals.currentGetIndex + 1 }
  let call : OriginalCall := ⟨arg, .caller, arg2, arg3⟩
  let target ← deref ret
  let length ← loadInt32 target 8
  let srcLength := wrapInt32 (length * 2)
  if srcLength = 0 ∨ ret.isNone ∨ arg = 0 then
    return ([], ⟨globals, [call, call], .caller, none⟩)
  else do
    let first ← load target headerSize
    if first = 0 then
      return ([], ⟨globals, [call, call], .caller, none⟩)
    else do
      let (visits, state) ← recordedWalk (middleSize * 2) globals target arg1 srcLength
        globals.headerGet globals.middleGet
      let globals :=
        { globals with headerGet := state.header, middleGet := state.middle }
      return (visits,
        ⟨globals, if state.substitution.isSome then [call] else [call, call],
          passedOn state.substitution, state.substitution⟩)

/-! ## Forgetting the record -/

/-- The result without its record. -/
def forget (recorded : Checked (α × β)) : Checked β :=
  recorded >>= fun result => .ok result.2

theorem forget_bind (first : Checked γ) (next : γ -> Checked (α × β)) :
    forget (first >>= next) = first >>= fun value => forget (next value) :=
  bind_assoc first next _

theorem forget_recordedTurn
    (convertSize : Nat) (dumped : Option Region) (srcLength : Int)
    (currentLines : Nat) (left right header middle : Bytes) :
    forget (recordedTurn convertSize dumped srcLength currentLines
        left right header middle) =
      entryTurn convertSize dumped srcLength currentLines left right header middle := by
  unfold recordedTurn entryTurn
  split
  · rw [forget_bind]
    exact bind_pure _
  · rfl

/-- One turn of the recorded loop. -/
theorem recordedLoop_some
    (convertSize : Nat) (dumped : Option Region) (srcLength : Int)
    (p cursor : Bytes) (currentLines : Nat) (left right header middle : Bytes) :
    recordedLoop convertSize dumped srcLength (some (p, cursor)) currentLines
        left right header middle =
      splitLine left right p >>= fun parts =>
        recordedTurn convertSize dumped srcLength currentLines
          parts.1 parts.2 header middle >>= fun turn =>
            if turn.2.substitution.isSome then
              .ok ([⟨currentLines, p, parts.1, parts.2, turn.1⟩], turn.2)
            else strtok lineDelimiters cursor >>= fun next =>
              recordedLoop convertSize dumped srcLength next (currentLines + 1)
                  parts.1 parts.2 turn.2.header turn.2.middle >>= fun rest =>
                .ok (⟨currentLines, p, parts.1, parts.2, turn.1⟩ :: rest.1, rest.2) := by
  rw [recordedLoop]
  refine bind_congr fun parts => bind_congr fun turn => ?_
  obtain ⟨tried, state⟩ := turn
  dsimp only
  congr 1
  split
  case h_1 fault failed => rw [failed, error_bind]
  case h_2 next scanned => rw [scanned, ok_bind]; rfl

theorem forget_recordedLoop
    (convertSize : Nat) (dumped : Option Region) (srcLength : Int)
    (token : Option (Bytes × Bytes))
    (currentLines : Nat) (left right header middle : Bytes) :
    forget (recordedLoop convertSize dumped srcLength token currentLines
        left right header middle) =
      entryLoop convertSize dumped srcLength token currentLines
        left right header middle := by
  induction token using strtok_induction lineDelimiters
    generalizing currentLines left right header middle with
  | ended => rw [recordedLoop, entryLoop]; rfl
  | found p cursor inductionHypothesis =>
      rw [recordedLoop_some, entryLoop_some, forget_bind]
      refine bind_congr fun parts => ?_
      rw [← forget_recordedTurn, forget_bind, forget, bind_assoc]
      refine bind_congr fun turn => ?_
      rw [ok_bind]
      split
      case isTrue => rfl
      case isFalse =>
        cases scanned : strtok lineDelimiters cursor with
        | error fault => rfl
        | ok next =>
            rw [ok_bind, ok_bind, forget_bind, ← inductionHypothesis next scanned]
            rfl

theorem forget_recordedWalk
    (convertSize : Nat) (globals : Globals)
    (target : Region) (dumped : Option Region) (srcLength : Int)
    (header middle : Bytes) :
    forget (recordedWalk convertSize globals target dumped srcLength header middle) =
      walkTable convertSize globals target dumped srcLength header middle := by
  simp only [recordedWalk, walkTable, forget_bind, forget_recordedLoop]

/-- The setter is the recorded setter without its record. -/
theorem forget_recordedSet
    (globals : Globals)
    (arg : UInt32) (arg1 : Option Region) (arg2 arg3 : UInt32) :
    forget (recordedSet globals arg arg1 arg2 arg3) =
      newFuncSet globals arg arg1 arg2 arg3 := by
  rw [recordedSet, newFuncSet, forget_bind]
  refine bind_congr fun target => ?_
  rw [forget_bind]
  refine bind_congr fun length => ?_
  dsimp only
  split
  · rfl
  · rw [← forget_recordedWalk, forget_bind, forget, bind_assoc]
    refine bind_congr fun walked => ?_
    rw [ok_bind]
    cases walked.2.substitution with
    | none => rfl
    | some substitution => rfl

/-- The getter is the recorded getter without its record. -/
theorem forget_recordedGet
    (globals : Globals) (ret : Option Region)
    (arg : UInt32) (arg1 : Option Region) (arg2 arg3 : UInt32) :
    forget (recordedGet globals ret arg arg1 arg2 arg3) =
      newFuncGet globals ret arg arg1 arg2 arg3 := by
  rw [recordedGet, newFuncGet, forget_bind]
  refine bind_congr fun target => ?_
  rw [forget_bind]
  refine bind_congr fun length => ?_
  dsimp only
  split
  · rfl
  · rw [forget_bind]
    refine bind_congr fun first => ?_
    split
    · rfl
    · rw [← forget_recordedWalk, forget_bind, forget, bind_assoc]
      refine bind_congr fun walked => ?_
      rw [ok_bind]
      cases walked.2.substitution with
      | none => rfl
      | some substitution => rfl

/-! ## The lines visited -/

/-- The visit of a line at its turn. -/
def visitAt (currentLines : Nat) (line : Bytes) : Visit :=
  ⟨currentLines, line ++ [0],
    leftPart line ++ calloc (splitSize - (leftPart line).length),
    rightPart line ++ calloc (splitSize - (rightPart line).length),
    decide (currentLines ≠ 0)⟩

/-- Every line but the first is tried. -/
theorem tried_of_recordedTurn
    {convertSize : Nat} {dumped : Option Region} {srcLength : Int}
    {currentLines : Nat} {left right header middle : Bytes}
    {tried : Bool} {state : LoopState}
    (returned : recordedTurn convertSize dumped srcLength currentLines
      left right header middle = .ok (tried, state)) :
    tried = decide (currentLines ≠ 0) := by
  unfold recordedTurn at returned
  split at returned
  case isTrue behind =>
    obtain ⟨other, -, equal⟩ := bind_eq_ok.mp returned
    cases equal
    exact (decide_eq_true behind).symm
  case isFalse first =>
    cases returned
    exact (decide_eq_false first).symm

/-- The loop visits the lines in order, and all of them if nothing is found. -/
theorem recordedLoop_visits
    {convertSize : Nat} {dumped : Option Region} {srcLength : Int}
    {token : Option (Bytes × Bytes)} {lines : List Bytes}
    {currentLines : Nat} {left right header middle : Bytes}
    {visits : List Visit} {state : LoopState}
    (found : Visits lineDelimiters token lines)
    (terminated : ∀ line, line ∈ lines -> 0 ∉ line)
    (fits : ∀ line, line ∈ lines -> SplitFits line)
    (leftSize : left.length = splitSize) (rightSize : right.length = splitSize)
    (returned : recordedLoop convertSize dumped srcLength token currentLines
      left right header middle = .ok (visits, state)) :
    visits <+: lines.mapIdx (fun index => visitAt (currentLines + index)) ∧
      (state.substitution = none ->
        visits = lines.mapIdx fun index => visitAt (currentLines + index)) := by
  induction lines
    generalizing token currentLines left right header middle visits state with
  | nil =>
      rw [found.eq_none, recordedLoop] at returned
      cases returned
      exact ⟨List.nil_prefix, fun _ => rfl⟩
  | cons line lines inductionHypothesis =>
      obtain ⟨cursor, next, rfl, scanned, visitsNext⟩ := found.exists_next (by decide)
      have lineTerminated := terminated line List.mem_cons_self
      have lineFits := fits line List.mem_cons_self
      rw [recordedLoop_some, scanned,
        splitLine_ok lineFits lineTerminated leftSize rightSize, ok_bind] at returned
      obtain ⟨⟨tried, turn⟩, turned, continued⟩ := bind_eq_ok.mp returned
      have noted := tried_of_recordedTurn turned
      subst noted
      have shifted : (fun index => visitAt (currentLines + 1 + index)) =
          fun index => visitAt (currentLines + (index + 1)) := by
        funext index
        congr 1
        omega
      rw [List.mapIdx_cons]
      split at continued
      case isTrue matched =>
        cases continued
        refine ⟨List.cons_prefix_cons.mpr ⟨rfl, List.nil_prefix⟩, fun none => ?_⟩
        rw [none] at matched
        cases matched
      case isFalse =>
        rw [ok_bind] at continued
        obtain ⟨⟨later, last⟩, looped, equal⟩ := bind_eq_ok.mp continued
        cases equal
        obtain ⟨laterPrefix, laterAll⟩ := inductionHypothesis visitsNext
          (fun other present => terminated other (List.mem_cons_of_mem _ present))
          (fun other present => fits other (List.mem_cons_of_mem _ present))
          (part_size lineFits.left_fits)
          (part_size (Nat.le_of_lt lineFits.right_short)) looped
        rw [shifted] at laterPrefix laterAll
        exact ⟨List.cons_prefix_cons.mpr ⟨rfl, laterPrefix⟩,
          fun none => congrArg (_ :: ·) (laterAll none)⟩

/-- The visit of a written entry: the buffers hold its texts and zeros. -/
def entryVisit (currentLines : Nat) (entry : Entry) : Visit :=
  ⟨currentLines, entry.line ++ [0],
    entry.left ++ calloc (splitSize - entry.left.length),
    entry.right ++ calloc (splitSize - entry.right.length),
    decide (currentLines ≠ 0)⟩

theorem visitAt_line
    {entry : Entry} {limit : Nat} (writable : entry.Writable limit) (currentLines : Nat) :
    visitAt currentLines entry.line = entryVisit currentLines entry := by
  obtain ⟨left, right⟩ := writable.parts
  rw [visitAt, left, right]
  rfl

/-- The visits a written file asks for: the header, and every entry in order. -/
def fileVisits (file : MappingFile) : List Visit :=
  (file.header :: file.entries.map SeparatedEntry.entry).mapIdx entryVisit

theorem mapIdx_visitAt (file : MappingFile) :
    file.lines.mapIdx visitAt = fileVisits file := by
  rw [MappingFile.lines, fileVisits, List.mapIdx_cons, List.mapIdx_cons,
    visitAt_line file.header_writable]
  congr 1
  apply List.ext_getElem?
  intro index
  rw [List.getElem?_mapIdx, List.getElem?_mapIdx, List.getElem?_map, List.getElem?_map]
  cases file.entries[index]? with
  | none => rfl
  | some separated => exact congrArg some (visitAt_line separated.writable (index + 1))

/-- The recorded walk over a written file visits what was written. -/
theorem recordedWalk_visits
    {convertSize : Nat} {file : MappingFile} {endPointer : UInt32}
    {globals : Globals} {target : Region} {dumped : Option Region}
    {srcLength : Int} {header middle : Bytes}
    {visits : List Visit} {state : LoopState}
    (loaded : Loaded file.bytes endPointer globals)
    (returned : recordedWalk convertSize globals target dumped srcLength
      header middle = .ok (visits, state)) :
    visits <+: fileVisits file ∧ (state.substitution = none -> visits = fileVisits file) := by
  unfold recordedWalk at returned
  obtain ⟨header, -, returned⟩ := bind_eq_ok.mp returned
  obtain ⟨header, -, returned⟩ := bind_eq_ok.mp returned
  obtain ⟨middle, -, returned⟩ := bind_eq_ok.mp returned
  obtain ⟨middle, -, returned⟩ := bind_eq_ok.mp returned
  obtain ⟨token, first, found⟩ := strtok_buffer file.bytes
  rw [loaded.read_buffer, ok_bind, first, ok_bind] at returned
  have looped := recordedLoop_visits found (fun line => zero_not_mem_fileLines)
    (fun line present => (file.table.wellFormed line present).entryFits.toSplitFits)
    (by simp) (by simp) returned
  have numbered : (fun index => visitAt (0 + index)) = visitAt := by
    funext index
    rw [Nat.zero_add]
  rwa [numbered, file.fileLines_bytes, mapIdx_visitAt] at looped

/-- A recorded call returns what the call returns. -/
theorem exists_record_of_forget
    {recorded : Checked (α × β)} {result : β} (returned : forget recorded = .ok result) :
    ∃ record, recorded = .ok (record, result) := by
  obtain ⟨⟨record, other⟩, found, equal⟩ := bind_eq_ok.mp returned
  cases equal
  exact ⟨record, found⟩

/-- The call returns, and its loop visits the written lines in order: all of them
if there is no match. -/
def VisitsWritten
    (file : MappingFile) (recorded : Checked (List Visit × ρ)) (call : Checked ρ)
    (substitution : ρ -> Option Substitution) : Prop :=
  ∃ visits result, recorded = .ok (visits, result) ∧ call = .ok result ∧
    visits <+: fileVisits file ∧ (substitution result = none -> visits = fileVisits file)

theorem recordedSet_visits
    {file : MappingFile} {endPointer : UInt32} {globals : Globals}
    (loaded : Loaded file.bytes endPointer globals)
    (arg arg2 arg3 : UInt32) (string : Il2CppString) (tail : Nat -> UInt8)
    (nonempty : string.units ≠ []) :
    VisitsWritten file
      (recordedSet globals arg (some (readable (string.image tail))) arg2 arg3)
      (newFuncSet globals arg (some (readable (string.image tail))) arg2 arg3)
      SetResult.substitution := by
  obtain ⟨result, called⟩ := (newFuncSet_returns_iff loaded arg arg2 arg3 string tail).mpr
    (Or.inr (linesFit_lines file.table _))
  have forgotten := called
  rw [← forget_recordedSet] at forgotten
  obtain ⟨visits, recorded⟩ := exists_record_of_forget forgotten
  refine ⟨visits, _, recorded, called, ?_⟩
  rw [recordedSet, deref_some, ok_bind, string.loadInt32_image tail, ok_bind] at recorded
  simp only [Option.isNone_some, Bool.false_eq_true, false_or,
    wrapInt32_double_eq_zero_iff, nonempty, if_false] at recorded
  obtain ⟨⟨others, state⟩, walked, equal⟩ := bind_eq_ok.mp recorded
  have visited := recordedWalk_visits (loaded.countSet _) walked
  cases equal
  exact visited

theorem recordedGet_visits
    {file : MappingFile} {endPointer : UInt32} {globals : Globals}
    (loaded : Loaded file.bytes endPointer globals)
    (arg : UInt32) (arg1 : Option Region) (arg2 arg3 : UInt32)
    (string : Il2CppString) (tail : Nat -> UInt8) (dumpable : Dumpable arg1 string.size)
    (walks : ¬GetterSkips arg string) :
    VisitsWritten file
      (recordedGet globals (some (readable (string.image tail))) arg arg1 arg2 arg3)
      (newFuncGet globals (some (readable (string.image tail))) arg arg1 arg2 arg3)
      GetResult.substitution := by
  obtain ⟨result, called⟩ :=
    (newFuncGet_returns_iff loaded arg arg1 arg2 arg3 string tail dumpable).mpr
      (Or.inr (linesFit_lines file.table _))
  have forgotten := called
  rw [← forget_recordedGet] at forgotten
  obtain ⟨visits, recorded⟩ := exists_record_of_forget forgotten
  refine ⟨visits, _, recorded, called, ?_⟩
  obtain ⟨nonempty, passes⟩ := not_or.mp walks
  obtain ⟨argNonnull, firstNonzero⟩ := not_or.mp passes
  obtain ⟨byte, first, byteLoaded⟩ := (string.liesAt_image tail).load_first nonempty
  have nonzero : byte ≠ 0 := fun zero => firstNonzero (by rw [first, zero])
  rw [recordedGet, deref_some, ok_bind, string.loadInt32_image tail, ok_bind] at recorded
  simp only [Option.isNone_some, Bool.false_eq_true, false_or,
    wrapInt32_double_eq_zero_iff, nonempty, argNonnull, if_false, byteLoaded, ok_bind,
    nonzero] at recorded
  obtain ⟨⟨others, state⟩, walked, equal⟩ := bind_eq_ok.mp recorded
  have visited := recordedWalk_visits (loaded.countGet _) walked
  cases equal
  exact visited

/-- The address line is the header, and its texts fill the buffers. -/
theorem initAddressFromFile_header
    {file : MappingFile} {endPointer : UInt32} {globals : Globals}
    (loaded : Loaded file.bytes endPointer globals) (addresses : Addresses) :
    initAddressFromFile globals.buffer globals.fileSize addresses =
        splitAddressLine (calloc addressSize) (calloc addressSize)
          (file.header.line ++ [0]) >>= readAddresses ∧
      splitAddressLine (calloc addressSize) (calloc addressSize)
          (file.header.line ++ [0]) =
        .ok (file.header.left ++ calloc (addressSize - file.header.left.length),
          file.header.right ++ calloc (addressSize - file.header.right.length)) ∧
      ∃ parsed, initAddressFromFile globals.buffer globals.fileSize addresses =
        .ok parsed := by
  have first : (fileLines file.bytes).head? = some file.header.line := by
    rw [file.fileLines_bytes]
    rfl
  obtain ⟨left, right⟩ := file.header_writable.parts
  have fits : AddressLine file.header.line := by
    refine ⟨by simp [Entry.line], ?_, ?_⟩
    · rw [left]
      exact file.header_writable.left_short
    · rw [right]
      exact file.header_writable.right_short
  have split := splitAddressLine_ok fits
    (zero_not_mem_fileLines (List.mem_of_mem_head? first))
  rw [left, right] at split
  obtain ⟨addressGet, addressSet, -, -, returned⟩ :=
    initAddressFromFile_ok first fits addresses
  rw [loaded.buffer, loaded.fileSize]
  refine ⟨?_, split, ⟨addressGet, addressSet⟩, returned⟩
  rw [initAddressFromFile_eq, first, Option.elim_some]

/-- The loops of both accessors read back what was written, and the header they
skip is the line the addresses come from. -/
theorem parsing_undoes_writing
    (file : MappingFile) {endPointer : UInt32} {globals : Globals}
    (loaded : Loaded file.bytes endPointer globals) (addresses : Addresses)
    (arg : UInt32) (arg1 : Option Region) (arg2 arg3 : UInt32)
    (string : Il2CppString) (tail : Nat -> UInt8) (dumpable : Dumpable arg1 string.size) :
    (string.units ≠ [] ->
      VisitsWritten file
        (recordedSet globals arg (some (readable (string.image tail))) arg2 arg3)
        (newFuncSet globals arg (some (readable (string.image tail))) arg2 arg3)
        SetResult.substitution) ∧
    (¬GetterSkips arg string ->
      VisitsWritten file
        (recordedGet globals (some (readable (string.image tail))) arg arg1 arg2 arg3)
        (newFuncGet globals (some (readable (string.image tail))) arg arg1 arg2 arg3)
        GetResult.substitution) ∧
    initAddressFromFile globals.buffer globals.fileSize addresses =
        splitAddressLine (calloc addressSize) (calloc addressSize)
          (file.header.line ++ [0]) >>= readAddresses ∧
    splitAddressLine (calloc addressSize) (calloc addressSize)
        (file.header.line ++ [0]) =
      .ok (file.header.left ++ calloc (addressSize - file.header.left.length),
        file.header.right ++ calloc (addressSize - file.header.right.length)) ∧
    ∃ parsed, initAddressFromFile globals.buffer globals.fileSize addresses =
      .ok parsed :=
  ⟨recordedSet_visits loaded arg arg2 arg3 string tail,
    recordedGet_visits loaded arg arg1 arg2 arg3 string tail dumpable,
    initAddressFromFile_header loaded addresses⟩

/-- The file with the header `0|0` and the entries `zzz|c|dd` and `z|b`, with blank
lines; the second entry is the shorter one. -/
def blankLines : MappingFile where
  leading := [0x0A]
  header := ⟨[0x30], [0x30]⟩
  entries := [⟨[0x0D, 0x0A, 0x0A], ⟨[0x7A, 0x7A, 0x7A], [0x63, 0x7C, 0x64, 0x64]⟩,
      by simp [LineBreaks], by simp, by simp [LineByte], by simp [LineByte], by decide,
      by decide, by decide⟩,
    ⟨[0x0A], ⟨[0x7A], [0x62]⟩, by simp [LineBreaks], by simp, by simp [LineByte],
      by simp [LineByte], by decide, by decide, by decide⟩]
  trailing := [0x0A]
  leading_breaks := by simp [LineBreaks]
  header_writable :=
    ⟨by simp [LineByte], by simp [LineByte], by decide, by decide, by decide⟩
  trailing_breaks := by simp [LineBreaks]

theorem parsing_undoes_writing_blankLines :
    VisitsWritten blankLines
        (recordedSet (afterLoad blankLines.bytes 0x10) 1
          (some (readable (Il2CppString.lateCapital.image fun _ => 0))) 2 3)
        (newFuncSet (afterLoad blankLines.bytes 0x10) 1
          (some (readable (Il2CppString.lateCapital.image fun _ => 0))) 2 3)
        SetResult.substitution ∧
      VisitsWritten blankLines
        (recordedGet (afterLoad blankLines.bytes 0x10)
          (some (readable (Il2CppString.lateCapital.image fun _ => 0))) 1 none 2 3)
        (newFuncGet (afterLoad blankLines.bytes 0x10)
          (some (readable (Il2CppString.lateCapital.image fun _ => 0))) 1 none 2 3)
        GetResult.substitution := by
  obtain ⟨setter, getter, -⟩ := parsing_undoes_writing blankLines
    (loaded_afterLoad blankLines.bytes 0x10) ⟨0, 0⟩ 1 none 2 3 .lateCapital (fun _ => 0)
    (dumpable_none _)
  exact ⟨setter (by decide), getter (by decide)⟩

end TextHook
end UnityLocalization
