import UnityLocalization.Library.Tiling
import UnityLocalization.TextHook.Coherence

/-!
# The shape of a rebuilt string

The four copies behind the header of a new object have lengths that are not
negative and tile the rest of the block; the length field counts the code units
of the new payload, and zero bytes follow it.
-/

namespace UnityLocalization
namespace TextHook

open CMemory Tools Table Utf16 TextReplace Tiling

/-! ## The copies of a rebuild -/

/-- One `memcpy` into the new block. -/
structure Copy where
  offset : Nat
  source : Bytes
  start : Nat
  length : Int

/-- The bytes of the block a copy fills. -/
def Copy.extent (copy : Copy) : Extent := ⟨copy.offset, copy.length⟩

def Copy.run (block : Bytes) (copy : Copy) : Checked Bytes :=
  memcpy block copy.offset (regionOf copy.source) copy.start copy.length

/-- `length_end` -/
def lengthEnd (srcLength : Int) (lengthStart lengthLeft : Nat) : Int :=
  srcLength - lengthStart - lengthLeft

/-- `length_middle` -/
def lengthMiddle (srcLength : Int) (lengthStart lengthLeft lengthRight : Nat) : Int :=
  lengthStart + lengthRight + lengthEnd srcLength lengthStart lengthLeft

/-- The copies behind the header: the kept start, the converted right text, the
kept rest and the zero bytes. -/
def copies
    (srcLength : Int) (middle pNewUStr : Bytes)
    (lengthStart lengthLeft lengthRight : Nat) : List Copy :=
  let rest := lengthEnd srcLength lengthStart lengthLeft
  [⟨headerSize, middle, 0, lengthStart⟩,
    ⟨headerSize + lengthStart, pNewUStr, 0, lengthRight⟩,
    ⟨headerSize + lengthStart + lengthRight, middle, lengthStart + lengthLeft, rest⟩,
    ⟨headerSize + lengthStart + lengthRight + rest.toNat, endBlock, 0, endSize⟩]

/-- `rebuild` fills the block with these copies. -/
theorem rebuild_eq_copies
    (dumped : Option Region) (srcLength : Int)
    (header middle right : Bytes) (lengthStart lengthLeft : Nat) :
    rebuild dumped srcLength header middle right lengthStart lengthLeft = (do
      let _ ← hexDump dumped (srcLength + headerSize + endSize)
      let (pNewUStr, lengthRight) ← utf8ToUnicode (calloc (middleSize * 2)) right
      let _ ← hexDump (some (regionOf pNewUStr)) lengthRight
      let size := lengthMiddle srcLength lengthStart lengthLeft lengthRight
      let pReturn ← callocSize (headerSize + size + endSize)
      let header ← write header 8 (int32Bytes (size.tdiv 2))
      let pReturn ← memcpy pReturn 0 (regionOf header) 0 headerSize
      let pReturn ←
        (copies srcLength middle pNewUStr lengthStart lengthLeft lengthRight).foldlM
          Copy.run pReturn
      let _ ← hexDump (some (regionOf pReturn)) (headerSize + size + endSize)
      return (header, pReturn)) := by
  simp only [rebuild, copies, List.foldlM_cons, List.foldlM_nil, Copy.run, lengthMiddle,
    lengthEnd, bind_assoc, pure_bind]

/-- Where the match lies inside the text, the copies tile the block behind the
header. -/
theorem consecutive_copies
    (middle pNewUStr : Bytes)
    {srcLength : Int} {lengthStart lengthLeft : Nat} (lengthRight : Nat)
    (inside : (lengthStart : Int) + lengthLeft ≤ srcLength) :
    Consecutive headerSize
      (headerSize + lengthMiddle srcLength lengthStart lengthLeft lengthRight + endSize)
      ((copies srcLength middle pNewUStr lengthStart lengthLeft lengthRight).map
        Copy.extent) := by
  have notNegative : 0 ≤ lengthEnd srcLength lengthStart lengthLeft := by
    unfold lengthEnd
    omega
  simp only [copies, lengthMiddle, List.map_cons, List.map_nil, Copy.extent, Consecutive]
  generalize lengthEnd srcLength lengthStart lengthLeft = rest at *
  refine ⟨trivial, by omega, by omega, by omega, by omega, notNegative, by omega,
    by omega, by omega⟩

/-- Running copies keeps the size of the block. -/
theorem length_of_foldlM_run
    {copies : List Copy} {block result : Bytes}
    (ran : copies.foldlM Copy.run block = .ok result) :
    result.length = block.length := by
  induction copies generalizing block with
  | nil => rw [← Except.ok.inj ran]
  | cons copy copies inductionHypothesis =>
      rw [List.foldlM_cons] at ran
      obtain ⟨next, copied, ran⟩ := bind_eq_ok.mp ran
      rw [inductionHypothesis ran, length_of_memcpy copied]

/-- A computed allocation that is not null has the computed size. -/
theorem length_of_callocSize
    {size : Int} {block : Bytes} (allocated : callocSize size = .ok block) :
    (block.length : Int) = size := by
  unfold callocSize at allocated
  split at allocated
  · cases allocated
  · cases allocated
    rw [length_calloc]
    omega

/-- The object of a substitution is what `rebuild` returned for its match. -/
def Rebuilt (dumped : Option Region) (srcLength : Int) (substitution : Substitution) : Prop :=
  ∃ header middle right headerAfter,
    rebuild dumped srcLength header middle right
      substitution.lengthStart substitution.lengthLeft =
        .ok (headerAfter, substitution.pReturn)

/-- One call of `rebuild` for a match: the object it returns is a new block that
gets the header, `block`, and then the four copies, with `lengthRight` bytes of
the converted right text.  These copies tile the block behind the header. -/
structure FilledByCopies
    (dumped : Option Region) (srcLength : Int) (lengthRight : Nat)
    (substitution : Substitution)
    (header middle right headerAfter pNewUStr calloced block : Bytes) : Prop where
  returned : rebuild dumped srcLength header middle right
      substitution.lengthStart substitution.lengthLeft =
    .ok (headerAfter, substitution.pReturn)
  converted : utf8ToUnicode (calloc (middleSize * 2)) right = .ok (pNewUStr, lengthRight)
  allocated : callocSize (headerSize + lengthMiddle srcLength substitution.lengthStart
      substitution.lengthLeft lengthRight + endSize) = .ok calloced
  headed : memcpy calloced 0 (regionOf headerAfter) 0 headerSize = .ok block
  copied : (copies srcLength middle pNewUStr substitution.lengthStart
      substitution.lengthLeft lengthRight).foldlM Copy.run block = .ok substitution.pReturn
  tiles : Tiles headerSize substitution.pReturn.length
    ((copies srcLength middle pNewUStr substitution.lengthStart
      substitution.lengthLeft lengthRight).map Copy.extent)

/-- The object is built by the copies of a call of `rebuild`, and they tile it. -/
def BuiltByTiles
    (dumped : Option Region) (srcLength : Int) (lengthRight : Nat)
    (substitution : Substitution) : Prop :=
  ∃ header middle right headerAfter pNewUStr calloced block,
    FilledByCopies dumped srcLength lengthRight substitution
      header middle right headerAfter pNewUStr calloced block

/-- A rebuild around a match inside the text fills its object by copies that tile
it; the size of the object tells how long the converted right text is. -/
theorem Rebuilt.builtByTiles
    {dumped : Option Region} {srcLength : Int} {lengthRight : Nat}
    {substitution : Substitution}
    (rebuilt : Rebuilt dumped srcLength substitution)
    (inside : (substitution.lengthStart : Int) + substitution.lengthLeft ≤ srcLength)
    (size : (substitution.pReturn.length : Int) =
      headerSize + lengthMiddle srcLength substitution.lengthStart
        substitution.lengthLeft lengthRight + endSize) :
    BuiltByTiles dumped srcLength lengthRight substitution := by
  obtain ⟨header, middle, right, headerAfter, returned⟩ := rebuilt
  have ran := returned
  rw [rebuild_eq_copies] at ran
  obtain ⟨_, -, ran⟩ := bind_eq_ok.mp ran
  obtain ⟨⟨pNewUStr, convertedLength⟩, converted, ran⟩ := bind_eq_ok.mp ran
  obtain ⟨_, -, ran⟩ := bind_eq_ok.mp ran
  obtain ⟨calloced, allocated, ran⟩ := bind_eq_ok.mp ran
  obtain ⟨written, -, ran⟩ := bind_eq_ok.mp ran
  obtain ⟨block, headed, ran⟩ := bind_eq_ok.mp ran
  obtain ⟨filled, copied, ran⟩ := bind_eq_ok.mp ran
  obtain ⟨_, -, finished⟩ := bind_eq_ok.mp ran
  cases finished
  have blockSize := length_of_callocSize allocated
  rw [← length_of_memcpy headed, ← length_of_foldlM_run copied, size] at blockSize
  obtain rfl : convertedLength = lengthRight := by
    simp only [lengthMiddle] at blockSize
    omega
  refine ⟨header, middle, right, headerAfter, pNewUStr, calloced, block, returned,
    converted, allocated, headed, copied, ?_⟩
  rw [size]
  exact (consecutive_copies middle pNewUStr convertedLength inside).tiles

theorem rebuilt_of_tryEntry
    {convertSize : Nat} {dumped : Option Region} {srcLength : Int} {currentLines : Nat}
    {left right header middle : Bytes} {state : LoopState} {substitution : Substitution}
    (returned : tryEntry convertSize dumped srcLength currentLines left right header middle =
      .ok state)
    (substituted : state.substitution = some substitution) :
    Rebuilt dumped srcLength substitution := by
  rw [tryEntry] at returned
  obtain ⟨key, -, returned⟩ := bind_eq_ok.mp returned
  obtain ⟨folded, -, returned⟩ := bind_eq_ok.mp returned
  obtain ⟨found, -, returned⟩ := bind_eq_ok.mp returned
  cases found with
  | none =>
      cases returned
      cases substituted
  | some lengthStart =>
      obtain ⟨rebuilt, built, returned⟩ := bind_eq_ok.mp returned
      cases returned
      cases substituted
      exact ⟨header, folded, right, rebuilt.1, built⟩

theorem rebuilt_of_entryLoop
    {convertSize : Nat} {dumped : Option Region} {srcLength : Int}
    {token : Option (Bytes × Bytes)} {currentLines : Nat}
    {left right header middle : Bytes} {state : LoopState} {substitution : Substitution}
    (returned : entryLoop convertSize dumped srcLength token currentLines
      left right header middle = .ok state)
    (substituted : state.substitution = some substitution) :
    Rebuilt dumped srcLength substitution := by
  induction token using strtok_induction lineDelimiters
    generalizing currentLines left right header middle with
  | ended =>
      rw [entryLoop] at returned
      cases returned
      cases substituted
  | found p cursor inductionHypothesis =>
      rw [entryLoop_some] at returned
      obtain ⟨parts, -, returned⟩ := bind_eq_ok.mp returned
      obtain ⟨turn, turned, returned⟩ := bind_eq_ok.mp returned
      split at returned
      case isTrue =>
        cases returned
        rw [entryTurn] at turned
        split at turned
        case isTrue => exact rebuilt_of_tryEntry turned substituted
        case isFalse =>
          cases turned
          cases substituted
      case isFalse =>
        obtain ⟨next, scanned, returned⟩ := bind_eq_ok.mp returned
        exact inductionHypothesis next scanned returned

theorem rebuilt_of_walkTable
    {convertSize : Nat} {globals : Globals} {target : Region} {dumped : Option Region}
    {srcLength : Int} {header middle : Bytes}
    {state : LoopState} {substitution : Substitution}
    (returned : walkTable convertSize globals target dumped srcLength header middle =
      .ok state)
    (substituted : state.substitution = some substitution) :
    Rebuilt dumped srcLength substitution := by
  rw [walkTable] at returned
  obtain ⟨_, -, returned⟩ := bind_eq_ok.mp returned
  obtain ⟨_, -, returned⟩ := bind_eq_ok.mp returned
  obtain ⟨_, -, returned⟩ := bind_eq_ok.mp returned
  obtain ⟨_, -, returned⟩ := bind_eq_ok.mp returned
  obtain ⟨_, -, returned⟩ := bind_eq_ok.mp returned
  obtain ⟨_, -, returned⟩ := bind_eq_ok.mp returned
  exact rebuilt_of_entryLoop returned substituted

/-! ## The new object -/

/-- What a rebuilt string looks like: its match inside the source, the size of its
block, the header and the end. -/
structure WellShaped
    (string : Il2CppString) (line : Bytes) (substitution : Substitution) : Prop where
  key : substitution.lengthLeft = keyLength line
  inside : substitution.lengthStart + substitution.lengthLeft ≤ string.size
  block : (substitution.pReturn.length : Int) =
    headerSize + lengthMiddle string.size substitution.lengthStart
      substitution.lengthLeft (replacement line).length + endSize
  classWords : substitution.pReturn.take 8 = string.objectHeader
  payload : lengthMiddle string.size substitution.lengthStart
      substitution.lengthLeft (replacement line).length =
    (string.payload.length : Int) - (foldedKey line).length + (replacement line).length
  lengthField : ∃ field : Int,
    loadInt32 (regionOf substitution.pReturn) 8 = .ok field ∧
      field * 2 = lengthMiddle string.size substitution.lengthStart
        substitution.lengthLeft (replacement line).length
  zeroUnit : ∀ index, index < endSize ->
    load (regionOf substitution.pReturn)
      (substitution.pReturn.length - endSize + index) = .ok 0

/-- Zero bytes at the end of a block. -/
theorem load_endBlock (front : Bytes) {index : Nat} (inside : index < endSize) :
    load (regionOf (front ++ endBlock)) ((front ++ endBlock).length - endSize + index) =
      .ok 0 := by
  have size : endBlock.length = endSize := length_calloc _
  rw [List.length_append, size, Nat.add_sub_cancel, load_regionOf _ _ (by simp [size, inside]),
    List.getElem_append_right (by omega)]
  simp [endBlock, calloc]

theorem wellShaped_substitutionFor
    {table : MappingTable} {endPointer : UInt32} {string : Il2CppString}
    {before after : List Bytes} {line : Bytes} {position : Nat}
    (split : table.entries = before ++ line :: after)
    (hit : FirstHit (searchedText endPointer string) 0 before line position) :
    WellShaped string line (substitutionFor endPointer string before line position) := by
  obtain ⟨stored, words, object, payload⟩ := exists_stored split hit
  have inside := hit.applies.inside
  have textLength : (searchedText endPointer string).length = string.size := by
    rw [(searchedText_of_appliesAt hit.applies).2, length_cutAfter, string.length_payload]
  rw [textLength] at inside
  have start : (substitutionFor endPointer string before line position).lengthStart =
      position := rfl
  have left : (substitutionFor endPointer string before line position).lengthLeft =
      keyLength line := rfl
  have storedSize : (stored.size : Int) =
      lengthMiddle string.size position (keyLength line) (replacement line).length := by
    rw [← stored.length_payload, payload,
      length_splice _ _ _ _ (by simpa [textLength] using inside), length_foldBelow,
      textLength]
    simp only [lengthMiddle, lengthEnd]
    omega
  have block : ((stored.header ++ stored.payload ++ endBlock).length : Int) =
      headerSize + lengthMiddle string.size position (keyLength line)
        (replacement line).length + endSize := by
    rw [← storedSize]
    simp [endBlock]
    omega
  constructor
  · exact left
  · rw [start, left]
    exact inside
  · rw [object, start, left]
    exact block
  · rw [object, List.append_assoc, Il2CppString.header, List.append_assoc,
      List.take_append_of_le_length (by rw [stored.objectHeader_length]),
      List.take_of_length_le (by rw [stored.objectHeader_length]), words]
  · rw [start, left, length_foldedKey, string.length_payload]
    simp only [lengthMiddle, lengthEnd]
    omega
  · refine ⟨stored.units.length, ?_, ?_⟩
    · rw [object, List.append_assoc]
      exact stored.loadInt32_header _
    · rw [start, left, ← storedSize]
      push_cast
      omega
  · intro index bound
    rw [object]
    exact load_endBlock _ bound

/-- Every translation has this shape. -/
theorem wellShaped_of_translate
    {table : MappingTable} {endPointer : UInt32} {string : Il2CppString}
    {substitution : Substitution}
    (translated : translate table endPointer string = some substitution) :
    wrapInt32 (string.units.length * 2) = string.size ∧
      ∃ line, table.lines[substitution.currentLines]? = some line ∧
        WellShaped string line substitution := by
  obtain ⟨before, line, after, position, split, hit, equal⟩ :=
    translate_eq_some_iff.mp translated
  have wrapped := wrapInt32_double_of_short (size_lt_of_translate translated)
  subst equal
  exact ⟨wrapped, line, getElem?_lines_of_entries split,
    wellShaped_substitutionFor split hit⟩

/-- A rebuilt string with the copies that built it. -/
def SubstitutedFor
    (table : MappingTable) (dumped : Option Region)
    (string : Il2CppString) (substitution : Substitution) : Prop :=
  ∃ line, table.lines[substitution.currentLines]? = some line ∧
    WellShaped string line substitution ∧
    BuiltByTiles dumped string.size (replacement line).length substitution

/-- A call of each accessor returns, and every object the setter hands over or
the getter returns is built around a match by copies that tile it, and is well
shaped. -/
def SubstitutesWellShaped
    (table : MappingTable) (globals : Globals)
    (string : Il2CppString) (tail : Nat -> UInt8)
    (arg : UInt32) (arg1 : Option Region) (arg2 arg3 : UInt32) : Prop :=
  (∃ result, newFuncSet globals arg (some (readable (string.image tail))) arg2 arg3 =
      .ok result ∧
    ∀ substitution, result.substitution = some substitution ->
      result.calls = [⟨arg, .fresh substitution.pReturn, arg2, arg3⟩] ∧
      SubstitutedFor table (some (readable (string.image tail))) string substitution) ∧
  ∃ result, newFuncGet globals (some (readable (string.image tail))) arg arg1 arg2 arg3 =
      .ok result ∧
    ∀ substitution, result.substitution = some substitution ->
      result.returned = .fresh substitution.pReturn ∧
      SubstitutedFor table arg1 string substitution

/-- A walk that substitutes builds its object by copies that tile it. -/
theorem substitutedFor_of_walkTable
    {table : MappingTable} {endPointer : UInt32} {string : Il2CppString}
    {convertSize : Nat} {globals : Globals} {target : Region} {dumped : Option Region}
    {header middle : Bytes} {state : LoopState} {substitution : Substitution}
    (translated : translate table endPointer string = some substitution)
    (walked : walkTable convertSize globals target dumped
      (wrapInt32 (string.units.length * 2)) header middle = .ok state)
    (substituted : state.substitution = some substitution) :
    SubstitutedFor table dumped string substitution := by
  obtain ⟨wrapped, line, numbered, shaped⟩ := wellShaped_of_translate translated
  rw [wrapped] at walked
  refine ⟨line, numbered, shaped, ?_⟩
  exact (rebuilt_of_walkTable walked substituted).builtByTiles
    (by exact_mod_cast shaped.inside) shaped.block

/-- Every substitution of either accessor is well shaped and built by copies that
tile its object, for strings of any length. -/
theorem accessors_substituteWellShaped
    {table : MappingTable} {endPointer : UInt32} {globals : Globals}
    (ready : Ready table endPointer globals)
    (string : Il2CppString) (tail : Nat -> UInt8)
    (arg : UInt32) (arg1 : Option Region) (arg2 arg3 : UInt32)
    (dumpable : Dumpable arg1 string.size) :
    SubstitutesWellShaped table globals string tail arg arg1 arg2 arg3 := by
  constructor
  · obtain ⟨globalsAfter, -, returned⟩ := newFuncSet_ok ready arg arg2 arg3 string tail
    refine ⟨_, returned, fun substitution substituted => ?_⟩
    have translated : translate table endPointer string = some substitution := substituted
    rw [translated, newFuncSet_of_liesAt _ _ _ _ (string.liesAt_image tail)] at returned
    dsimp only at returned
    refine ⟨by simp only [translated, passedOn], ?_⟩
    split at returned
    case isTrue => cases returned
    case isFalse =>
      obtain ⟨state, walked, finished⟩ := bind_eq_ok.mp returned
      exact substitutedFor_of_walkTable translated walked
        (congrArg SetResult.substitution (Except.ok.inj finished))
  · obtain ⟨globalsAfter, -, returned⟩ :=
      newFuncGet_ok ready arg arg1 arg2 arg3 string tail dumpable
    refine ⟨_, returned, fun substitution substituted => ?_⟩
    have found : translateGet table endPointer arg string = some substitution := substituted
    rw [found, newFuncGet_of_liesAt _ _ _ _ _ (string.liesAt_image tail)] at returned
    dsimp only at returned
    refine ⟨by simp only [found, passedOn], ?_⟩
    split at returned
    case isTrue => cases returned
    case isFalse =>
      obtain ⟨state, walked, finished⟩ := bind_eq_ok.mp returned
      exact substitutedFor_of_walkTable (translate_of_translateGet found) walked
        (congrArg GetResult.substitution (Except.ok.inj finished))

/-- The string `ab`; the letters translate it to `ac`. -/
def twoLetters : Il2CppString := .ofUnits [0x61, 0x62] (by decide)

theorem accessors_substituteWellShaped_letters :
    translate .letters 0x10 twoLetters =
        some ⟨1, 2, 2, calloc 8 ++ [2, 0, 0, 0, 0x61, 0, 0x63, 0, 0, 0, 0, 0]⟩ ∧
      translateGet .letters 0x10 1 twoLetters = translate .letters 0x10 twoLetters ∧
      SubstitutesWellShaped .letters (afterStart .letters 0x10)
        twoLetters (fun _ => 0) 1 (some (regionOf (calloc 20))) 2 3 := by
  refine ⟨by decide +kernel, by decide +kernel, ?_⟩
  exact accessors_substituteWellShaped (ready_afterStart .letters 0x10)
    twoLetters (fun _ => 0) 1 (some (regionOf (calloc 20))) 2 3
    (by
      intro offset inside
      have size : twoLetters.size = 4 := rfl
      have bounded : offset < 20 := by
        rw [size, headerSize, endSize] at inside
        exact inside
      simp [regionOf, bounded])

end TextHook
end UnityLocalization
