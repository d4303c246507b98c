import UnityLocalization.Tools.ModuleSearch

/-!
# The address found in a list of modules

A listing has lines `start-end perms offset dev inode path`.  The search finds the
first line of an executable mapping of the library only where its pieces do not
mislead it.
-/

namespace UnityLocalization
namespace Tools

open CMemory BoundedLines

abbrev space : UInt8 := 0x20

/-- A number of one to eight hexadecimal digits. -/
structure HexWord where
  digits : Bytes
  digits_ne_nil : digits ≠ []
  digits_length : digits.length ≤ 8
  digits_hex : ∀ digit, digit ∈ digits -> (CMemory.hexDigit digit).isSome

def HexWord.value (word : HexWord) : UInt32 := UInt32.ofNat (leadingHex 0 word.digits)

/-- The permission field. -/
structure Permissions where
  read : Bool
  write : Bool
  execute : Bool
  shared : Bool
  deriving DecidableEq

def Permissions.text (permissions : Permissions) : Bytes :=
  [if permissions.read then 0x72 else dash, if permissions.write then 0x77 else dash,
    if permissions.execute then 0x78 else dash, if permissions.shared then 0x73 else 0x70]

/-- A byte of the fields `offset`, `dev` and `inode`. -/
def FieldByte (byte : UInt8) : Prop := (CMemory.hexDigit byte).isSome ∨ byte = 0x3A

/-- A line of the listing. -/
structure MapsLine where
  start : HexWord
  finish : HexWord
  permissions : Permissions
  offset : Bytes
  dev : Bytes
  inode : Bytes
  /-- How many more spaces than one stand before the path. -/
  padding : Nat
  path : Bytes
  offset_field : ∀ byte, byte ∈ offset -> FieldByte byte
  dev_field : ∀ byte, byte ∈ dev -> FieldByte byte
  inode_field : ∀ byte, byte ∈ inode -> FieldByte byte
  path_terminated : 0 ∉ path
  path_line : newline ∉ path

namespace MapsLine

/-- The fields behind the start address. -/
def fields (line : MapsLine) : Bytes :=
  line.finish.digits ++ space :: (line.permissions.text ++ space :: (line.offset ++
    space :: (line.dev ++ space :: (line.inode ++
      (List.replicate (line.padding + 1) space ++ line.path)))))

def text (line : MapsLine) : Bytes := line.start.digits ++ dash :: line.fields

/-- The line maps code of a file whose path contains the name. -/
def Matches (soName : Bytes) (line : MapsLine) : Prop :=
  line.permissions.text = codePermissions ∧ soName <:+: line.path

instance (soName : Bytes) (line : MapsLine) : Decidable (line.Matches soName) :=
  inferInstanceAs (Decidable (_ ∧ _))

/-- The first piece the line is read in. -/
def firstPiece (line : MapsLine) : Bytes :=
  (readPiece newline 255 (line.text ++ [newline])).1

/-- The pieces a long line has behind the first one. -/
def laterPieces (line : MapsLine) : List Bytes :=
  pieces newline 254 (readPiece newline 255 (line.text ++ [newline])).2

end MapsLine

/-- The text of the listing. -/
def renderMaps (lines : List MapsLine) : Bytes :=
  lines.flatMap fun line => line.text ++ [newline]

/-- The address looked for: the start of the first line that matches, or zero. -/
def moduleStart (soName : Bytes) (lines : List MapsLine) : UInt32 :=
  ((lines.find? fun line => line.Matches soName).map fun line => line.start.value).getD 0

/-- No piece of the lines passes. -/
def NonePass (soName : Bytes) (lines : List MapsLine) : Prop :=
  ∀ line, line ∈ lines ->
    ¬Passes soName line.firstPiece ∧
      ∀ piece, piece ∈ line.laterPieces -> ¬Passes soName piece

/-- The line is the first one that has a piece that passes. -/
def FirstPassing (soName : Bytes) (lines : List MapsLine) (line : MapsLine) : Prop :=
  ∃ before after, lines = before ++ line :: after ∧ NonePass soName before

/-- The pieces lead to the address: none passes and it is zero; the first that passes
is the start of a line that starts at the address; or it is a later piece of a long
line, and the number before its first `-` is the address. -/
inductive PointsTo (soName : Bytes) (lines : List MapsLine) (address : UInt32) : Prop
  | nothing
      (nonePass : NonePass soName lines)
      (zero : address = 0)
  | start (line : MapsLine)
      (first : FirstPassing soName lines line)
      (passes : Passes soName line.firstPiece)
      (value : line.start.value = address)
  | later (line : MapsLine) (piece : Bytes)
      (first : FirstPassing soName lines line)
      (passed : ¬Passes soName line.firstPiece)
      (found : (line.laterPieces.find? fun piece => Passes soName piece) = some piece)
      (number : addressIn piece = some address)

/-! ## Lines and their pieces -/

theorem HexWord.not_mem
    (word : HexWord) {byte : UInt8} (other : CMemory.hexDigit byte = none) :
    byte ∉ word.digits := by
  intro present
  have digit := word.digits_hex byte present
  rw [other] at digit
  cases digit

theorem not_mem_of_fieldByte
    {field : Bytes} (fieldBytes : ∀ byte, byte ∈ field -> FieldByte byte)
    {byte : UInt8} (other : CMemory.hexDigit byte = none) (notColon : byte ≠ 0x3A) :
    byte ∉ field := by
  intro present
  rcases fieldBytes byte present with digit | colon
  · rw [other] at digit
    cases digit
  · exact notColon colon

theorem Permissions.not_mem_text
    (permissions : Permissions) {byte : UInt8}
    (other : byte ∉ ([0x72, 0x77, 0x78, 0x73, 0x70, dash] : Bytes)) :
    byte ∉ permissions.text := by
  obtain ⟨read, write, execute, shared⟩ := permissions
  simp only [List.mem_cons, not_or] at other
  cases read <;> cases write <;> cases execute <;> cases shared <;>
    simp [Permissions.text, other]

namespace MapsLine

/-- A line break or a terminator does not stand in a line. -/
theorem not_mem_text
    (line : MapsLine) {byte : UInt8} (special : byte = 0 ∨ byte = newline) :
    byte ∉ line.text := by
  have inPath : byte ∉ line.path := by
    rcases special with rfl | rfl
    · exact line.path_terminated
    · exact line.path_line
  have other : CMemory.hexDigit byte = none := by rcases special with rfl | rfl <;> rfl
  have notColon : byte ≠ 0x3A := by rcases special with rfl | rfl <;> decide
  have notSpace : byte ≠ space := by rcases special with rfl | rfl <;> decide
  have notDash : byte ≠ dash := by rcases special with rfl | rfl <;> decide
  have inPermissions : byte ∉ line.permissions.text :=
    line.permissions.not_mem_text (by rcases special with rfl | rfl <;> decide)
  simp [text, fields, inPath, inPermissions, notSpace, notDash,
    line.start.not_mem other, line.finish.not_mem other,
    not_mem_of_fieldByte line.offset_field other notColon,
    not_mem_of_fieldByte line.dev_field other notColon,
    not_mem_of_fieldByte line.inode_field other notColon]

theorem pieces_eq (line : MapsLine) :
    pieces newline 254 (line.text ++ [newline]) = line.firstPiece :: line.laterPieces :=
  pieces_of_ne_nil newline 254 (by simp)

/-- The first piece holds the start address and the `-` behind it. -/
theorem addressIn_firstPiece (line : MapsLine) :
    addressIn line.firstPiece = some line.start.value := by
  have short := line.start.digits_length
  have undashed : dash ∉ line.start.digits := line.start.not_mem rfl
  have headLine : newline ∉ line.start.digits ++ [dash] := by
    simp [line.start.not_mem (show CMemory.hexDigit newline = none from rfl),
      show newline ≠ dash by decide]
  have whole : line.text ++ [newline] =
      (line.start.digits ++ [dash]) ++ (line.fields ++ [newline]) := by
    simp [text]
  have starts := readPiece_fst_append newline headLine
    (show (line.start.digits ++ [dash]).length ≤ 255 by simp; omega)
    (line.fields ++ [newline])
  rw [← whole, List.append_assoc, List.singleton_append] at starts
  have bounded : leadingHex 0 line.start.digits ≤ 4294967295 := by
    have digits := leadingHex_lt 0 line.start.digits
    have size : 16 ^ line.start.digits.length ≤ 16 ^ 8 :=
      Nat.pow_le_pow_right (by decide) short
    omega
  rw [addressIn, firstPiece, starts, beforeDash_append _ undashed, if_pos (by omega),
    Nat.min_eq_left bounded]
  rfl

end MapsLine

/-! ## The address found -/

/-- The first of the line's pieces that passes. -/
def MapsLine.passing (soName : Bytes) (line : MapsLine) : Option Bytes :=
  (line.firstPiece :: line.laterPieces).find? fun piece => Passes soName piece

theorem nonePass_iff {soName : Bytes} {lines : List MapsLine} :
    NonePass soName lines ↔ ∀ line, line ∈ lines -> line.passing soName = none := by
  simp [NonePass, MapsLine.passing]

/-- The first piece that passes stands in the first line that has one. -/
theorem findSome?_passing_eq_some_iff
    {soName piece : Bytes} {lines : List MapsLine} :
    lines.findSome? (MapsLine.passing soName) = some piece ↔
      ∃ line, FirstPassing soName lines line ∧ line.passing soName = some piece := by
  rw [List.findSome?_eq_some_iff]
  constructor
  · rintro ⟨before, line, after, split, found, none⟩
    exact ⟨line, ⟨before, after, split, nonePass_iff.mpr none⟩, found⟩
  · rintro ⟨line, ⟨before, after, split, none⟩, found⟩
    exact ⟨before, line, after, split, found, nonePass_iff.mp none⟩

theorem pointsTo_iff {soName : Bytes} {lines : List MapsLine} {address : UInt32} :
    PointsTo soName lines address ↔
      (lines.findSome? (MapsLine.passing soName)).elim (address = 0) fun piece =>
        addressIn piece = some address := by
  constructor
  · intro pointsTo
    cases pointsTo with
    | nothing none zero =>
        rw [List.findSome?_eq_none_iff.mpr (nonePass_iff.mp none)]
        exact zero
    | start line first passes value =>
        have found : line.passing soName = some line.firstPiece := by
          simp [MapsLine.passing, passes]
        rw [findSome?_passing_eq_some_iff.mpr ⟨line, first, found⟩, Option.elim_some,
          line.addressIn_firstPiece, value]
    | later line piece first passed found number =>
        have here : line.passing soName = some piece := by
          simpa [MapsLine.passing, passed] using found
        rw [findSome?_passing_eq_some_iff.mpr ⟨line, first, here⟩]
        exact number
  · intro read
    cases found : lines.findSome? (MapsLine.passing soName) with
    | none =>
        rw [found] at read
        exact .nothing (nonePass_iff.mpr (List.findSome?_eq_none_iff.mp found)) read
    | some piece =>
        rw [found, Option.elim_some] at read
        obtain ⟨line, first, here⟩ := findSome?_passing_eq_some_iff.mp found
        by_cases passes : Passes soName line.firstPiece
        · rw [MapsLine.passing, List.find?_cons_of_pos (by simpa using passes)] at here
          cases here
          rw [line.addressIn_firstPiece] at read
          exact .start line first passes (Option.some.inj read)
        · rw [MapsLine.passing, List.find?_cons_of_neg (by simpa using passes)] at here
          exact .later line piece first passes here read

/-- The search returns the address the pieces lead to. -/
theorem findModuleByName_eq_ok_iff
    {soName cmdline num : Bytes} (lines : List MapsLine) (address : UInt32)
    (cmdlineSize : cmdline.length = 256) (numSize : num.length = 32) (clean : 0 ∉ soName) :
    findModuleByName soName cmdline num (some (renderMaps lines)) = .ok address ↔
      PointsTo soName lines address := by
  have terminated : 0 ∉ renderMaps lines := by
    simp only [renderMaps, List.mem_flatMap, List.mem_append, not_exists, not_and, not_or]
    exact fun line _ => ⟨line.not_mem_text (.inl rfl), by decide⟩
  have lineByLine := pieces_lines newline 254 (lines.map MapsLine.text) (by
    simpa using fun line _ => line.not_mem_text (.inr rfl))
  have read : pieces newline 254 (renderMaps lines) =
      lines.flatMap fun line => line.firstPiece :: line.laterPieces := by
    simpa [renderMaps, List.flatMap_map, MapsLine.pieces_eq] using lineByLine
  have searched : ((pieces newline 254 (renderMaps lines)).find? fun piece =>
      Passes soName piece) = lines.findSome? (MapsLine.passing soName) := by
    rw [read, List.find?_flatMap]
    rfl
  rw [findModuleByName, findModuleLoop_eq cmdlineSize numSize clean terminated, searched,
    pointsTo_iff]
  cases lines.findSome? (MapsLine.passing soName) with
  | none => simp [eq_comm]
  | some piece =>
      rw [Option.elim_some, Option.elim_some, readOutcome]
      cases addressIn piece <;> simp

/-- The search finds the address looked for exactly if the pieces lead to it. -/
theorem findModuleByName_finds_iff
    {soName cmdline num : Bytes} (lines : List MapsLine)
    (cmdlineSize : cmdline.length = 256) (numSize : num.length = 32) (clean : 0 ∉ soName) :
    findModuleByName soName cmdline num (some (renderMaps lines)) =
        .ok (moduleStart soName lines) ↔
      PointsTo soName lines (moduleStart soName lines) :=
  findModuleByName_eq_ok_iff lines _ cmdlineSize numSize clean

/-- `libil2cpp.so` -/
def libName : Bytes :=
  [0x6C, 0x69, 0x62, 0x69, 0x6C, 0x32, 0x63, 0x70, 0x70, 0x2E, 0x73, 0x6F]

/-- A data mapping of `/r-xp/libil2cpp.so` from 10 to 20. -/
def misleadingLine : MapsLine where
  start := ⟨[0x31, 0x30], by decide, by decide, by simp [CMemory.hexDigit]⟩
  finish := ⟨[0x32, 0x30], by decide, by decide, by simp [CMemory.hexDigit]⟩
  permissions := ⟨true, false, false, false⟩
  offset := [0x30]
  dev := [0x30, 0x3A, 0x30]
  inode := [0x30]
  padding := 0
  path := [0x2F, 0x72, 0x2D, 0x78, 0x70, 0x2F] ++ libName
  offset_field := by simp [FieldByte, CMemory.hexDigit]
  dev_field := by simp [FieldByte, CMemory.hexDigit]
  inode_field := by simp [FieldByte, CMemory.hexDigit]
  path_terminated := by decide
  path_line := by decide

/-- The line `10-20 r--p 0 0:0 0 /libil2cpp.so`. -/
def dataLine : MapsLine :=
  { misleadingLine with
    path := 0x2F :: libName
    path_terminated := by decide
    path_line := by decide }

/-- The line `20-30 r-xp 0 0:0 0 /libil2cpp.so`. -/
def codeLine : MapsLine :=
  { dataLine with
    start := dataLine.finish
    finish := ⟨[0x33, 0x30], by decide, by decide, by simp [CMemory.hexDigit]⟩
    permissions := ⟨true, false, true, false⟩ }

/-- The code is found behind the data of the same library. -/
theorem findModuleByName_finds_iff_codeLine :
    moduleStart libName [dataLine, codeLine] = 0x20 ∧
      findModuleByName libName (calloc 256) (calloc 32)
          (some (renderMaps [dataLine, codeLine])) =
        .ok (moduleStart libName [dataLine, codeLine]) := by
  have passed : NonePass libName [dataLine] := by
    intro line present
    rw [List.mem_singleton.mp present]
    decide +kernel
  refine ⟨by decide +kernel, ?_⟩
  refine (findModuleByName_finds_iff [dataLine, codeLine] (length_calloc 256)
    (length_calloc 32) (by decide)).mpr ?_
  exact .start codeLine ⟨[dataLine], [], rfl, passed⟩ (by decide +kernel)
    (by decide +kernel)

/-- The data mapping is taken for code, as its path has `r-xp`. -/
theorem findModuleByName_misled :
    ¬findModuleByName libName (calloc 256) (calloc 32)
        (some (renderMaps [misleadingLine])) =
      .ok (moduleStart libName [misleadingLine]) := by
  have start : PointsTo libName [misleadingLine] 0x10 :=
    .start misleadingLine ⟨[], [], rfl, by simp [NonePass]⟩ (by decide +kernel)
      (by decide +kernel)
  have found := (findModuleByName_eq_ok_iff [misleadingLine] 0x10 (length_calloc 256)
    (length_calloc 32) (by decide)).mpr start
  rw [found]
  decide +kernel

/-! ## Ordinary listings -/

namespace MapsLine

/-- A needle without spaces that reaches the path from the padding stands in the
path. -/
theorem infix_padding
    {needle inode path : Bytes} (spaceless : space ∉ needle) (padding : Nat)
    (found : needle <:+: inode ++ (List.replicate (padding + 1) space ++ path)) :
    needle <:+: inode ∨ needle <:+: path := by
  induction padding generalizing inode with
  | zero => exact infix_append_cons spaceless found
  | succ padding inductionHypothesis =>
      rw [List.replicate_succ, List.cons_append] at found
      rcases infix_append_cons spaceless found with inside | later
      · exact .inl inside
      · have fromEmpty : needle <:+: [] ++ (List.replicate (padding + 1) space ++ path) :=
          later
        rcases inductionHypothesis fromEmpty with empty | inPath
        · exact .inl (List.infix_nil.mp empty ▸ List.nil_infix)
        · exact .inr inPath

/-- A needle without spaces and line breaks stands in one field of the line. -/
theorem infix_field
    (line : MapsLine) {needle : Bytes} (spaceless : space ∉ needle)
    (oneLine : newline ∉ needle) (found : needle <:+: line.text ++ [newline]) :
    needle <:+: line.start.digits ++ dash :: line.finish.digits ∨
      needle <:+: line.permissions.text ∨
      (needle <:+: line.offset ∨ needle <:+: line.dev ∨ needle <:+: line.inode) ∨
      needle <:+: line.path := by
  have inText : needle <:+: line.text := by
    rcases infix_append_cons oneLine found with inside | behind
    · exact inside
    · exact List.infix_nil.mp behind ▸ List.nil_infix
  have split : line.text = (line.start.digits ++ dash :: line.finish.digits) ++
      space :: (line.permissions.text ++ space :: (line.offset ++ space :: (line.dev ++
        space :: (line.inode ++
          (List.replicate (line.padding + 1) space ++ line.path))))) := by
    simp [text, fields]
  rw [split] at inText
  rcases infix_append_cons spaceless inText with addresses | inText
  · exact .inl addresses
  rcases infix_append_cons spaceless inText with permissions | inText
  · exact .inr (.inl permissions)
  rcases infix_append_cons spaceless inText with offset | inText
  · exact .inr (.inr (.inl (.inl offset)))
  rcases infix_append_cons spaceless inText with dev | inText
  · exact .inr (.inr (.inl (.inr (.inl dev))))
  rcases infix_padding spaceless _ inText with inode | path
  · exact .inr (.inr (.inl (.inr (.inr inode))))
  · exact .inr (.inr (.inr path))

theorem path_infix (line : MapsLine) : line.path <:+: line.text ++ [newline] :=
  ⟨line.start.digits ++ dash :: (line.finish.digits ++ space ::
    (line.permissions.text ++ space :: (line.offset ++ space :: (line.dev ++ space ::
      (line.inode ++ List.replicate (line.padding + 1) space))))), [newline],
    by simp [text, fields]⟩

theorem permissions_infix (line : MapsLine) :
    line.permissions.text <:+: line.text ++ [newline] :=
  ⟨line.start.digits ++ dash :: (line.finish.digits ++ [space]),
    space :: (line.offset ++ space :: (line.dev ++ space :: (line.inode ++
      (List.replicate (line.padding + 1) space ++ line.path)))) ++ [newline],
    by simp [text, fields]⟩

/-- The permissions stand in their field only, if not in the path. -/
theorem permissions_eq_of_infix
    (line : MapsLine) (plainPath : ¬codePermissions <:+: line.path)
    (found : codePermissions <:+: line.text ++ [newline]) :
    line.permissions.text = codePermissions := by
  have letter : (0x72 : UInt8) ∈ codePermissions := by decide
  have notDigit : CMemory.hexDigit 0x72 = none := by decide
  rcases line.infix_field (by decide) (by decide) found with
    addresses | permissions | fields | path
  · have present := addresses.subset letter
    simp [line.start.not_mem notDigit, line.finish.not_mem notDigit,
      show (0x72 : UInt8) ≠ dash by decide] at present
  · exact (permissions.eq_of_length rfl).symm
  · have notColon : (0x72 : UInt8) ≠ 0x3A := by decide
    rcases fields with offset | dev | inode
    · exact absurd (offset.subset letter)
        (not_mem_of_fieldByte line.offset_field notDigit notColon)
    · exact absurd (dev.subset letter)
        (not_mem_of_fieldByte line.dev_field notDigit notColon)
    · exact absurd (inode.subset letter)
        (not_mem_of_fieldByte line.inode_field notDigit notColon)
  · exact absurd path plainPath

end MapsLine

/-- A byte that stands neither in the addresses and permissions nor in the fields
behind them. -/
def PathByte (byte : UInt8) : Prop :=
  CMemory.hexDigit byte = none ∧ byte ∉ ([0x3A, 0x72, 0x77, 0x78, 0x73, 0x70, dash] : Bytes)

/-- A name with a byte of paths stands in the path only. -/
theorem MapsLine.name_infix_path
    (line : MapsLine) {soName : Bytes} (spaceless : space ∉ soName)
    (oneLine : newline ∉ soName) {byte : UInt8} (present : byte ∈ soName)
    (special : PathByte byte) (found : soName <:+: line.text ++ [newline]) :
    soName <:+: line.path := by
  obtain ⟨notDigit, other⟩ := special
  rw [List.mem_cons, not_or] at other
  obtain ⟨notColon, notLetter⟩ := other
  rcases line.infix_field spaceless oneLine found with
    addresses | permissions | fields | path
  · have inAddresses := addresses.subset present
    have notDash : byte ≠ dash := by
      rintro rfl
      exact notLetter (by decide)
    simp [line.start.not_mem notDigit, line.finish.not_mem notDigit, notDash] at inAddresses
  · exact absurd (permissions.subset present) (line.permissions.not_mem_text notLetter)
  · rcases fields with offset | dev | inode
    · exact absurd (offset.subset present)
        (not_mem_of_fieldByte line.offset_field notDigit notColon)
    · exact absurd (dev.subset present)
        (not_mem_of_fieldByte line.dev_field notDigit notColon)
    · exact absurd (inode.subset present)
        (not_mem_of_fieldByte line.inode_field notDigit notColon)
  · exact path

/-- The line is read in one piece, and its path does not look like permissions. -/
structure Ordinary (line : MapsLine) : Prop where
  short : line.text.length ≤ 254
  plainPath : ¬codePermissions <:+: line.path

theorem Ordinary.pieces
    {line : MapsLine} (ordinary : Ordinary line) :
    line.firstPiece = line.text ++ [newline] ∧ line.laterPieces = [] := by
  have read := readPiece_of_le newline (line.not_mem_text (.inr rfl))
    (Nat.lt_succ_of_le ordinary.short) []
  constructor
  · rw [MapsLine.firstPiece, read]
  · rw [MapsLine.laterPieces, read, pieces_nil]

/-- The only piece of an ordinary line passes exactly if the line matches. -/
theorem Ordinary.passing_eq
    {line : MapsLine} (ordinary : Ordinary line) {soName : Bytes}
    (spaceless : space ∉ soName) (oneLine : newline ∉ soName) {byte : UInt8}
    (present : byte ∈ soName) (special : PathByte byte) :
    line.passing soName =
      if line.Matches soName then some line.firstPiece else none := by
  obtain ⟨piece, noMore⟩ := ordinary.pieces
  have agrees : Passes soName (line.text ++ [newline]) ↔ line.Matches soName := by
    constructor
    · rintro ⟨name, permissions⟩
      exact ⟨line.permissions_eq_of_infix ordinary.plainPath permissions,
        line.name_infix_path spaceless oneLine present special name⟩
    · rintro ⟨permissions, name⟩
      exact ⟨name.trans line.path_infix, permissions ▸ line.permissions_infix⟩
  rw [MapsLine.passing, piece, noMore]
  by_cases hit : line.Matches soName
  · rw [if_pos hit, List.find?_cons_of_pos (by simpa using agrees.mpr hit)]
  · rw [if_neg hit,
      List.find?_cons_of_neg (by simpa using fun passes => hit (agrees.mp passes))]
    rfl

theorem moduleStart_cons (soName : Bytes) (line : MapsLine) (lines : List MapsLine) :
    moduleStart soName (line :: lines) =
      if line.Matches soName then line.start.value else moduleStart soName lines := by
  by_cases hit : line.Matches soName <;> simp [moduleStart, hit]

/-- On ordinary lines the search finds a library whose name has a byte of paths. -/
theorem findModuleByName_ordinary
    {soName cmdline num : Bytes} {lines : List MapsLine}
    (cmdlineSize : cmdline.length = 256) (numSize : num.length = 32) (clean : 0 ∉ soName)
    (ordinary : ∀ line, line ∈ lines -> Ordinary line)
    (spaceless : space ∉ soName) (oneLine : newline ∉ soName) {byte : UInt8}
    (present : byte ∈ soName) (special : PathByte byte) :
    findModuleByName soName cmdline num (some (renderMaps lines)) =
      .ok (moduleStart soName lines) := by
  rw [findModuleByName_eq_ok_iff lines _ cmdlineSize numSize clean, pointsTo_iff]
  induction lines with
  | nil => rfl
  | cons line lines inductionHypothesis =>
      obtain ⟨here, later⟩ := List.forall_mem_cons.mp ordinary
      rw [List.findSome?_cons, here.passing_eq spaceless oneLine present special,
        moduleStart_cons]
      by_cases hit : line.Matches soName
      · rw [if_pos hit, if_pos hit]
        exact line.addressIn_firstPiece
      · rw [if_neg hit, if_neg hit]
        exact inductionHypothesis later

end Tools
end UnityLocalization
