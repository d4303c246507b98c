import UnityLocalization.Device.Environment
import Mathlib.Data.List.TakeWhile

/-!
# The identifier of a device

`getDeviceId` asks one source after the other and falls back on an identifier it
has made up and keeps in a file of the external storage.  The file is also the first
source it asks, so a second call sees what the first one left there.
-/

namespace UnityLocalization
namespace Device

open JavaText

/-- The content of the file, nothing where it does not exist. -/
abbrev File := Option JavaString

def hexChar (digit : Fin 16) : Char :=
  ['0', '1', '2', '3', '4', '5', '6', '7', '8', '9', 'a', 'b', 'c', 'd', 'e', 'f'].get digit

/-- The 32 digits of a randomly generated UUID.  The thirteenth is its version. -/
structure RandomUuid where
  digits : List (Fin 16)
  size : digits.length = 32
  version : digits[12]? = some 4

/-- `UUID.toString` -/
def RandomUuid.toString (uuid : RandomUuid) : JavaString :=
  let digits := uuid.digits.map hexChar
  digits.take 8 ++ '-' :: (digits.drop 8).take 4 ++ '-' :: (digits.drop 12).take 4 ++
    '-' :: (digits.drop 16).take 4 ++ '-' :: digits.drop 20

section

variable (platform : Platform) (context : Option Context)

/-- Opening, reading and closing of the file, as both functions do it. -/
def readFirstLine (content : JavaString) : Except IOException (Option JavaString) := do
  platform.storage.openReader
  platform.storage.readLine
  platform.storage.closeReader
  return firstLine content

def readIMEIFromExternalDir (file : File) : JavaString :=
  if !checkPermission platform context .readExternalStorage then []
  else
    match file with
    | none => []
    | some content =>
        match readFirstLine platform content with
        | .ok readLine => if !isEmpty readLine then readLine.getD [] else []
        | .error _ => []

/-- The second half of `getUUIDFromExternalDir`: make up an identifier and save it. -/
def createUuid (randomUuid : RandomUuid) (file : File) : JavaString × File :=
  if !checkPermission platform context .writeExternalStorage then ([], file)
  else
    match if file.isNone then platform.storage.createNewFile else .ok true with
    | .error _ => ([], file)
    | .ok false => ([], file)
    | .ok true =>
        let replace := without '-' randomUuid.toString
        match platform.storage.openWriter with
        | .error _ => ([], some (file.getD []))
        | .ok _ =>
            -- the writer has emptied the file
            match platform.storage.write with
            | .error _ => ([], some [])
            | .ok _ =>
                match platform.storage.flush with
                | .error count => ([], some (replace.take count))
                | .ok _ =>
                    match platform.storage.closeWriter with
                    | .error _ => ([], some replace)
                    | .ok _ => (replace, some replace)

def getUUIDFromExternalDir (randomUuid : RandomUuid) (file : File) : JavaString × File :=
  if !checkPermission platform context .readExternalStorage then ([], file)
  else
    match file with
    | none => createUuid platform context randomUuid file
    | some content =>
        match readFirstLine platform content with
        | .error _ => ([], file)
        | .ok readLine =>
            if !isEmpty readLine then (readLine.getD [], file)
            else createUuid platform context randomUuid file

/-- `"000000000000000"` -/
def noIdentifier : JavaString := List.replicate 15 '0'

/-- The `try` block of `getDeviceId`: the identifier and the file afterwards. -/
def tryDeviceId (randomUuid : RandomUuid) (file : File) : Outcome (JavaString × File) := do
  let readIMEIFromExternalDir := readIMEIFromExternalDir platform context file
  if unusable (some readIMEIFromExternalDir) then
    let imeiOrMeid ← getImeiOrMeid platform context
    if unusable imeiOrMeid then
      let androidId ← getAndroidId platform context
      if !isEmpty androidId then
        return (androidId.getD [], file)
      else
        let mac ← getMac platform context
        if unusable mac then
          let (uUIDFromExternalDir, file) :=
            getUUIDFromExternalDir platform context randomUuid file
          if isEmpty (some uUIDFromExternalDir) then return (noIdentifier, file)
          else return (uUIDFromExternalDir, file)
        else return (without ':' (mac.getD []), file)
    else return (imeiOrMeid.getD [], file)
  else return (readIMEIFromExternalDir, file)

/-- An exception of the `try` block is logged with its message, and logging null
throws. -/
def getDeviceId (randomUuid : RandomUuid) (file : File) : Outcome JavaString × File :=
  match tryDeviceId platform context randomUuid file with
  | .ok (identifier, file) => (.ok identifier, file)
  | .error e =>
      match e.getMessage with
      | none => (.error platform.nullPointerException, file)
      | some _ => (.ok noIdentifier, file)

end

/-! ## Made up identifiers -/

theorem hexChar_facts : ∀ digit : Fin 16,
    hexChar digit ≠ '-' ∧ hexChar digit ≠ '\n' ∧ hexChar digit ≠ '\r' ∧
      hexChar digit ≠ 'u' := by
  decide

/-- Without its hyphens the text of a UUID consists of its digits. -/
theorem without_hyphens (uuid : RandomUuid) :
    without '-' uuid.toString = uuid.digits.map hexChar := by
  have groups (digits : JavaString) :
      digits.take 8 ++ (digits.drop 8).take 4 ++ (digits.drop 12).take 4 ++
        (digits.drop 16).take 4 ++ digits.drop 20 = digits := by
    rw [← List.take_add, ← List.take_add, ← List.take_add, List.take_append_drop]
  have kept : (uuid.digits.map hexChar).filter (· ≠ '-') = uuid.digits.map hexChar := by
    apply List.filter_eq_self.mpr
    intro c present
    obtain ⟨digit, -, rfl⟩ := List.mem_map.mp present
    simpa using (hexChar_facts digit).1
  have joined := congrArg (List.filter (· ≠ '-')) (groups (uuid.digits.map hexChar))
  rw [kept] at joined
  rw [← joined]
  simp [without, RandomUuid.toString]

/-- A text that can be told from no identifier, from the placeholder and from a text of
several lines. -/
structure Telling (text : JavaString) : Prop where
  nonempty : text ≠ []
  oneLine : firstLine text = some text
  ne_unknown : text ≠ unknown
  ne_noIdentifier : text ≠ noIdentifier

/-- What a failing `flush` leaves of an identifier is telling as well. -/
theorem telling_take (uuid : RandomUuid) {count : Nat} (positive : count ≠ 0) :
    Telling ((uuid.digits.map hexChar).take count) := by
  have hex {c : Char} (present : c ∈ (uuid.digits.map hexChar).take count) :
      ∃ digit, hexChar digit = c := by
    obtain ⟨digit, -, same⟩ := List.mem_map.mp (List.mem_of_mem_take present)
    exact ⟨digit, same⟩
  have size : ((uuid.digits.map hexChar).take count).length = min count 32 := by
    rw [List.length_take, List.length_map, uuid.size]
  have nonempty : (uuid.digits.map hexChar).take count ≠ [] :=
    List.ne_nil_of_length_pos (by omega)
  refine ⟨nonempty, ?_, fun same => ?_, fun same => ?_⟩
  · rw [firstLine, if_neg nonempty, List.takeWhile_eq_self_iff.mpr]
    intro c present
    obtain ⟨digit, rfl⟩ := hex present
    simpa using ⟨(hexChar_facts digit).2.1, (hexChar_facts digit).2.2.1⟩
  · obtain ⟨digit, isU⟩ := hex (same ▸ show 'u' ∈ unknown by decide)
    exact (hexChar_facts digit).2.2.2 isU
  · -- the version digit is not zero
    have long : count ≥ 15 := by
      have lengths := congrArg List.length same
      rw [size] at lengths
      simp only [noIdentifier, List.length_replicate] at lengths
      omega
    have version := congrArg (fun text => text[12]?) same
    simp only [List.getElem?_take_of_lt (show 12 < count by omega), List.getElem?_map,
      uuid.version] at version
    exact absurd version (by decide)

theorem telling_uuid (uuid : RandomUuid) : Telling (uuid.digits.map hexChar) := by
  have whole := telling_take uuid (show 32 ≠ 0 by decide)
  rwa [List.take_of_length_le (by rw [List.length_map, uuid.size])] at whole

/-! ## The first source with an answer -/

inductive Answer
  | imeiOrMeid (identifier : JavaString)
  | androidId (identifier : JavaString)
  | mac (address : JavaString)
  | exception (e : JavaException)
  | none

section

variable (platform : Platform) (context : Option Context)

/-- What the sources other than the file answer. -/
def sourceAnswer : Answer :=
  match getImeiOrMeid platform context with
  | .error e => .exception e
  | .ok imeiOrMeid =>
      if !unusable imeiOrMeid then .imeiOrMeid (imeiOrMeid.getD [])
      else
        match getAndroidId platform context with
        | .error e => .exception e
        | .ok androidId =>
            if !isEmpty androidId then .androidId (androidId.getD [])
            else
              match getMac platform context with
              | .error e => .exception e
              | .ok mac => if !unusable mac then .mac (mac.getD []) else .none

/-- The result of `getDeviceId` where the file has no usable line. -/
def Answer.result (randomUuid : RandomUuid) (file : File) : Answer -> Outcome JavaString × File
  | .imeiOrMeid identifier => (.ok identifier, file)
  | .androidId identifier => (.ok identifier, file)
  | .mac address => (.ok (without ':' address), file)
  | .exception e =>
      match e.getMessage with
      | Option.none => (.error platform.nullPointerException, file)
      | some _ => (.ok noIdentifier, file)
  | .none =>
      let saved := getUUIDFromExternalDir platform context randomUuid file
      (.ok (if saved.1 = [] then noIdentifier else saved.1), saved.2)

theorem getDeviceId_eq (randomUuid : RandomUuid) (file : File) :
    getDeviceId platform context randomUuid file =
      if unusable (some (readIMEIFromExternalDir platform context file)) then
        (sourceAnswer platform context).result platform context randomUuid file
      else (.ok (readIMEIFromExternalDir platform context file), file) := by
  rw [getDeviceId, tryDeviceId, sourceAnswer]
  by_cases stored : unusable (some (readIMEIFromExternalDir platform context file)) = true
  · rw [if_pos stored, if_pos stored]
    cases getImeiOrMeid platform context with
    | error e => rfl
    | ok imeiOrMeid =>
        cases phone : unusable imeiOrMeid with
        | false => simp [phone, Answer.result]
        | true =>
            cases getAndroidId platform context with
            | error e => simp [phone, Answer.result]
            | ok androidId =>
                cases android : isEmpty androidId with
                | false => simp [phone, android, Answer.result]
                | true =>
                    cases getMac platform context with
                    | error e => simp [phone, android, Answer.result]
                    | ok mac =>
                        cases address : unusable mac with
                        | false => simp [phone, android, address, Answer.result]
                        | true =>
                            by_cases empty : (getUUIDFromExternalDir platform context
                              randomUuid file).1 = [] <;>
                              simp [phone, android, address, empty, Answer.result]
  · rw [if_neg stored, if_neg stored]
    rfl

end

/-- What `getDeviceId` has tested an answer for. -/
def Answer.Tested : Answer -> Prop
  | .imeiOrMeid identifier => identifier ≠ [] ∧ identifier ≠ unknown
  | .androidId identifier => identifier ≠ []
  | .mac address => address ≠ [] ∧ address ≠ unknown
  | .exception _ => True
  | .none => True

theorem usable_getD
    {text : Option JavaString} (usable : unusable text = false) :
    text.getD [] ≠ [] ∧ text.getD [] ≠ unknown := by
  cases text with
  | none => cases usable
  | some text =>
      rw [← Bool.not_eq_true, unusable_some_iff, not_or] at usable
      exact usable

theorem sourceAnswer_tested (platform : Platform) (context : Option Context) :
    (sourceAnswer platform context).Tested := by
  rw [sourceAnswer]
  cases getImeiOrMeid platform context with
  | error e => trivial
  | ok imeiOrMeid =>
      cases phone : unusable imeiOrMeid with
      | false =>
          simp only [phone, Bool.not_false, if_true]
          exact usable_getD phone
      | true =>
          cases getAndroidId platform context with
          | error e => simp [phone, Answer.Tested]
          | ok androidId =>
              cases android : isEmpty androidId with
              | false =>
                  have nonempty : androidId.getD [] ≠ [] := by simpa [isEmpty] using android
                  simp only [phone, android, Bool.not_true, Bool.false_eq_true, if_false,
                    Bool.not_false, if_true]
                  exact nonempty
              | true =>
                  cases getMac platform context with
                  | error e => simp [phone, android, Answer.Tested]
                  | ok mac =>
                      cases address : unusable mac with
                      | false =>
                          simp only [phone, android, address, Bool.not_true,
                            Bool.false_eq_true, if_false, Bool.not_false, if_true]
                          exact usable_getD address
                      | true => simp [phone, android, address, Answer.Tested]

/-! ## What the file tells the second call -/

/-- Opening, reading and closing the file succeed. -/
def Storage.Readable (storage : Storage) : Prop :=
  storage.openReader = .ok () ∧ storage.readLine = .ok () ∧ storage.closeReader = .ok ()

/-- Some characters of an identifier reach the file. -/
def Storage.Reaches (storage : Storage) : Prop :=
  storage.openWriter = .ok () ∧ storage.write = .ok () ∧ storage.flush ≠ .error 0

/-- Opening, writing and closing the file succeed. -/
def Storage.Completes (storage : Storage) : Prop :=
  storage.openWriter = .ok () ∧ storage.write = .ok () ∧ storage.flush = .ok () ∧
    storage.closeWriter = .ok ()

instance (storage : Storage) : Decidable storage.Readable :=
  inferInstanceAs (Decidable (_ ∧ _))

instance (storage : Storage) : Decidable storage.Reaches :=
  inferInstanceAs (Decidable (_ ∧ _))

instance (storage : Storage) : Decidable storage.Completes :=
  inferInstanceAs (Decidable (_ ∧ _))

theorem Storage.Completes.reaches {storage : Storage} (completes : storage.Completes) :
    storage.Reaches := by
  obtain ⟨opened, written, flushed, -⟩ := completes
  refine ⟨opened, written, ?_⟩
  rw [flushed]
  exact fun same => by cases same

section

variable {platform : Platform} {context : Option Context}

theorem readFirstLine_of_readable (readable : platform.storage.Readable)
    (content : JavaString) :
    readFirstLine platform content = .ok (firstLine content) := by
  obtain ⟨opened, read, closed⟩ := readable
  rw [readFirstLine, opened, read, closed]
  rfl

theorem readFirstLine_of_not_readable (unreadable : ¬platform.storage.Readable)
    (content : JavaString) :
    readFirstLine platform content = .error {} := by
  rw [readFirstLine]
  cases opened : platform.storage.openReader with
  | error e => rfl
  | ok _ =>
      cases read : platform.storage.readLine with
      | error e => rfl
      | ok _ =>
          cases closed : platform.storage.closeReader with
          | error e => rfl
          | ok _ => exact absurd ⟨opened, read, closed⟩ unreadable

theorem readIMEIFromExternalDir_of_readable
    (granted : checkPermission platform context .readExternalStorage = true)
    (readable : platform.storage.Readable) (content : JavaString) :
    readIMEIFromExternalDir platform context (some content) =
      (firstLine content).getD [] := by
  simp only [readIMEIFromExternalDir, granted, readFirstLine_of_readable readable]
  cases first : firstLine content with
  | none => rfl
  | some line => cases line <;> rfl

/-- Making up an identifier leaves a telling text, if any. -/
theorem createUuid_granted
    {file : File} (randomUuid : RandomUuid)
    (granted : checkPermission platform context .writeExternalStorage = true)
    (created : file = none -> platform.storage.createNewFile = .ok true)
    (blank : isEmpty (firstLine (file.getD [])) = true) :
    ∃ left,
      createUuid platform context randomUuid file =
        (if platform.storage.Completes then left else [], some left) ∧
      (platform.storage.Reaches -> Telling left) ∧
      (¬platform.storage.Reaches -> isEmpty (firstLine left) = true) := by
  have exists_file :
      (if file.isNone then platform.storage.createNewFile else .ok true) =
        (.ok true : Except IOException Bool) := by
    cases file with
    | none => exact created rfl
    | some content => rfl
  simp only [createUuid, granted, Bool.not_true, Bool.false_eq_true, if_false, exists_file,
    without_hyphens]
  cases opened : platform.storage.openWriter with
  | error e =>
      refine ⟨file.getD [], ?_, ?_, fun _ => blank⟩ <;>
        simp [Storage.Completes, Storage.Reaches, opened]
  | ok _ =>
      cases written : platform.storage.write with
      | error e =>
          refine ⟨[], ?_, ?_, fun _ => rfl⟩ <;>
            simp [Storage.Completes, Storage.Reaches, written]
      | ok _ =>
          cases flushed : platform.storage.flush with
          | error count =>
              refine ⟨(randomUuid.digits.map hexChar).take count, ?_, ?_, ?_⟩
              · simp [Storage.Completes, flushed]
              · intro reaches
                refine telling_take randomUuid fun zero => ?_
                exact reaches.2.2 (by rw [flushed, zero])
              · intro stuck
                have zero : count = 0 := by
                  by_contra positive
                  exact stuck ⟨opened, written, by rw [flushed]; simpa using positive⟩
                rw [zero]
                rfl
          | ok _ =>
              refine ⟨randomUuid.digits.map hexChar, ?_, fun _ => telling_uuid randomUuid,
                fun stuck => ?_⟩
              · cases closed : platform.storage.closeWriter with
                | error e => simp [Storage.Completes, closed]
                | ok _ => simp [Storage.Completes, opened, written, flushed, closed]
              · exact absurd ⟨opened, written, by rw [flushed]; simp⟩ stuck

theorem createUuid_refused
    {file : File} (randomUuid : RandomUuid)
    (refused : ¬(checkPermission platform context .writeExternalStorage = true ∧
      (file = none -> platform.storage.createNewFile = .ok true))) :
    createUuid platform context randomUuid file = ([], file) := by
  rw [createUuid]
  by_cases granted : checkPermission platform context .writeExternalStorage = true
  · rw [if_neg (by simp [granted])]
    cases file with
    | some content => exact absurd ⟨granted, fun absent => by cases absent⟩ refused
    | none =>
        match created : platform.storage.createNewFile with
        | .error e => simp
        | .ok false => simp
        | .ok true => exact absurd ⟨granted, fun _ => created⟩ refused
  · rw [if_pos (by simp [granted])]

/-- The identifier and the file where no other source answers. -/
def handed (platform : Platform) (context : Option Context) (randomUuid : RandomUuid)
    (file : File) : JavaString × File :=
  if unusable (some (readIMEIFromExternalDir platform context file)) then
    let saved := getUUIDFromExternalDir platform context randomUuid file
    (if saved.1 = [] then noIdentifier else saved.1, saved.2)
  else (readIMEIFromExternalDir platform context file, file)

theorem getDeviceId_of_silent
    (silent : sourceAnswer platform context = .none) (randomUuid : RandomUuid) (file : File) :
    getDeviceId platform context randomUuid file =
      (.ok (handed platform context randomUuid file).1,
        (handed platform context randomUuid file).2) := by
  rw [getDeviceId_eq, silent, handed]
  split <;> rfl

/-- The file is asked and has no text in its first line. -/
def Blank (platform : Platform) (file : File) : Prop :=
  ∀ content, file = some content ->
    platform.storage.Readable ∧ isEmpty (firstLine content) = true

theorem handed_of_denied
    (denied : ¬checkPermission platform context .readExternalStorage = true)
    (randomUuid : RandomUuid) (file : File) :
    handed platform context randomUuid file = (noIdentifier, file) := by
  simp [handed, readIMEIFromExternalDir, getUUIDFromExternalDir, denied, unusable]

theorem handed_of_unreadable
    (unreadable : ¬platform.storage.Readable) (randomUuid : RandomUuid)
    (content : JavaString) :
    handed platform context randomUuid (some content) = (noIdentifier, some content) := by
  by_cases granted : checkPermission platform context .readExternalStorage = true
  · simp [handed, readIMEIFromExternalDir, getUUIDFromExternalDir, granted,
      readFirstLine_of_not_readable unreadable, unusable]
  · exact handed_of_denied granted randomUuid _

/-- A line is handed out whether or not it is the placeholder. -/
theorem handed_of_line
    (granted : checkPermission platform context .readExternalStorage = true)
    (readable : platform.storage.Readable) {content line : JavaString}
    (first : firstLine content = some line) (nonempty : line ≠ [])
    (randomUuid : RandomUuid) :
    handed platform context randomUuid (some content) = (line, some content) := by
  simp only [handed, readIMEIFromExternalDir_of_readable granted readable,
    getUUIDFromExternalDir, granted, readFirstLine_of_readable readable, first, isEmpty_some]
  by_cases usable : unusable (some line) = true <;> simp [nonempty, usable]

theorem handed_of_blank
    (granted : checkPermission platform context .readExternalStorage = true)
    {file : File} (blank : Blank platform file) (randomUuid : RandomUuid) :
    handed platform context randomUuid file =
      (if (createUuid platform context randomUuid file).1 = [] then noIdentifier
        else (createUuid platform context randomUuid file).1,
        (createUuid platform context randomUuid file).2) := by
  cases file with
  | none => simp [handed, readIMEIFromExternalDir, getUUIDFromExternalDir, granted, unusable]
  | some content =>
      obtain ⟨readable, empty⟩ := blank content rfl
      simp [handed, readIMEIFromExternalDir, getUUIDFromExternalDir, granted,
        readFirstLine_of_readable readable, empty, unusable]

/-- The call makes up an identifier. -/
def MakesUp (platform : Platform) (context : Option Context) (file : File) : Prop :=
  Blank platform file ∧ checkPermission platform context .writeExternalStorage = true ∧
    (file = none -> platform.storage.createNewFile = .ok true)

/-- Where nothing is made up the file stays as it is. -/
theorem handed_of_not_makesUp
    (granted : checkPermission platform context .readExternalStorage = true)
    {file : File} (blank : Blank platform file)
    (refused : ¬MakesUp platform context file) (randomUuid : RandomUuid) :
    handed platform context randomUuid file = (noIdentifier, file) := by
  rw [handed_of_blank granted blank,
    createUuid_refused randomUuid fun allowed => refused ⟨blank, allowed⟩]
  rfl

/-- An attempt to save an identifier and what the next call makes of it. -/
theorem handed_of_makesUp
    (granted : checkPermission platform context .readExternalStorage = true)
    {file : File} (makesUp : MakesUp platform context file) (randomUuid : RandomUuid) :
    ∃ left, handed platform context randomUuid file =
        (if platform.storage.Completes then left else noIdentifier, some left) ∧
      (platform.storage.Reaches -> Telling left) ∧
      ∀ later, (handed platform context later (some left)).1 =
        if platform.storage.Reaches ∧ platform.storage.Readable then left
        else noIdentifier := by
  obtain ⟨blank, allowed, created⟩ := makesUp
  have empty : isEmpty (firstLine (file.getD [])) = true := by
    cases file with
    | none => rfl
    | some content => exact (blank content rfl).2
  obtain ⟨left, saved, telling, stuck⟩ := createUuid_granted randomUuid allowed created empty
  refine ⟨left, ?_, telling, fun later => ?_⟩
  · rw [handed_of_blank granted blank, saved]
    by_cases completes : platform.storage.Completes
    · simp [completes, (telling completes.reaches).nonempty]
    · simp [completes]
  · by_cases readable : platform.storage.Readable
    · by_cases reaches : platform.storage.Reaches
      · rw [handed_of_line granted readable (telling reaches).oneLine
          (telling reaches).nonempty, if_pos ⟨reaches, readable⟩]
      · -- the next attempt gets stuck in the same way
        have still : Blank platform (some left) := fun content same => by
          cases same
          exact ⟨readable, stuck reaches⟩
        obtain ⟨other, savedAgain, -, -⟩ := @createUuid_granted platform context (some left)
          later allowed (fun absent => by cases absent) (stuck reaches)
        rw [handed_of_blank granted still, savedAgain,
          if_neg fun completes => reaches (Storage.Completes.reaches completes), if_pos rfl,
          if_neg fun both => reaches both.1]
    · rw [handed_of_unreadable readable, if_neg fun both => readable both.2]

end

/-! ## An identifier and the same identifier again -/

section

variable (platform : Platform) (context : Option Context)

/-- The first call gives an identifier and a second call, with the file as the first one
left it, gives it again. -/
def HandsOut (randomUuid later : RandomUuid) (file : File) : Prop :=
  ∃ identifier,
    (getDeviceId platform context randomUuid file).1 = .ok identifier ∧
    identifier ≠ [] ∧ identifier ≠ unknown ∧
    (getDeviceId platform context later
      (getDeviceId platform context randomUuid file).2).1 = .ok identifier

/-- The first source that answers is one to depend on.  An identifier that is made up and
reaches the file has to be saved without a failure where the file can be read, and only
there. -/
def Dependable (file : File) : Prop :=
  unusable (some (readIMEIFromExternalDir platform context file)) = true ->
    match sourceAnswer platform context with
    | .imeiOrMeid _ => True
    | .androidId identifier => identifier ≠ unknown
    | .mac address => without ':' address ≠ [] ∧ without ':' address ≠ unknown
    | .exception e => e.getMessage ≠ none
    | .none =>
        readIMEIFromExternalDir platform context file ≠ unknown ∧
          (checkPermission platform context .readExternalStorage = true ->
            MakesUp platform context file -> platform.storage.Reaches ->
              (platform.storage.Completes ↔ platform.storage.Readable))

end

section

variable {platform : Platform} {context : Option Context}

/-- A call that leaves the file alone is repeated. -/
theorem handsOut_of_unchanged
    {file : File} {result : Outcome JavaString}
    (same : ∀ uuid, getDeviceId platform context uuid file = (result, file))
    (randomUuid later : RandomUuid) :
    HandsOut platform context randomUuid later file ↔
      ∃ identifier, result = .ok identifier ∧ identifier ≠ [] ∧ identifier ≠ unknown := by
  simp only [HandsOut, same]
  constructor
  · rintro ⟨identifier, given, nonempty, known, -⟩
    exact ⟨identifier, given, nonempty, known⟩
  · rintro ⟨identifier, given, nonempty, known⟩
    exact ⟨identifier, given, nonempty, known, given⟩

/-- The calls where no source other than the file answers. -/
theorem handsOut_of_silent
    (silent : sourceAnswer platform context = .none) (randomUuid later : RandomUuid)
    (file : File) :
    HandsOut platform context randomUuid later file ↔
      (handed platform context randomUuid file).1 ≠ [] ∧
        (handed platform context randomUuid file).1 ≠ unknown ∧
        (handed platform context later (handed platform context randomUuid file).2).1 =
          (handed platform context randomUuid file).1 := by
  simp only [HandsOut, getDeviceId_of_silent silent]
  constructor
  · rintro ⟨identifier, given, nonempty, known, again⟩
    cases given
    exact ⟨nonempty, known, by injection again⟩
  · rintro ⟨nonempty, known, again⟩
    exact ⟨_, rfl, nonempty, known, by rw [again]⟩

theorem noIdentifier_ne_nil : noIdentifier ≠ [] := by decide

theorem noIdentifier_ne_unknown : noIdentifier ≠ unknown := by decide

/-- A file without a usable line gets a made up identifier. -/
theorem handsOut_of_blank
    (silent : sourceAnswer platform context = .none)
    (granted : checkPermission platform context .readExternalStorage = true)
    {file : File} (blank : Blank platform file) (randomUuid later : RandomUuid) :
    HandsOut platform context randomUuid later file ↔
      (MakesUp platform context file -> platform.storage.Reaches ->
        (platform.storage.Completes ↔ platform.storage.Readable)) := by
  rw [handsOut_of_silent silent]
  by_cases makesUp : MakesUp platform context file
  · obtain ⟨left, first, telling, second⟩ := handed_of_makesUp granted makesUp randomUuid
    simp only [first, second, makesUp, true_implies]
    by_cases reaches : platform.storage.Reaches
    · have distinct := (telling reaches).ne_noIdentifier
      by_cases completes : platform.storage.Completes <;>
        by_cases readable : platform.storage.Readable <;>
        simp [reaches, completes, readable, (telling reaches).nonempty,
          (telling reaches).ne_unknown, distinct, distinct.symm, noIdentifier_ne_nil,
          noIdentifier_ne_unknown]
    · have incomplete : ¬platform.storage.Completes :=
        fun completes => reaches (Storage.Completes.reaches completes)
      simp [reaches, incomplete, noIdentifier_ne_nil, noIdentifier_ne_unknown]
  · simp only [handed_of_not_makesUp granted blank makesUp, makesUp, false_implies, iff_true]
    exact ⟨noIdentifier_ne_nil, noIdentifier_ne_unknown, trivial⟩

/-- What is known of a file that was read and gave nothing usable. -/
theorem unusableFile_cases
    {file : File} (granted : checkPermission platform context .readExternalStorage = true)
    (stored : unusable (some (readIMEIFromExternalDir platform context file)) = true) :
    (Blank platform file ∧ readIMEIFromExternalDir platform context file = []) ∨
      ∃ content, file = some content ∧
        (¬platform.storage.Readable ∧ readIMEIFromExternalDir platform context file = [] ∨
          platform.storage.Readable ∧ firstLine content = some unknown ∧
            readIMEIFromExternalDir platform context file = unknown) := by
  cases file with
  | none =>
      refine .inl ⟨fun content same => ?_, ?_⟩
      · cases same
      · simp [readIMEIFromExternalDir, granted]
  | some content =>
      by_cases readable : platform.storage.Readable
      · have line := readIMEIFromExternalDir_of_readable granted readable content
        by_cases empty : isEmpty (firstLine content) = true
        · refine .inl ⟨fun other same => ?_, line.trans (by simpa [isEmpty] using empty)⟩
          cases same
          exact ⟨readable, empty⟩
        · -- the line is the placeholder
          cases first : firstLine content with
          | none => exact absurd (by rw [first]; rfl) empty
          | some text =>
              rw [first] at line empty
              rw [line, unusable_some_iff] at stored
              have placeholder : text = unknown :=
                stored.resolve_left (by simpa using empty)
              rw [placeholder] at first line
              exact .inr ⟨content, rfl, .inr ⟨readable, first, line⟩⟩
      · refine .inr ⟨content, rfl, .inl ⟨readable, ?_⟩⟩
        simp [readIMEIFromExternalDir, granted, readFirstLine_of_not_readable readable]

/-- Where neither the file nor another source answers. -/
theorem handsOut_iff_of_silent
    (silent : sourceAnswer platform context = .none) (randomUuid later : RandomUuid)
    (file : File)
    (stored : unusable (some (readIMEIFromExternalDir platform context file)) = true) :
    HandsOut platform context randomUuid later file ↔
      readIMEIFromExternalDir platform context file ≠ unknown ∧
        (checkPermission platform context .readExternalStorage = true ->
          MakesUp platform context file -> platform.storage.Reaches ->
            (platform.storage.Completes ↔ platform.storage.Readable)) := by
  have nil_ne_unknown : ([] : JavaString) ≠ unknown := by decide
  by_cases granted : checkPermission platform context .readExternalStorage = true
  · rw [forall_prop_of_true granted]
    obtain ⟨blank, line⟩ |
        ⟨content, rfl, ⟨unreadable, line⟩ | ⟨readable, first, line⟩⟩ :=
      unusableFile_cases granted stored
    · rw [handsOut_of_blank silent granted blank, line]
      exact (and_iff_right nil_ne_unknown).symm
    · have refused : ¬MakesUp platform context (some content) :=
        fun makesUp => unreadable (makesUp.1 content rfl).1
      rw [handsOut_of_silent silent]
      simp [handed_of_unreadable unreadable, line, refused, noIdentifier_ne_nil,
        noIdentifier_ne_unknown, nil_ne_unknown]
    · rw [handsOut_of_silent silent]
      simp [handed_of_line granted readable first (by decide), line]
  · have line : readIMEIFromExternalDir platform context file = [] := by
      simp [readIMEIFromExternalDir, granted]
    rw [handsOut_of_silent silent]
    simp [handed_of_denied granted, line, granted, noIdentifier_ne_nil,
      noIdentifier_ne_unknown, nil_ne_unknown]

/-- The identifier is one to rely on exactly where the first answer is. -/
theorem handsOut_iff
    (platform : Platform) (context : Option Context) (randomUuid later : RandomUuid)
    (file : File) :
    HandsOut platform context randomUuid later file ↔ Dependable platform context file := by
  by_cases stored : unusable (some (readIMEIFromExternalDir platform context file)) = true
  · rw [Dependable, forall_prop_of_true stored]
    have asked (uuid : RandomUuid) :
        getDeviceId platform context uuid file =
          (sourceAnswer platform context).result platform context uuid file := by
      rw [getDeviceId_eq, if_pos stored]
    have tested := sourceAnswer_tested platform context
    cases answers : sourceAnswer platform context with
    | imeiOrMeid identifier =>
        have usable : identifier ≠ [] ∧ identifier ≠ unknown := by rwa [answers] at tested
        rw [handsOut_of_unchanged fun uuid => by rw [asked, answers]; rfl]
        simpa using usable
    | androidId identifier =>
        have nonempty : identifier ≠ [] := by rwa [answers] at tested
        rw [handsOut_of_unchanged fun uuid => by rw [asked, answers]; rfl]
        simp [nonempty]
    | mac address =>
        rw [handsOut_of_unchanged fun uuid => by rw [asked, answers]; rfl]
        simp
    | exception e =>
        cases message : e.getMessage with
        | none =>
            rw [handsOut_of_unchanged fun uuid => by
              rw [asked, answers, Answer.result, message]]
            simp [message]
        | some text =>
            rw [handsOut_of_unchanged fun uuid => by
              rw [asked, answers, Answer.result, message]]
            simp [message, noIdentifier_ne_nil, noIdentifier_ne_unknown]
    | none => exact handsOut_iff_of_silent answers randomUuid later file stored
  · rw [handsOut_of_unchanged fun uuid => by rw [getDeviceId_eq, if_neg stored]]
    have usable := (unusable_some_iff _).not.mp stored
    rw [not_or] at usable
    simp [Dependable, stored, usable]

/-- A device without a network on which every permission is refused and the android id is
the placeholder. -/
def placeholderPlatform : Platform where
  sdkInt := 29
  getSerial := .ok none
  networkInterfaces := .ok none
  busyboxIfconfig := ⟨[], some ⟨some []⟩⟩
  wlan0Address := ⟨[], none⟩
  eth0Address := .error ⟨some []⟩
  storage :=
    { openReader := .ok (), readLine := .ok (), closeReader := .ok (),
      createNewFile := .ok true, openWriter := .ok (), write := .ok (), flush := .ok (),
      closeWriter := .ok () }
  toUpperCase := List.map Char.toUpper
  nullPointerException := ⟨none⟩
  stringIndexOutOfBoundsException := ⟨some []⟩

def placeholderContext : Context where
  checkSelfPermission := fun _ => .ok (-1)
  packageManagerCheckPermission := fun _ => .ok (-1)
  telephonyManager :=
    { getImei := fun _ => .ok none, getMeid := .ok none,
      getDeviceIdOfSlot := fun _ => .ok none, getDeviceId := .ok none }
  androidId := .ok (some unknown)
  wifiMacAddress := .ok none

def plainUuid : RandomUuid where
  digits := List.replicate 12 0 ++ 4 :: List.replicate 19 0
  size := rfl
  version := rfl

/-- The android id is handed out although it is the placeholder. -/
theorem not_handsOut_placeholder :
    ¬HandsOut placeholderPlatform (some placeholderContext) plainUuid plainUuid none := by
  have given : getDeviceId placeholderPlatform (some placeholderContext) plainUuid none =
      (.ok unknown, none) := rfl
  rintro ⟨identifier, first, -, known, -⟩
  rw [given] at first
  cases first
  exact known rfl

end

end Device
end UnityLocalization
