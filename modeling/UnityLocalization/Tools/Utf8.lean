import UnityLocalization.Library.CString
import UnityLocalization.Library.Utf16

/-!
# The UTF-8 converter

`utf8ToUnicode` decodes a terminated string and stores one two-byte unit for
every accepted sequence; it stops at the first sequence its masks reject.
`codeUnits` is the list of units it stores.
-/

namespace UnityLocalization
namespace Tools

open CMemory Utf16

/-- The test `0x80 == (byte & 0xC0)`. -/
def isContinuation (byte : UInt8) : Bool := byte &&& 0xC0 == 0x80

def continuationAt (src : Bytes) (index : Nat) : Checked Bool := do
  let byte ← load (regionOf src) index
  return isContinuation byte

def twoByteCode (lead second : UInt8) : UInt32 :=
  ((lead.toUInt32 &&& 0x1F) <<< 6) ||| (second.toUInt32 &&& 0x3F)

def threeByteCode (lead second third : UInt8) : UInt32 :=
  ((lead.toUInt32 &&& 0x0F) <<< 12) ||| ((second.toUInt32 &&& 0x3F) <<< 6) |||
    (third.toUInt32 &&& 0x3F)

def fourByteCode (lead second third fourth : UInt8) : UInt32 :=
  ((lead.toUInt32 &&& 0x07) <<< 18) ||| ((second.toUInt32 &&& 0x3F) <<< 12) |||
    ((third.toUInt32 &&& 0x3F) <<< 6) ||| (fourth.toUInt32 &&& 0x3F)

/-- One turn of the decoding loop at a nonzero byte: `codeLen` and `unicode`,
or nothing at the `break`. -/
def decodeSequence (src : Bytes) : Checked (Option (Nat × UInt32)) := do
  let lead ← load (regionOf src) 0
  if lead &&& 0x80 == 0 then
    return some (1, lead.toUInt32)
  if ← andAlso (.ok (lead &&& 0xE0 == 0xC0)) (continuationAt src 1) then
    let second ← load (regionOf src) 1
    return some (2, twoByteCode lead second)
  if ← andAlso (.ok (lead &&& 0xF0 == 0xE0))
      (andAlso (continuationAt src 1) (continuationAt src 2)) then
    let second ← load (regionOf src) 1
    let third ← load (regionOf src) 2
    return some (3, threeByteCode lead second third)
  if ← andAlso (.ok (lead &&& 0xF0 == 0xF0))
      (andAlso (continuationAt src 1)
        (andAlso (continuationAt src 2) (continuationAt src 3))) then
    let second ← load (regionOf src) 1
    let third ← load (regionOf src) 2
    let fourth ← load (regionOf src) 3
    return some (4, fourByteCode lead second third fourth)
  return none

/-- The pure reading of `decodeSequence`: bytes behind the end of the text
read as its terminator. -/
def sequenceAt (text : Bytes) : Option (Nat × UInt32) :=
  let lead := byteAt text 0
  let second := byteAt text 1
  let third := byteAt text 2
  let fourth := byteAt text 3
  if lead &&& 0x80 == 0 then some (1, lead.toUInt32)
  else if lead &&& 0xE0 == 0xC0 && isContinuation second then
    some (2, twoByteCode lead second)
  else if lead &&& 0xF0 == 0xE0 &&
      (isContinuation second && isContinuation third) then
    some (3, threeByteCode lead second third)
  else if lead &&& 0xF0 == 0xF0 &&
      (isContinuation second && (isContinuation third && isContinuation fourth)) then
    some (4, fourByteCode lead second third fourth)
  else none

theorem continuationAt_terminated
    (text rest : Bytes) {index : Nat} (inside : index ≤ text.length) :
    continuationAt (text ++ 0 :: rest) index =
      .ok (isContinuation (byteAt text index)) := by
  simp [continuationAt, load_terminated text rest inside]

/-- The terminator is no continuation byte. -/
theorem lt_length_of_isContinuation
    {text : Bytes} {index : Nat}
    (continues : isContinuation (byteAt text index) = true) :
    index < text.length := by
  by_contra outside
  rw [byteAt_of_le (by omega)] at continues
  exact absurd continues (by decide)

/-- On a terminated string the decoder never reads past the terminator. -/
theorem decodeSequence_terminated
    (text rest : Bytes) (nonempty : text ≠ []) :
    decodeSequence (text ++ 0 :: rest) = .ok (sequenceAt text) := by
  have one : 1 ≤ text.length := List.length_pos_of_ne_nil nonempty
  have leadLoad := load_terminated text rest (Nat.zero_le _)
  have secondLoad := load_terminated text rest one
  have secondTest := continuationAt_terminated text rest one
  simp only [decodeSequence, sequenceAt, leadLoad, secondLoad, secondTest,
    ok_bind, andAlso_ok, pure_eq_ok]
  generalize lead1 : (byteAt text 0 &&& 0x80 == 0) = single
  generalize lead2 : (byteAt text 0 &&& 0xE0 == 0xC0) = double
  generalize lead3 : (byteAt text 0 &&& 0xF0 == 0xE0) = triple
  generalize lead4 : (byteAt text 0 &&& 0xF0 == 0xF0) = quadruple
  by_cases second : isContinuation (byteAt text 1)
  · have two := lt_length_of_isContinuation second
    have thirdLoad := load_terminated text rest two
    have thirdTest := continuationAt_terminated text rest two
    by_cases third : isContinuation (byteAt text 2)
    · have three := lt_length_of_isContinuation third
      have fourthLoad := load_terminated text rest three
      have fourthTest := continuationAt_terminated text rest three
      simp only [Nat.succ_eq_add_one, Nat.reduceAdd] at thirdLoad thirdTest fourthLoad fourthTest
      cases single <;> cases double <;> cases triple <;> cases quadruple <;>
        cases fourth : isContinuation (byteAt text 3) <;>
          simp [second, third, fourth, thirdLoad, thirdTest, fourthLoad,
            fourthTest]
    · cases single <;> cases double <;> cases triple <;> cases quadruple <;>
        simp [second, third, thirdTest]
  · cases single <;> cases double <;> cases triple <;> cases quadruple <;>
      simp [second]

/-- An accepted sequence has at least one byte and ends inside the text. -/
theorem sequenceAt_length
    {text : Bytes} {length : Nat} {code : UInt32}
    (nonempty : text ≠ [])
    (accepted : sequenceAt text = some (length, code)) :
    1 ≤ length ∧ length ≤ text.length := by
  have one : 1 ≤ text.length := List.length_pos_of_ne_nil nonempty
  simp only [sequenceAt, Bool.and_eq_true] at accepted
  split at accepted
  · cases accepted
    exact ⟨le_rfl, one⟩
  · split at accepted
    case isTrue double =>
      cases accepted
      exact ⟨by omega, lt_length_of_isContinuation double.2⟩
    case isFalse =>
      split at accepted
      case isTrue triple =>
        cases accepted
        exact ⟨by omega, lt_length_of_isContinuation triple.2.2⟩
      case isFalse =>
        split at accepted
        case isTrue quadruple =>
          cases accepted
          exact ⟨by omega, lt_length_of_isContinuation quadruple.2.2.2⟩
        case isFalse => cases accepted

/-- The decoder always advances. -/
theorem decodeSequence_advances
    {src : Bytes} {codeLen : Nat} {unicode : UInt32}
    (decoded : decodeSequence src = .ok (some (codeLen, unicode))) :
    1 ≤ codeLen ∧ src ≠ [] := by
  obtain ⟨lead, loaded, decoded⟩ := bind_eq_ok.mp decoded
  have nonempty : src ≠ [] := by
    rintro rfl
    cases loaded
  refine ⟨?_, nonempty⟩
  split at decoded
  · cases decoded
    exact le_rfl
  · obtain ⟨double, -, decoded⟩ := bind_eq_ok.mp decoded
    split at decoded
    · obtain ⟨second, -, decoded⟩ := bind_eq_ok.mp decoded
      cases decoded
      omega
    · obtain ⟨triple, -, decoded⟩ := bind_eq_ok.mp decoded
      split at decoded
      · obtain ⟨second, -, decoded⟩ := bind_eq_ok.mp decoded
        obtain ⟨third, -, decoded⟩ := bind_eq_ok.mp decoded
        cases decoded
        omega
      · obtain ⟨quadruple, -, decoded⟩ := bind_eq_ok.mp decoded
        split at decoded
        · obtain ⟨second, -, decoded⟩ := bind_eq_ok.mp decoded
          obtain ⟨third, -, decoded⟩ := bind_eq_ok.mp decoded
          obtain ⟨fourth, -, decoded⟩ := bind_eq_ok.mp decoded
          cases decoded
          omega
        · cases decoded

/-! ## The conversion loop -/

/-- The loop of `UTF8_to_Unicode`, with the destination cursor and the byte
count `i` as arguments. -/
def utf8Loop (dst : Bytes) (cursor i : Nat) (src : Bytes) :
    Checked (Bytes × Nat) := do
  let lead ← load (regionOf src) 0
  if lead = 0 then
    let dst ← store dst cursor 0
    return (dst, i)
  else
    match _decoded : decodeSequence src with
    | .error fault => .error fault
    | .ok none =>
        let dst ← store dst cursor 0
        return (dst, i)
    | .ok (some (codeLen, unicode)) =>
        let dst ← store dst cursor (unicode &&& 0xFF).toUInt8
        let dst ← store dst (cursor + 1) ((unicode >>> 8) &&& 0xFF).toUInt8
        utf8Loop dst (cursor + 2) (i + 2) (src.drop codeLen)
termination_by src.length
decreasing_by
  obtain ⟨advances, nonempty⟩ := decodeSequence_advances _decoded
  have positive := List.length_pos_of_ne_nil nonempty
  simp only [List.length_drop]
  omega

/-- The turn of the loop at a sequence that cannot be read. -/
theorem utf8Loop_of_fault
    {src : Bytes} {lead : UInt8} {fault : Fault} (dst : Bytes) (cursor i : Nat)
    (loaded : load (regionOf src) 0 = .ok lead) (nonzero : lead ≠ 0)
    (failed : decodeSequence src = .error fault) :
    utf8Loop dst cursor i src = .error fault := by
  rw [utf8Loop, loaded, ok_bind, if_neg nonzero]
  split
  case h_1 found => rw [found] at failed; cases failed; rfl
  case h_2 found => rw [found] at failed; cases failed
  case h_3 found => rw [found] at failed; cases failed

/-- The turn of the loop at a rejected sequence. -/
theorem utf8Loop_of_rejected
    {src : Bytes} {lead : UInt8} (dst : Bytes) (cursor i : Nat)
    (loaded : load (regionOf src) 0 = .ok lead) (nonzero : lead ≠ 0)
    (rejected : decodeSequence src = .ok none) :
    utf8Loop dst cursor i src = store dst cursor 0 >>= fun dst => .ok (dst, i) := by
  rw [utf8Loop, loaded, ok_bind, if_neg nonzero]
  split
  case h_1 failed => rw [failed] at rejected; cases rejected
  case h_2 => rfl
  case h_3 found => rw [found] at rejected; cases rejected

/-- The turn of the loop at an accepted sequence. -/
theorem utf8Loop_of_accepted
    {src : Bytes} {lead : UInt8} {codeLen : Nat} {unicode : UInt32}
    (dst : Bytes) (cursor i : Nat)
    (loaded : load (regionOf src) 0 = .ok lead) (nonzero : lead ≠ 0)
    (accepted : decodeSequence src = .ok (some (codeLen, unicode))) :
    utf8Loop dst cursor i src = (do
      let dst ← store dst cursor (unicode &&& 0xFF).toUInt8
      let dst ← store dst (cursor + 1) ((unicode >>> 8) &&& 0xFF).toUInt8
      utf8Loop dst (cursor + 2) (i + 2) (src.drop codeLen)) := by
  rw [utf8Loop, loaded, ok_bind, if_neg nonzero]
  split
  case h_1 failed => rw [failed] at accepted; cases accepted
  case h_2 found => rw [found] at accepted; cases accepted
  case h_3 found =>
    rw [found] at accepted
    cases accepted
    rfl

/-- `UTF8_to_Unicode(dst, src)`: the destination afterwards and the number of
bytes stored before the terminator. -/
def utf8ToUnicode (dst src : Bytes) : Checked (Bytes × Nat) :=
  utf8Loop dst 0 0 src

/-- The code units stored for a text. -/
def codeUnits (text : Bytes) : List UInt16 :=
  if _nonempty : text = [] then []
  else
    match _accepted : sequenceAt text with
    | none => []
    | some (length, code) => code.toUInt16 :: codeUnits (text.drop length)
termination_by text.length
decreasing_by
  obtain ⟨positive, bounded⟩ := sequenceAt_length _nonempty _accepted
  simp only [List.length_drop]
  omega

theorem codeUnits_nil : codeUnits [] = [] := by
  rw [codeUnits]
  rfl

theorem codeUnits_of_accepted
    {text : Bytes} {length : Nat} {code : UInt32}
    (nonempty : text ≠ [])
    (accepted : sequenceAt text = some (length, code)) :
    codeUnits text = code.toUInt16 :: codeUnits (text.drop length) := by
  rw [codeUnits, dif_neg nonempty]
  split
  case h_1 rejected => rw [rejected] at accepted; cases accepted
  case h_2 equal => rw [equal] at accepted; cases accepted; rfl

theorem codeUnits_of_rejected
    {text : Bytes} (rejected : sequenceAt text = none) :
    codeUnits text = [] := by
  rw [codeUnits]
  split
  · rfl
  · split
    · rfl
    case h_2 accepted => rw [accepted] at rejected; cases rejected

/-- Every stored unit stands for at least one byte of the text. -/
theorem length_codeUnits_le (text : Bytes) :
    (codeUnits text).length ≤ text.length := by
  fun_induction codeUnits text with
  | case1 => simp
  | case2 => simp
  | case3 text nonempty length code accepted inductionHypothesis =>
      obtain ⟨positive, bounded⟩ := sequenceAt_length nonempty accepted
      simp only [List.length_drop, List.length_cons] at inductionHypothesis ⊢
      omega

/-- The two bytes the loop stores are those of the truncated code point. -/
theorem stored_bytes (code : UInt32) :
    (code &&& 0xFF).toUInt8 = lowByte code.toUInt16 ∧
      ((code >>> 8) &&& 0xFF).toUInt8 = highByte code.toUInt16 := by
  have mask (value : Nat) : value &&& 255 = value % 256 :=
    Nat.and_two_pow_sub_one_eq_mod value 8
  constructor
  · apply UInt8.toNat_inj.mp
    simp [lowByte, mask]
  · apply UInt8.toNat_inj.mp
    simp [highByte, mask, Nat.shiftRight_eq_div_pow]
    omega

/-- Storing a pair of bytes at a cursor. -/
theorem store_pair
    (dst : Bytes) (cursor : Nat) (low high : UInt8)
    (fits : cursor + 1 < dst.length) :
    ∃ stored, (do
        let dst ← store dst cursor low
        store dst (cursor + 1) high) = .ok stored ∧
      stored.length = dst.length ∧
      stored.take (cursor + 2) = dst.take cursor ++ [low, high] ∧
      ∀ count, cursor + 2 ≤ count -> stored.drop count = dst.drop count := by
  refine ⟨(dst.set cursor low).set (cursor + 1) high, ?_, by simp, ?_, ?_⟩
  · rw [store_of_lt _ _ _ (by omega), ok_bind,
      store_of_lt _ _ _ (by simpa using fits)]
  · apply List.ext_getElem?
    intro index
    have prefixLength : (dst.take cursor).length = cursor := by
      simp only [List.length_take]
      omega
    rw [List.getElem?_take, List.getElem?_append, prefixLength]
    by_cases before : index < cursor
    · have notLow : ¬cursor = index := by omega
      have notHigh : ¬cursor + 1 = index := by omega
      have inside : index < cursor + 2 := by omega
      simp [before, notLow, notHigh, inside]
    · obtain ⟨offset, rfl⟩ := Nat.exists_eq_add_of_le (Nat.le_of_not_lt before)
      match offset with
      | 0 => simp [List.getElem?_set]; omega
      | 1 => simp [List.getElem?_set]; omega
      | offset + 2 =>
          have outside : ¬cursor + (offset + 2) < cursor + 2 := by omega
          simp [outside]
  · intro count behind
    rw [List.drop_set_of_lt (by omega), List.drop_set_of_lt (by omega)]

/-- The loop appends the encoded units and a terminator to what it has
already stored, provided they fit. -/
theorem utf8Loop_terminated
    (text rest dst : Bytes) (cursor i : Nat)
    (terminated : 0 ∉ text)
    (fits : cursor + 2 * (codeUnits text).length < dst.length) :
    utf8Loop dst cursor i (text ++ 0 :: rest) =
      .ok (dst.take cursor ++ encode (codeUnits text) ++
          0 :: dst.drop (cursor + 2 * (codeUnits text).length + 1),
        i + 2 * (codeUnits text).length) := by
  induction text using codeUnits.induct generalizing dst cursor i with
  | case1 =>
      simp only [codeUnits_nil, List.length_nil, Nat.mul_zero, Nat.add_zero] at fits ⊢
      rw [utf8Loop, load_terminated [] rest (Nat.zero_le _), ok_bind,
        byteAt_of_le (Nat.zero_le _), if_pos rfl, store_of_lt _ _ _ fits, ok_bind]
      simp [List.set_eq_take_append_cons_drop, fits]
  | case2 text nonempty rejected =>
      have unitsNil := codeUnits_of_rejected rejected
      simp only [unitsNil, List.length_nil, Nat.mul_zero, Nat.add_zero] at fits ⊢
      have decoded := decodeSequence_terminated text rest nonempty
      rw [rejected] at decoded
      have lead : byteAt text 0 ≠ 0 := byteAt_zero_ne nonempty terminated
      rw [utf8Loop_of_rejected dst cursor i
        (load_terminated text rest (Nat.zero_le _)) lead decoded]
      rw [store_of_lt _ _ _ fits, ok_bind]
      simp [List.set_eq_take_append_cons_drop, fits]
  | case3 text nonempty length code accepted inductionHypothesis =>
      obtain ⟨positive, bounded⟩ := sequenceAt_length nonempty accepted
      have unitsCons := codeUnits_of_accepted nonempty accepted
      have decoded := decodeSequence_terminated text rest nonempty
      rw [accepted] at decoded
      have lead : byteAt text 0 ≠ 0 := byteAt_zero_ne nonempty terminated
      have restTerminated : 0 ∉ text.drop length :=
        fun present => terminated (List.mem_of_mem_drop present)
      simp only [unitsCons, List.length_cons] at fits ⊢
      obtain ⟨low, high⟩ := stored_bytes code
      obtain ⟨stored, storing, sameLength, front, back⟩ :=
        store_pair dst cursor (lowByte code.toUInt16) (highByte code.toUInt16)
          (by omega)
      obtain ⟨first, storedLow, storedHigh⟩ := bind_eq_ok.mp storing
      have next := inductionHypothesis stored (cursor + 2) (i + 2)
        restTerminated (by omega)
      rw [utf8Loop_of_accepted dst cursor i
        (load_terminated text rest (Nat.zero_le _)) lead decoded,
        low, high, storedLow, ok_bind, storedHigh, ok_bind,
        List.drop_append_of_le_length bounded, next, front,
        back _ (by omega), encode_cons]
      have behind : cursor + 2 + 2 * (codeUnits (text.drop length)).length + 1 =
          cursor + 2 * ((codeUnits (text.drop length)).length + 1) + 1 := by
        omega
      have total : i + 2 + 2 * (codeUnits (text.drop length)).length =
          i + 2 * ((codeUnits (text.drop length)).length + 1) := by
        omega
      simp only [List.append_assoc, List.cons_append, List.nil_append,
        behind, total]

/-- `UTF8_to_Unicode` stores the encoded units and a terminator. -/
theorem utf8ToUnicode_terminated
    (dst text rest : Bytes) (terminated : 0 ∉ text)
    (fits : 2 * (codeUnits text).length < dst.length) :
    utf8ToUnicode dst (text ++ 0 :: rest) =
      .ok (encode (codeUnits text) ++
          0 :: dst.drop (2 * (codeUnits text).length + 1),
        2 * (codeUnits text).length) := by
  have loop := utf8Loop_terminated text rest dst 0 0 terminated (by omega)
  simpa [utf8ToUnicode] using loop

/-! ## Bounds on any input -/

/-- Where the units and the terminator do not fit, the loop runs out of the
destination. -/
theorem utf8Loop_overrun
    (text rest dst : Bytes) (cursor i : Nat)
    (terminated : 0 ∉ text)
    (full : dst.length ≤ cursor + 2 * (codeUnits text).length) :
    utf8Loop dst cursor i (text ++ 0 :: rest) = .error .outOfBounds := by
  induction text using codeUnits.induct generalizing dst cursor i with
  | case1 =>
      simp only [codeUnits_nil, List.length_nil, Nat.mul_zero, Nat.add_zero] at full
      rw [utf8Loop, load_terminated [] rest (Nat.zero_le _), ok_bind,
        byteAt_of_le (Nat.zero_le _), if_pos rfl, store_of_le _ _ _ full, error_bind]
  | case2 text nonempty rejected =>
      have unitsNil := codeUnits_of_rejected rejected
      simp only [unitsNil, List.length_nil, Nat.mul_zero, Nat.add_zero] at full
      have decoded := decodeSequence_terminated text rest nonempty
      rw [rejected] at decoded
      have lead : byteAt text 0 ≠ 0 := byteAt_zero_ne nonempty terminated
      rw [utf8Loop_of_rejected dst cursor i
        (load_terminated text rest (Nat.zero_le _)) lead decoded,
        store_of_le _ _ _ full, error_bind]
  | case3 text nonempty length code accepted inductionHypothesis =>
      obtain ⟨-, bounded⟩ := sequenceAt_length nonempty accepted
      have unitsCons := codeUnits_of_accepted nonempty accepted
      have decoded := decodeSequence_terminated text rest nonempty
      rw [accepted] at decoded
      have lead : byteAt text 0 ≠ 0 := byteAt_zero_ne nonempty terminated
      have restTerminated : 0 ∉ text.drop length :=
        fun present => terminated (List.mem_of_mem_drop present)
      rw [unitsCons, List.length_cons] at full
      rw [utf8Loop_of_accepted dst cursor i
        (load_terminated text rest (Nat.zero_le _)) lead decoded,
        List.drop_append_of_le_length bounded]
      -- the unit itself may already miss the destination
      by_cases low : cursor < dst.length
      · rw [store_of_lt _ _ _ low, ok_bind]
        by_cases high : cursor + 1 < dst.length
        · rw [store_of_lt _ _ _ (by simpa using high), ok_bind]
          refine inductionHypothesis _ _ _ restTerminated ?_
          simp only [List.length_set]
          omega
        · rw [store_of_le _ _ _ (by simpa using high), error_bind]
      · rw [store_of_le _ _ _ (Nat.le_of_not_lt low), error_bind]

/-- No accepted sequence reaches over the terminator. -/
theorem codeLen_le_of_decodeSequence
    {text rest : Bytes} {codeLen : Nat} {unicode : UInt32}
    (nonempty : text ≠ [])
    (decoded : decodeSequence (text ++ 0 :: rest) = .ok (some (codeLen, unicode))) :
    codeLen ≤ text.length := by
  rw [decodeSequence_terminated text rest nonempty] at decoded
  exact (sequenceAt_length nonempty (Except.ok.inj decoded)).2

/-- However malformed the text is, the converter returns for every destination with
room for its units and one byte more, whatever stands behind the terminator of the
text or whether anything does. -/
theorem utf8ToUnicode_bounded {text : Bytes} (terminated : 0 ∉ text) :
    ∃ data : Bytes,
      data.length % 2 = 0 ∧ data.length ≤ 2 * text.length ∧
      (∀ dst rest,
        (data.length < dst.length ->
          utf8ToUnicode dst (text ++ 0 :: rest) =
            .ok (data ++ 0 :: dst.drop (data.length + 1), data.length)) ∧
        (dst.length ≤ data.length ->
          utf8ToUnicode dst (text ++ 0 :: rest) = .error .outOfBounds)) ∧
      ∀ read unread rest codeLen unicode, text = read ++ unread -> unread ≠ [] ->
        decodeSequence (unread ++ 0 :: rest) = .ok (some (codeLen, unicode)) ->
        codeLen ≤ unread.length := by
  have size : (encode (codeUnits text)).length = 2 * (codeUnits text).length :=
    length_encode _
  have short := length_codeUnits_le text
  refine ⟨encode (codeUnits text), by omega, by omega, ?_, ?_⟩
  · intro dst rest
    rw [size]
    refine ⟨utf8ToUnicode_terminated dst text rest terminated, fun full => ?_⟩
    exact utf8Loop_overrun text rest dst 0 0 terminated (by omega)
  · rintro read unread rest codeLen unicode - nonempty decoded
    exact codeLen_le_of_decodeSequence nonempty decoded

/-- The text breaks off inside a sequence of three bytes. -/
theorem utf8ToUnicode_bounded_truncated :
    ∃ data : Bytes, data.length % 2 = 0 ∧ data.length ≤ 6 ∧
      ∀ rest, utf8ToUnicode (calloc 8) ([0x61, 0xE4, 0xB8] ++ 0 :: rest) =
        .ok (data ++ 0 :: (calloc 8).drop (data.length + 1), data.length) := by
  obtain ⟨data, even, short, stores, -⟩ :=
    @utf8ToUnicode_bounded [0x61, 0xE4, 0xB8] (by decide)
  exact ⟨data, even, short, fun rest =>
    (stores (calloc 8) rest).1 (Nat.lt_of_le_of_lt short (by decide))⟩

/-! ## Texts without a terminator -/

/-- Behind a longer text the decoder comes to the same result. -/
theorem decodeSequence_append (text more : Bytes) :
    Extends (decodeSequence text) (decodeSequence (text ++ more)) := by
  have loads (index : Nat) := load_append text more index
  have continues (index : Nat) :
      Extends (continuationAt text index) (continuationAt (text ++ more) index) :=
    (loads index).bind fun _ => Extends.refl _
  refine (loads 0).bind fun lead => Extends.ite (Extends.refl _) ?_
  refine ((Extends.refl _).andAlso (continues 1)).bind fun double => Extends.ite ?_ ?_
  · exact (loads 1).bind fun second => Extends.refl _
  refine ((Extends.refl _).andAlso ((continues 1).andAlso (continues 2))).bind
    fun triple => Extends.ite ?_ ?_
  · exact (loads 1).bind fun second => (loads 2).bind fun third => Extends.refl _
  refine ((Extends.refl _).andAlso ((continues 1).andAlso
    ((continues 2).andAlso (continues 3)))).bind fun quadruple => Extends.ite ?_ ?_
  · exact (loads 1).bind fun second => (loads 2).bind fun third =>
      (loads 3).bind fun fourth => Extends.refl _
  · exact Extends.refl _

/-- A decoder that returns has read what stands in the text. -/
theorem sequenceAt_of_decodeSequence
    {text : Bytes} {decoded : Option (Nat × UInt32)}
    (returned : decodeSequence text = .ok decoded) :
    text ≠ [] ∧ sequenceAt text = decoded := by
  have nonempty : text ≠ [] := by
    rintro rfl
    cases returned
  refine ⟨nonempty, ?_⟩
  have extended := decodeSequence_append text [0] decoded returned
  rw [decodeSequence_terminated text [] nonempty] at extended
  exact Except.ok.inj extended

/-- The decoder meets a rejected sequence before it needs a byte behind the
text. -/
inductive StopsInside : Bytes -> Prop
  | rejected {text : Bytes} (stops : decodeSequence text = .ok none) : StopsInside text
  | accepted {text : Bytes} {codeLen : Nat} {unicode : UInt32}
      (continues : decodeSequence text = .ok (some (codeLen, unicode)))
      (later : StopsInside (text.drop codeLen)) : StopsInside text

/-- The bytes that stop the decoder give no unit. -/
theorem StopsInside.length_codeUnits_lt
    {text : Bytes} (stops : StopsInside text) :
    (codeUnits text).length < text.length := by
  induction stops with
  | rejected stops =>
      obtain ⟨nonempty, rejected⟩ := sequenceAt_of_decodeSequence stops
      rw [codeUnits_of_rejected rejected]
      exact List.length_pos_of_ne_nil nonempty
  | accepted continues later inductionHypothesis =>
      obtain ⟨nonempty, accepted⟩ := sequenceAt_of_decodeSequence continues
      obtain ⟨positive, bounded⟩ := sequenceAt_length nonempty accepted
      rw [codeUnits_of_accepted nonempty accepted]
      simp only [List.length_cons, List.length_drop] at inductionHypothesis ⊢
      omega

/-- The first byte of a text without terminators starts a turn of the loop. -/
theorem load_lead
    {text : Bytes} (nonempty : text ≠ []) (terminated : 0 ∉ text) :
    ∃ lead, load (regionOf text) 0 = .ok lead ∧ lead ≠ 0 := by
  cases text with
  | nil => exact absurd rfl nonempty
  | cons lead rest =>
      refine ⟨lead, rfl, ?_⟩
      rintro rfl
      exact terminated List.mem_cons_self

/-- A text that stops the decoder is converted as a terminated one is. -/
theorem utf8Loop_of_stopsInside
    {text : Bytes} (stops : StopsInside text) (terminated : 0 ∉ text)
    (rest dst : Bytes) (cursor i : Nat) :
    utf8Loop dst cursor i text = utf8Loop dst cursor i (text ++ 0 :: rest) := by
  induction stops generalizing dst cursor i with
  | rejected stops =>
      obtain ⟨nonempty, -⟩ := sequenceAt_of_decodeSequence stops
      obtain ⟨lead, loaded, nonzero⟩ := load_lead nonempty terminated
      rw [utf8Loop_of_rejected dst cursor i loaded nonzero stops,
        utf8Loop_of_rejected dst cursor i (load_append _ _ 0 lead loaded) nonzero
          (decodeSequence_append _ _ none stops)]
  | @accepted text codeLen unicode continues later inductionHypothesis =>
      obtain ⟨nonempty, accepted⟩ := sequenceAt_of_decodeSequence continues
      obtain ⟨lead, loaded, nonzero⟩ := load_lead nonempty terminated
      obtain ⟨-, bounded⟩ := sequenceAt_length nonempty accepted
      have laterTerminated : 0 ∉ text.drop codeLen :=
        fun present => terminated (List.mem_of_mem_drop present)
      rw [utf8Loop_of_accepted dst cursor i loaded nonzero continues,
        utf8Loop_of_accepted dst cursor i (load_append _ _ 0 lead loaded) nonzero
          (decodeSequence_append _ _ _ continues),
        List.drop_append_of_le_length bounded]
      simp only [inductionHypothesis laterTerminated]

/-- A conversion that returns has stopped inside the text. -/
theorem stopsInside_of_utf8Loop
    {text dst : Bytes} {cursor i : Nat} {result : Bytes × Nat}
    (terminated : 0 ∉ text)
    (returned : utf8Loop dst cursor i text = .ok result) : StopsInside text := by
  induction size : text.length using Nat.strong_induction_on
    generalizing text dst cursor i with
  | h size inductionHypothesis =>
      subst size
      have nonempty : text ≠ [] := by
        rintro rfl
        rw [utf8Loop] at returned
        cases returned
      obtain ⟨lead, loaded, nonzero⟩ := load_lead nonempty terminated
      cases decoded : decodeSequence text with
      | error fault =>
          rw [utf8Loop, loaded, ok_bind, if_neg nonzero] at returned
          split at returned
          case h_1 => cases returned
          case h_2 found => rw [found] at decoded; cases decoded
          case h_3 found => rw [found] at decoded; cases decoded
      | ok result =>
          cases result with
          | none => exact .rejected decoded
          | some accepted =>
              obtain ⟨codeLen, unicode⟩ := accepted
              rw [utf8Loop_of_accepted dst cursor i loaded nonzero decoded] at returned
              obtain ⟨first, -, returned⟩ := bind_eq_ok.mp returned
              obtain ⟨second, -, returned⟩ := bind_eq_ok.mp returned
              obtain ⟨positive, -⟩ := decodeSequence_advances decoded
              have textPositive := List.length_pos_of_ne_nil nonempty
              refine .accepted decoded (inductionHypothesis _ ?_ ?_ returned rfl)
              · rw [List.length_drop]
                omega
              · exact fun present => terminated (List.mem_of_mem_drop present)

/-! ## Spelling a given unit -/

/-- Three bytes from which the converter reads a given unit, surrogates and
overlong spellings included. -/
def spellUnit (unit : UInt16) : Bytes :=
  [UInt8.ofNat (0xE0 + unit.toNat / 4096),
    UInt8.ofNat (0x80 + unit.toNat / 64 % 64),
    UInt8.ofNat (0x80 + unit.toNat % 64)]

/-- The spelling has no ASCII byte. -/
theorem le_of_mem_spellUnit
    {unit : UInt16} {byte : UInt8} (present : byte ∈ spellUnit unit) : 0x80 ≤ byte := by
  have bound := unit.toNat_lt
  simp only [spellUnit, List.mem_cons, List.not_mem_nil, or_false] at present
  rw [UInt8.le_iff_toNat_le]
  rcases present with rfl | rfl | rfl <;> simp <;> omega

theorem spellUnit_lead : ∀ quarter : Fin 16,
    (UInt8.ofNat (0xE0 + quarter.val) &&& 0x80 == 0) = false ∧
    (UInt8.ofNat (0xE0 + quarter.val) &&& 0xE0 == 0xC0) = false ∧
    (UInt8.ofNat (0xE0 + quarter.val) &&& 0xF0 == 0xE0) = true ∧
    (UInt8.ofNat (0xE0 + quarter.val)).toUInt32 &&& 0x0F =
      UInt32.ofNat quarter.val := by
  decide

theorem spellUnit_continuation : ∀ sextet : Fin 64,
    isContinuation (UInt8.ofNat (0x80 + sextet.val)) = true ∧
    (UInt8.ofNat (0x80 + sextet.val)).toUInt32 &&& 0x3F =
      UInt32.ofNat sextet.val := by
  decide

/-- Joining the bit groups of a spelling gives the unit back. -/
theorem joined_groups {value : Nat} (bound : value < 65536) :
    (((UInt32.ofNat (value / 4096)) <<< 12) |||
        ((UInt32.ofNat (value / 64 % 64)) <<< 6) |||
          (UInt32.ofNat (value % 64))).toNat = value := by
  have quarter : value / 4096 < 16 := by omega
  have low : value % 64 < 64 := by omega
  have middle : value / 64 % 64 < 64 := by omega
  have inner : (value / 64 % 64) <<< 6 ||| value % 64 = value % 4096 := by
    rw [← Nat.shiftLeft_add_eq_or_of_lt low, Nat.shiftLeft_eq]
    omega
  have outer : (value / 4096) <<< 12 ||| value % 4096 = value := by
    rw [← Nat.shiftLeft_add_eq_or_of_lt (by omega), Nat.shiftLeft_eq]
    omega
  have quarterShift : (value / 4096 % 4294967296) <<< 12 % 4294967296 =
      (value / 4096) <<< 12 := by
    simp only [Nat.shiftLeft_eq]
    omega
  have middleShift : (value / 64 % 64 % 4294967296) <<< 6 % 4294967296 =
      (value / 64 % 64) <<< 6 := by
    simp only [Nat.shiftLeft_eq]
    omega
  simp only [UInt32.toNat_or, UInt32.toNat_shiftLeft, UInt32.toNat_ofNat']
  simp
  rw [quarterShift, middleShift, Nat.mod_eq_of_lt (by omega : value % 64 < 4294967296),
    Nat.or_assoc, inner, outer]

theorem codeUnits_spellUnit (unit : UInt16) :
    codeUnits (spellUnit unit) = [unit] := by
  have bound := unit.toNat_lt
  obtain ⟨notSingle, notDouble, triple, leadBits⟩ :=
    spellUnit_lead ⟨unit.toNat / 4096, by omega⟩
  obtain ⟨second, secondBits⟩ :=
    spellUnit_continuation ⟨unit.toNat / 64 % 64, by omega⟩
  obtain ⟨third, thirdBits⟩ :=
    spellUnit_continuation ⟨unit.toNat % 64, by omega⟩
  have accepted : sequenceAt (spellUnit unit) =
      some (3, threeByteCode
        (UInt8.ofNat (0xE0 + unit.toNat / 4096))
        (UInt8.ofNat (0x80 + unit.toNat / 64 % 64))
        (UInt8.ofNat (0x80 + unit.toNat % 64))) := by
    simp only [sequenceAt, spellUnit, byteAt, List.getD_cons_zero,
      List.getD_cons_succ, notSingle, notDouble, triple, second, third]
    rfl
  rw [codeUnits_of_accepted (by simp [spellUnit]) accepted]
  have unitBack : (threeByteCode
      (UInt8.ofNat (0xE0 + unit.toNat / 4096))
      (UInt8.ofNat (0x80 + unit.toNat / 64 % 64))
      (UInt8.ofNat (0x80 + unit.toNat % 64))).toUInt16 = unit := by
    apply UInt16.toNat_inj.mp
    simp only [threeByteCode, leadBits, secondBits, thirdBits]
    rw [UInt32.toNat_toUInt16, joined_groups bound]
    omega
  rw [unitBack]
  simp [spellUnit, codeUnits_nil]

end Tools
end UnityLocalization
