import UnityLocalization.Tools.Transcoding

/-!
# What the UTF-8 converter accepts

The converter tests the lead and tail bits of a sequence and nothing else, so
it reads the longest initial part of its input with the byte patterns of UTF-8.
Well-formed UTF-8 is read to its end, but ill-formed sequences with the right
patterns are read as well.
-/

namespace UnityLocalization
namespace Tools

open CMemory Utf16 Unicode PrefixCode

/-! ## Where the loop stops -/

/-- The loop of `UTF8_to_Unicode` with the pointer `src` at its end as a third
result. -/
def utf8LoopEnd (dst : Bytes) (cursor i : Nat) (src : Bytes) :
    Checked (Bytes × Nat × Bytes) := do
  let lead ← load (regionOf src) 0
  if lead = 0 then
    let dst ← store dst cursor 0
    return (dst, i, src)
  else
    match _decoded : decodeSequence src with
    | .error fault => .error fault
    | .ok none =>
        let dst ← store dst cursor 0
        return (dst, i, src)
    | .ok (some (codeLen, unicode)) =>
        let dst ← store dst cursor (unicode &&& 0xFF).toUInt8
        let dst ← store dst (cursor + 1) ((unicode >>> 8) &&& 0xFF).toUInt8
        utf8LoopEnd dst (cursor + 2) (i + 2) (src.drop codeLen)
termination_by src.length
decreasing_by
  obtain ⟨advances, nonempty⟩ := decodeSequence_advances _decoded
  have positive := List.length_pos_of_ne_nil nonempty
  simp only [List.length_drop]
  omega

theorem utf8LoopEnd_of_fault
    {src : Bytes} {lead : UInt8} {fault : Fault} (dst : Bytes) (cursor i : Nat)
    (loaded : load (regionOf src) 0 = .ok lead) (nonzero : lead ≠ 0)
    (failed : decodeSequence src = .error fault) :
    utf8LoopEnd dst cursor i src = .error fault := by
  rw [utf8LoopEnd, loaded, ok_bind, if_neg nonzero]
  split
  case h_1 found => rw [found] at failed; cases failed; rfl
  case h_2 found => rw [found] at failed; cases failed
  case h_3 found => rw [found] at failed; cases failed

theorem utf8LoopEnd_of_rejected
    {src : Bytes} {lead : UInt8} (dst : Bytes) (cursor i : Nat)
    (loaded : load (regionOf src) 0 = .ok lead) (nonzero : lead ≠ 0)
    (rejected : decodeSequence src = .ok none) :
    utf8LoopEnd dst cursor i src =
      store dst cursor 0 >>= fun dst => .ok (dst, i, src) := by
  rw [utf8LoopEnd, loaded, ok_bind, if_neg nonzero]
  split
  case h_1 failed => rw [failed] at rejected; cases rejected
  case h_2 => rfl
  case h_3 found => rw [found] at rejected; cases rejected

theorem utf8LoopEnd_of_accepted
    {src : Bytes} {lead : UInt8} {codeLen : Nat} {unicode : UInt32}
    (dst : Bytes) (cursor i : Nat)
    (loaded : load (regionOf src) 0 = .ok lead) (nonzero : lead ≠ 0)
    (accepted : decodeSequence src = .ok (some (codeLen, unicode))) :
    utf8LoopEnd dst cursor i src = (do
      let dst ← store dst cursor (unicode &&& 0xFF).toUInt8
      let dst ← store dst (cursor + 1) ((unicode >>> 8) &&& 0xFF).toUInt8
      utf8LoopEnd dst (cursor + 2) (i + 2) (src.drop codeLen)) := by
  rw [utf8LoopEnd, loaded, ok_bind, if_neg nonzero]
  split
  case h_1 failed => rw [failed] at accepted; cases accepted
  case h_2 found => rw [found] at accepted; cases accepted
  case h_3 found =>
    rw [found] at accepted
    cases accepted
    rfl

/-- `utf8LoopEnd` is the loop of the converter. -/
theorem utf8Loop_eq_utf8LoopEnd (dst : Bytes) (cursor i : Nat) (src : Bytes) :
    utf8Loop dst cursor i src =
      utf8LoopEnd dst cursor i src >>= fun result => .ok (result.1, result.2.1) := by
  induction dst, cursor, i, src using utf8Loop.induct with
  | case1 dst cursor i src inductionHypothesis =>
      cases loaded : load (regionOf src) 0 with
      | error fault => rw [utf8Loop, utf8LoopEnd, loaded]; rfl
      | ok lead =>
          by_cases zero : lead = 0
          · rw [utf8Loop, utf8LoopEnd, loaded, ok_bind, ok_bind, if_pos zero, if_pos zero]
            cases store dst cursor 0 <;> rfl
          · cases decoded : decodeSequence src with
            | error fault =>
                rw [utf8LoopEnd_of_fault dst cursor i loaded zero decoded,
                  utf8Loop_of_fault dst cursor i loaded zero decoded]
                rfl
            | ok sequence =>
                cases sequence with
                | none =>
                    rw [utf8Loop_of_rejected dst cursor i loaded zero decoded,
                      utf8LoopEnd_of_rejected dst cursor i loaded zero decoded]
                    cases store dst cursor 0 <;> rfl
                | some accepted =>
                    rw [utf8Loop_of_accepted dst cursor i loaded zero decoded,
                      utf8LoopEnd_of_accepted dst cursor i loaded zero decoded]
                    simp only [inductionHypothesis _ _ decoded, bind_assoc]

/-- The part of a text behind the last accepted sequence. -/
def unread (text : Bytes) : Bytes :=
  if _nonempty : text = [] then []
  else
    match _accepted : sequenceAt text with
    | none => text
    | some (length, _) => unread (text.drop length)
termination_by text.length
decreasing_by
  obtain ⟨positive, bounded⟩ := sequenceAt_length _nonempty _accepted
  simp only [List.length_drop]
  omega

theorem unread_nil : unread [] = [] := by
  rw [unread]
  rfl

theorem unread_of_rejected
    {text : Bytes} (rejected : sequenceAt text = none) : unread text = text := by
  rw [unread]
  split
  case isTrue empty => exact empty.symm
  case isFalse =>
    split
    · rfl
    case h_2 accepted => rw [accepted] at rejected; cases rejected

theorem unread_of_accepted
    {text : Bytes} {length : Nat} {code : UInt32}
    (nonempty : text ≠ []) (accepted : sequenceAt text = some (length, code)) :
    unread text = unread (text.drop length) := by
  rw [unread, dif_neg nonempty]
  split
  case h_1 rejected => rw [rejected] at accepted; cases accepted
  case h_2 equal => rw [equal] at accepted; cases accepted; rfl

/-- At its end the loop points at the unread part of the text. -/
theorem utf8LoopEnd_terminated
    (text rest dst : Bytes) (cursor i : Nat) (terminated : 0 ∉ text) :
    utf8LoopEnd dst cursor i (text ++ 0 :: rest) =
      utf8Loop dst cursor i (text ++ 0 :: rest) >>= fun result =>
        .ok (result.1, result.2, unread text ++ 0 :: rest) := by
  induction text using codeUnits.induct generalizing dst cursor i with
  | case1 =>
      have loaded := load_terminated [] rest (Nat.zero_le _)
      rw [utf8LoopEnd, utf8Loop, loaded, ok_bind, ok_bind,
        byteAt_of_le (Nat.zero_le _), if_pos rfl, if_pos rfl, unread_nil]
      cases store dst cursor 0 <;> rfl
  | case2 text nonempty rejected =>
      have loaded := load_terminated text rest (Nat.zero_le _)
      have lead : byteAt text 0 ≠ 0 := byteAt_zero_ne nonempty terminated
      have decoded := decodeSequence_terminated text rest nonempty
      rw [rejected] at decoded
      rw [utf8LoopEnd_of_rejected dst cursor i loaded lead decoded,
        utf8Loop_of_rejected dst cursor i loaded lead decoded, unread_of_rejected rejected]
      cases store dst cursor 0 <;> rfl
  | case3 text nonempty length code accepted inductionHypothesis =>
      have loaded := load_terminated text rest (Nat.zero_le _)
      have lead : byteAt text 0 ≠ 0 := byteAt_zero_ne nonempty terminated
      have decoded := decodeSequence_terminated text rest nonempty
      rw [accepted] at decoded
      have laterTerminated : 0 ∉ text.drop length :=
        fun present => terminated (List.mem_of_mem_drop present)
      rw [utf8LoopEnd_of_accepted dst cursor i loaded lead decoded,
        utf8Loop_of_accepted dst cursor i loaded lead decoded,
        unread_of_accepted nonempty accepted,
        List.drop_append_of_le_length (sequenceAt_length nonempty accepted).2]
      simp only [inductionHypothesis _ _ _ laterTerminated, bind_assoc]

/-! ## The masks and the byte patterns -/

/-- Four bytes the masks take although no pattern of UTF-8 starts with
`11111xxx`. -/
def StraySequence (text : Bytes) : Prop :=
  ∃ lead second third fourth rest, text = lead :: second :: third :: fourth :: rest ∧
    0xF8 ≤ lead ∧ Tail second ∧ Tail third ∧ Tail fourth

/-- The masks as ranges of a byte. -/
theorem mask_ranges : ∀ value : Fin 256,
    ((UInt8.ofNat value.val &&& 0x80 == 0) = true ↔ UInt8.ofNat value.val < 0x80) ∧
    ((UInt8.ofNat value.val &&& 0xE0 == 0xC0) = true ↔
      0xC0 ≤ UInt8.ofNat value.val ∧ UInt8.ofNat value.val < 0xE0) ∧
    ((UInt8.ofNat value.val &&& 0xF0 == 0xE0) = true ↔
      0xE0 ≤ UInt8.ofNat value.val ∧ UInt8.ofNat value.val < 0xF0) ∧
    ((UInt8.ofNat value.val &&& 0xF0 == 0xF0) = true ↔ 0xF0 ≤ UInt8.ofNat value.val) ∧
    (isContinuation (UInt8.ofNat value.val) = true ↔ Tail (UInt8.ofNat value.val)) := by
  simp only [isContinuation, Tail]
  decide +kernel

section Masks

variable (byte : UInt8)

theorem single_iff : (byte &&& 0x80 == 0) = true ↔ byte < 0x80 := by
  simpa using (mask_ranges ⟨byte.toNat, byte.toNat_lt⟩).1

theorem double_iff :
    (byte &&& 0xE0 == 0xC0) = true ↔ 0xC0 ≤ byte ∧ byte < 0xE0 := by
  simpa using (mask_ranges ⟨byte.toNat, byte.toNat_lt⟩).2.1

theorem triple_iff :
    (byte &&& 0xF0 == 0xE0) = true ↔ 0xE0 ≤ byte ∧ byte < 0xF0 := by
  simpa using (mask_ranges ⟨byte.toNat, byte.toNat_lt⟩).2.2.1

theorem quadruple_iff : (byte &&& 0xF0 == 0xF0) = true ↔ 0xF0 ≤ byte := by
  simpa using (mask_ranges ⟨byte.toNat, byte.toNat_lt⟩).2.2.2.1

theorem isContinuation_iff : isContinuation byte = true ↔ Tail byte := by
  simpa using (mask_ranges ⟨byte.toNat, byte.toNat_lt⟩).2.2.2.2

end Masks

/-- The first bytes of a text. -/
theorem take_eq_map_byteAt
    (text : Bytes) {count : Nat} (inside : count ≤ text.length) :
    text.take count = (List.range count).map (byteAt text) := by
  apply List.ext_getElem
  · simp [inside]
  · intro index before _
    simp only [List.length_take] at before
    have present : index < text.length := by omega
    simp [byteAt, present]

/-- An accepted sequence has a byte pattern of UTF-8 or is a stray one. -/
theorem bitPattern_of_accepted
    {text : Bytes} {length : Nat} {code : UInt32}
    (nonempty : text ≠ []) (accepted : sequenceAt text = some (length, code)) :
    BitPattern (text.take length) ∨ StraySequence text := by
  have bytes := take_eq_map_byteAt text (sequenceAt_length nonempty accepted).2
  simp only [sequenceAt, Bool.and_eq_true] at accepted
  split at accepted
  case isTrue single =>
    cases accepted
    rw [bytes]
    exact .inl (.one ((single_iff _).mp single))
  case isFalse =>
    split at accepted
    case isTrue double =>
      cases accepted
      rw [bytes]
      obtain ⟨above, below⟩ := (double_iff _).mp double.1
      exact .inl (.two above below ((isContinuation_iff _).mp double.2))
    case isFalse =>
      split at accepted
      case isTrue triple =>
        cases accepted
        rw [bytes]
        obtain ⟨above, below⟩ := (triple_iff _).mp triple.1
        exact .inl (.three above below ((isContinuation_iff _).mp triple.2.1)
          ((isContinuation_iff _).mp triple.2.2))
      case isFalse =>
        split at accepted
        case isFalse => cases accepted
        case isTrue quadruple =>
          cases accepted
          have above := (quadruple_iff _).mp quadruple.1
          have second := (isContinuation_iff _).mp quadruple.2.1
          have third := (isContinuation_iff _).mp quadruple.2.2.1
          have fourth := (isContinuation_iff _).mp quadruple.2.2.2
          by_cases below : byteAt text 0 < 0xF8
          · rw [bytes]
            exact .inl (.four above below second third fourth)
          · refine .inr ⟨_, _, _, _, text.drop 4, ?_, UInt8.not_lt.mp below, second,
              third, fourth⟩
            calc text = text.take 4 ++ text.drop 4 := (List.take_append_drop 4 text).symm
              _ = _ := by rw [bytes]; rfl

/-- A sequence with a byte pattern of UTF-8 is accepted, whatever follows it. -/
theorem sequenceAt_of_bitPattern
    {word : Bytes} (pattern : BitPattern word) :
    ∃ code, ∀ rest, sequenceAt (word ++ rest) = some (word.length, code) := by
  have notBelow {lead : UInt8} (small large : UInt8) (order : small ≤ large)
      (atLeast : large ≤ lead) : ¬lead < small :=
    UInt8.not_lt.mpr (UInt8.le_trans order atLeast)
  cases pattern with
  | @one lead below =>
      refine ⟨lead.toUInt32, fun rest => ?_⟩
      simp only [sequenceAt, byteAt, List.cons_append, List.getD_cons_zero,
        (single_iff lead).mpr below]
      rfl
  | @two lead second above below secondTail =>
      refine ⟨twoByteCode lead second, fun rest => ?_⟩
      have notSingle := mt (single_iff lead).mp (notBelow 0x80 0xC0 (by decide) above)
      simp only [sequenceAt, byteAt, List.cons_append, List.getD_cons_zero,
        List.getD_cons_succ, notSingle, (double_iff lead).mpr ⟨above, below⟩,
        (isContinuation_iff second).mpr secondTail]
      rfl
  | @three lead second third above below secondTail thirdTail =>
      refine ⟨threeByteCode lead second third, fun rest => ?_⟩
      have notSingle := mt (single_iff lead).mp (notBelow 0x80 0xE0 (by decide) above)
      have notDouble := mt (double_iff lead).mp fun range =>
        notBelow 0xE0 0xE0 (by decide) above range.2
      simp only [sequenceAt, byteAt, List.cons_append, List.getD_cons_zero,
        List.getD_cons_succ, notSingle, notDouble, (triple_iff lead).mpr ⟨above, below⟩,
        (isContinuation_iff second).mpr secondTail,
        (isContinuation_iff third).mpr thirdTail]
      rfl
  | @four lead second third fourth above below secondTail thirdTail fourthTail =>
      refine ⟨fourByteCode lead second third fourth, fun rest => ?_⟩
      have notSingle := mt (single_iff lead).mp (notBelow 0x80 0xF0 (by decide) above)
      have notDouble := mt (double_iff lead).mp fun range =>
        notBelow 0xE0 0xF0 (by decide) above range.2
      have notTriple := mt (triple_iff lead).mp fun range =>
        notBelow 0xF0 0xF0 (by decide) above range.2
      simp only [sequenceAt, byteAt, List.cons_append, List.getD_cons_zero,
        List.getD_cons_succ, notSingle, notDouble, notTriple,
        (quadruple_iff lead).mpr above, (isContinuation_iff second).mpr secondTail,
        (isContinuation_iff third).mpr thirdTail,
        (isContinuation_iff fourth).mpr fourthTail]
      rfl

/-- No sequence of UTF-8 starts where a stray one stands. -/
theorem StraySequence.not_bitPattern
    {text : Bytes} (stray : StraySequence text) :
    ∀ word, BitPattern word -> ¬word <+: text := by
  obtain ⟨lead, second, third, fourth, rest, rfl, high, -⟩ := stray
  have notBelow (large : UInt8) (order : large ≤ 0xF8) : ¬lead < large :=
    UInt8.not_lt.mpr (UInt8.le_trans order high)
  intro word pattern starts
  cases pattern with
  | one below =>
      obtain ⟨rfl, -⟩ := List.cons_prefix_cons.mp starts
      exact notBelow 0x80 (by decide) below
  | two above below =>
      obtain ⟨rfl, -⟩ := List.cons_prefix_cons.mp starts
      exact notBelow 0xE0 (by decide) below
  | three above below =>
      obtain ⟨rfl, -⟩ := List.cons_prefix_cons.mp starts
      exact notBelow 0xF0 (by decide) below
  | four above below =>
      obtain ⟨rfl, -⟩ := List.cons_prefix_cons.mp starts
      exact notBelow 0xF8 (by decide) below

theorem not_bitPattern_of_rejected
    {text : Bytes} (rejected : sequenceAt text = none) :
    ∀ word, BitPattern word -> ¬word <+: text := by
  rintro word pattern ⟨rest, rfl⟩
  obtain ⟨code, accepted⟩ := sequenceAt_of_bitPattern pattern
  rw [accepted rest] at rejected
  cases rejected

/-! ## The part that is read -/

/-- The converter reads exactly the initial part `initial` of a text, one unit
for each of its sequences. -/
def ReadsExactly (text initial : Bytes) : Prop :=
  unread text = text.drop initial.length ∧ codeUnits text = codeUnits initial ∧
    ∃ sequences : List Bytes, (∀ sequence ∈ sequences, BitPattern sequence) ∧
      sequences.flatten = initial ∧ (codeUnits initial).length = sequences.length

theorem readsExactly_empty : ReadsExactly [] [] :=
  ⟨unread_nil, rfl, [], by simp, rfl, by rw [codeUnits_nil]; rfl⟩

theorem readsExactly_nil {text : Bytes} (rejected : sequenceAt text = none) :
    ReadsExactly text [] := by
  refine ⟨unread_of_rejected rejected, ?_, [], by simp, rfl, ?_⟩
  · rw [codeUnits_of_rejected rejected, codeUnits_nil]
  · rw [codeUnits_nil]
    rfl

/-- One more sequence in front. -/
theorem ReadsExactly.cons
    {word text initial : Bytes}
    (pattern : BitPattern word) (reads : ReadsExactly text initial) :
    ReadsExactly (word ++ text) (word ++ initial) := by
  obtain ⟨stops, same, sequences, patterns, rfl, count⟩ := reads
  obtain ⟨code, accepted⟩ := sequenceAt_of_bitPattern pattern
  have nonempty (rest : Bytes) : word ++ rest ≠ [] :=
    fun empty => BitPattern.prefixFree.nonempty word pattern
      (List.append_eq_nil_iff.mp empty).1
  have units (rest : Bytes) : codeUnits (word ++ rest) = code.toUInt16 :: codeUnits rest := by
    rw [codeUnits_of_accepted (nonempty rest) (accepted rest), List.drop_left]
  refine ⟨?_, ?_, word :: sequences, List.forall_mem_cons.mpr ⟨pattern, patterns⟩, rfl, ?_⟩
  · rw [unread_of_accepted (nonempty text) (accepted text), List.drop_left, stops,
      List.length_append, List.drop_append]
    simp
  · rw [units, units, same]
  · rw [units, List.length_cons, count, List.length_cons]

/-- The masks find the longest part with the patterns of UTF-8, and read no
more unless a stray sequence follows it. -/
theorem exists_longest_bitPattern (text : Bytes) :
    ∃ initial, Longest BitPattern text initial ∧
      (¬StraySequence (text.drop initial.length) -> ReadsExactly text initial) := by
  induction text using codeUnits.induct with
  | case1 =>
      refine ⟨[], Longest.nil fun word pattern starts => ?_, fun _ => readsExactly_empty⟩
      exact BitPattern.prefixFree.nonempty word pattern (List.prefix_nil.mp starts)
  | case2 text nonempty rejected =>
      exact ⟨[], Longest.nil (not_bitPattern_of_rejected rejected),
        fun _ => readsExactly_nil rejected⟩
  | case3 text nonempty length code accepted inductionHypothesis =>
      rcases bitPattern_of_accepted nonempty accepted with pattern | stray
      · obtain ⟨initial, longest, reads⟩ := inductionHypothesis
        have cut : text.take length ++ text.drop length = text :=
          List.take_append_drop length text
        refine ⟨text.take length ++ initial, ?_, fun regular => ?_⟩
        · have longer := longest.cons BitPattern.prefixFree pattern
          rwa [cut] at longer
        · have later : ¬StraySequence ((text.drop length).drop initial.length) := by
            rw [List.drop_drop]
            rwa [List.length_append, List.length_take_of_le
              (sequenceAt_length nonempty accepted).2] at regular
          have whole := (reads later).cons pattern
          rwa [cut] at whole
      · exact ⟨[], Longest.nil stray.not_bitPattern, fun regular => absurd stray regular⟩

/-- On the text behind `src` the loop stops where `initial` ends, and what it has
stored is one unit for each sequence of `initial`, and the zero byte. -/
def StoresExactly (dst text rest initial : Bytes) : Prop :=
  ∃ sequences : List Bytes,
    (∀ sequence ∈ sequences, BitPattern sequence) ∧
    sequences.flatten = initial ∧
    (codeUnits initial).length = sequences.length ∧
    utf8LoopEnd dst 0 0 (text ++ 0 :: rest) =
      .ok (encode (codeUnits initial) ++ 0 :: dst.drop (2 * sequences.length + 1),
        2 * sequences.length, text.drop initial.length ++ 0 :: rest) ∧
    utf8ToUnicode dst (text ++ 0 :: rest) =
      .ok (encode (codeUnits initial) ++ 0 :: dst.drop (2 * sequences.length + 1),
        2 * sequences.length)

/-- The bytes read before the loop stops are the longest initial part with the
patterns of UTF-8, and no unit is stored for what follows; well-formed UTF-8 is
never cut short. -/
theorem utf8ToUnicode_reads_bitPatterns
    (dst text rest : Bytes)
    (terminated : 0 ∉ text)
    (fits : 2 * (codeUnits text).length < dst.length) :
    ∃ initial, Longest BitPattern text initial ∧
      (∀ wellFormed, Longest ScalarBytes text wellFormed -> wellFormed <+: initial) ∧
      (¬StraySequence (text.drop initial.length) ->
        StoresExactly dst text rest initial) := by
  obtain ⟨initial, longest, reads⟩ := exists_longest_bitPattern text
  refine ⟨initial, longest, fun wellFormed scalars => ?_, fun regular => ?_⟩
  · exact longest.maximal wellFormed scalars.isPrefix
      (scalars.formed.mono fun _ => BitPattern.of_scalarBytes)
  · obtain ⟨stops, same, sequences, patterns, joined, count⟩ := reads regular
    have converted := utf8ToUnicode_terminated dst text rest terminated fits
    rw [same, count] at converted
    refine ⟨sequences, patterns, joined, count, ?_, converted⟩
    rw [utf8LoopEnd_terminated text rest dst 0 0 terminated, stops]
    rw [utf8ToUnicode] at converted
    rw [converted]
    rfl

/-- A text that ends inside a sequence. -/
theorem utf8ToUnicode_reads_bitPatterns_cut :
    ∃ initial, Longest BitPattern [0x41, 0xC3, 0xA9, 0xE6, 0x9C] initial ∧
      (∀ wellFormed, Longest ScalarBytes [0x41, 0xC3, 0xA9, 0xE6, 0x9C] wellFormed ->
        wellFormed <+: initial) ∧
      (¬StraySequence (([0x41, 0xC3, 0xA9, 0xE6, 0x9C] : Bytes).drop initial.length) ->
        StoresExactly (calloc 12) [0x41, 0xC3, 0xA9, 0xE6, 0x9C] [] initial) := by
  refine utf8ToUnicode_reads_bitPatterns (calloc 12) [0x41, 0xC3, 0xA9, 0xE6, 0x9C] []
    (by decide) ?_
  have short := length_codeUnits_le [0x41, 0xC3, 0xA9, 0xE6, 0x9C]
  have room : (calloc 12).length = 12 := List.length_replicate
  rw [room]
  simp only [List.length_cons, List.length_nil] at short
  omega

/-! ## Ill-formed sequences that are read -/

/-- A sequence with the right pattern is read whatever value it spells. -/
theorem utf8LoopEnd_of_bitPattern
    {word : Bytes} (dst rest : Bytes) (pattern : BitPattern word)
    (terminated : 0 ∉ word) (fits : 2 < dst.length) :
    ∃ written, utf8LoopEnd dst 0 0 (word ++ 0 :: rest) = .ok (written, 2, 0 :: rest) := by
  have reads := readsExactly_empty.cons pattern
  rw [List.append_nil] at reads
  obtain ⟨code, accepted⟩ := sequenceAt_of_bitPattern pattern
  have nonempty := BitPattern.prefixFree.nonempty word pattern
  have whole := accepted []
  rw [List.append_nil] at whole
  have units : codeUnits word = [code.toUInt16] := by
    rw [codeUnits_of_accepted nonempty whole, List.drop_length, codeUnits_nil]
  have converted := utf8Loop_terminated word rest dst 0 0 terminated
    (by rw [units]; simpa using fits)
  rw [utf8LoopEnd_terminated word rest dst 0 0 terminated, converted, reads.1,
    List.drop_length, units]
  exact ⟨_, rfl⟩

/-- What the decoder reads as another value than the one encoded is no
well-formed UTF-8. -/
theorem longest_scalarBytes_nil
    {text : Bytes} {length : Nat} {code : UInt32}
    (accepted : sequenceAt text = some (length, code))
    (illFormed : ∀ char : Char, char.val = code ->
      String.utf8EncodeChar char ≠ text.take length) :
    Longest ScalarBytes text [] := by
  refine Longest.nil ?_
  rintro word ⟨char, rfl⟩ ⟨rest, rfl⟩
  rw [sequenceAt_utf8EncodeChar char rest] at accepted
  cases accepted
  exact illFormed char rfl List.take_left.symm

/-- An overlong form of U+0000, an encoded surrogate and a value above
U+10FFFF are read although no well-formed text starts with them. -/
theorem utf8ToUnicode_reads_illFormed :
    ((∃ written, utf8LoopEnd (calloc 8) 0 0 ([0xC0, 0x80] ++ 0 :: []) =
        .ok (written, 2, [0])) ∧
      Longest ScalarBytes [0xC0, 0x80] []) ∧
    ((∃ written, utf8LoopEnd (calloc 8) 0 0 ([0xED, 0xA0, 0x80] ++ 0 :: []) =
        .ok (written, 2, [0])) ∧
      Longest ScalarBytes [0xED, 0xA0, 0x80] []) ∧
    ((∃ written, utf8LoopEnd (calloc 8) 0 0 ([0xF4, 0x90, 0x80, 0x80] ++ 0 :: []) =
        .ok (written, 2, [0])) ∧
      Longest ScalarBytes [0xF4, 0x90, 0x80, 0x80] []) := by
  have tail (byte : UInt8) (range : 0x80 ≤ byte ∧ byte < 0xC0) : Tail byte := range
  refine ⟨⟨?_, ?_⟩, ⟨?_, ?_⟩, ⟨?_, ?_⟩⟩
  · exact utf8LoopEnd_of_bitPattern _ [] (.two (by decide) (by decide) (tail _ (by decide)))
      (by decide) (by decide)
  · have accepted : sequenceAt [0xC0, 0x80] = some (2, 0) := by decide
    refine longest_scalarBytes_nil accepted fun char zero => ?_
    have null : char = '\x00' := Char.ext zero
    subst null
    decide
  · exact utf8LoopEnd_of_bitPattern _ []
      (.three (by decide) (by decide) (tail _ (by decide)) (tail _ (by decide)))
      (by decide) (by decide)
  · have accepted : sequenceAt [0xED, 0xA0, 0x80] = some (3, 0xD800) := by decide
    refine longest_scalarBytes_nil accepted fun char surrogate => ?_
    have valid := char.valid
    rw [surrogate] at valid
    exact absurd valid (by decide)
  · exact utf8LoopEnd_of_bitPattern _ []
      (.four (by decide) (by decide) (tail _ (by decide)) (tail _ (by decide))
        (tail _ (by decide))) (by decide) (by decide)
  · have accepted : sequenceAt [0xF4, 0x90, 0x80, 0x80] = some (4, 0x110000) := by decide
    refine longest_scalarBytes_nil accepted fun char large => ?_
    have valid := char.valid
    rw [large] at valid
    exact absurd valid (by decide)

end Tools
end UnityLocalization
