import UnityLocalization.TextHook.Accessors

/-!
# The dump before a rebuild

At a match both accessors dump the memory behind their argument `arg1` before
they build the new object.  The dump only reads: what it finds plays no part, but
it faults where it leaves the memory.  The setter dumps its string; what the
getter dumps need not be one.
-/

namespace UnityLocalization
namespace TextHook

open CMemory Tools Table

/-- The dump before a rebuild returns. -/
def DumpReturns (dumped : Option Region) (srcLength : Int) : Prop :=
  ∃ rows, hexDump dumped (srcLength + headerSize + endSize) = .ok rows

/-- What can be dumped with a text of `size` bytes: the null pointer, or memory
that is readable through the `EndSize` bytes behind such a text. -/
def Dumpable : (dumped : Option Region) -> (size : Nat) -> Prop
  | none, _ => True
  | some region, size =>
      ∀ offset, offset < headerSize + size + endSize -> (region offset).isSome

theorem dumpable_none (size : Nat) : Dumpable none size := trivial

theorem dumpable_readable (memory : Nat -> UInt8) (size : Nat) :
    Dumpable (some (readable memory)) size := fun _ _ => rfl

/-- A shorter dump of the same memory returns. -/
theorem Dumpable.dumpReturns
    {dumped : Option Region} {size : Nat} {srcLength : Int}
    (dumpable : Dumpable dumped size) (short : srcLength ≤ size) :
    DumpReturns dumped srcLength := by
  cases dumped with
  | none => exact ⟨[], rfl⟩
  | some region =>
      apply hexDump_within
      intro offset before
      exact dumpable offset (by omega)

/-- A dump reads exactly what has to be readable. -/
theorem dumpReturns_iff {dumped : Option Region} {size : Nat} :
    DumpReturns dumped size ↔ Dumpable dumped size := by
  constructor
  · rintro ⟨rows, returned⟩
    cases dumped with
    | none => exact dumpable_none size
    | some region =>
        intro offset before
        exact hexDump_reads returned offset (by omega)
  · exact fun dumpable => dumpable.dumpReturns (le_refl (size : Int))

/-! ## The dump and the rest of the loop -/

/-- A rebuild dumps first; the rest does not depend on what is dumped. -/
theorem rebuild_eq_dump
    (dumped : Option Region) (srcLength : Int)
    (header middle right : Bytes) (lengthStart lengthLeft : Nat) :
    rebuild dumped srcLength header middle right lengthStart lengthLeft =
      hexDump dumped (srcLength + headerSize + endSize) >>= fun _ =>
        rebuild none srcLength header middle right lengthStart lengthLeft := rfl

/-- One turn of the loop, with the next `strtok` call. -/
theorem entryLoop_some
    (convertSize : Nat) (dumped : Option Region) (srcLength : Int)
    (p cursor : Bytes) (currentLines : Nat) (left right header middle : Bytes) :
    entryLoop convertSize dumped srcLength (some (p, cursor)) currentLines
        left right header middle =
      splitLine left right p >>= fun parts =>
        entryTurn convertSize dumped srcLength currentLines
          parts.1 parts.2 header middle >>= fun state =>
            if state.substitution.isSome then .ok state
            else strtok lineDelimiters cursor >>= fun next =>
              entryLoop convertSize dumped srcLength next (currentLines + 1)
                parts.1 parts.2 state.header state.middle := by
  rw [entryLoop]
  refine bind_congr fun parts => bind_congr fun state => ?_
  congr 1
  split
  case h_1 fault failed => rw [failed, error_bind]
  case h_2 next scanned => rw [scanned, ok_bind]

section

variable (dumped : Option Region) {convertSize : Nat} {srcLength : Int}
  {currentLines : Nat} {left right header middle : Bytes} {state : LoopState}

theorem tryEntry_dumped_iff :
    tryEntry convertSize dumped srcLength currentLines left right header middle =
        .ok state ↔
      tryEntry convertSize none srcLength currentLines left right header middle =
        .ok state ∧ (state.substitution.isSome -> DumpReturns dumped srcLength) := by
  simp only [tryEntry]
  constructor
  · intro returned
    obtain ⟨key, converted, returned⟩ := bind_eq_ok.mp returned
    obtain ⟨folded, lowered, returned⟩ := bind_eq_ok.mp returned
    obtain ⟨found, compared, returned⟩ := bind_eq_ok.mp returned
    rw [converted, ok_bind, lowered, ok_bind, compared, ok_bind]
    cases found with
    | none =>
        refine ⟨returned, fun substituted => ?_⟩
        cases returned
        cases substituted
    | some lengthStart =>
        obtain ⟨rebuilt, built, returned⟩ := bind_eq_ok.mp returned
        rw [rebuild_eq_dump] at built
        obtain ⟨rows, dumpedRows, built⟩ := bind_eq_ok.mp built
        refine ⟨?_, fun _ => ⟨rows, dumpedRows⟩⟩
        simp only [built, ok_bind]
        exact returned
  · rintro ⟨returned, dumps⟩
    obtain ⟨key, converted, returned⟩ := bind_eq_ok.mp returned
    obtain ⟨folded, lowered, returned⟩ := bind_eq_ok.mp returned
    obtain ⟨found, compared, returned⟩ := bind_eq_ok.mp returned
    rw [converted, ok_bind, lowered, ok_bind, compared, ok_bind]
    cases found with
    | none => exact returned
    | some lengthStart =>
        obtain ⟨rebuilt, built, finished⟩ := bind_eq_ok.mp returned
        cases finished
        obtain ⟨rows, dumpedRows⟩ := dumps rfl
        simp only [rebuild_eq_dump dumped, dumpedRows, built, ok_bind]
        rfl

theorem entryTurn_dumped_iff :
    entryTurn convertSize dumped srcLength currentLines left right header middle =
        .ok state ↔
      entryTurn convertSize none srcLength currentLines left right header middle =
        .ok state ∧ (state.substitution.isSome -> DumpReturns dumped srcLength) := by
  simp only [entryTurn]
  split
  case isTrue => exact tryEntry_dumped_iff dumped
  case isFalse =>
    refine ⟨fun returned => ⟨returned, fun substituted => ?_⟩, fun both => both.1⟩
    cases returned
    cases substituted

/-- What the loop dumps matters only if it substitutes. -/
theorem entryLoop_dumped_iff {token : Option (Bytes × Bytes)} :
    entryLoop convertSize dumped srcLength token currentLines left right header middle =
        .ok state ↔
      entryLoop convertSize none srcLength token currentLines left right header middle =
        .ok state ∧ (state.substitution.isSome -> DumpReturns dumped srcLength) := by
  induction token using strtok_induction lineDelimiters
    generalizing currentLines left right header middle with
  | ended =>
      rw [entryLoop, entryLoop]
      refine ⟨fun returned => ⟨returned, fun substituted => ?_⟩, fun both => both.1⟩
      cases returned
      cases substituted
  | found p cursor inductionHypothesis =>
      rw [entryLoop_some, entryLoop_some]
      constructor
      · intro returned
        obtain ⟨parts, split, returned⟩ := bind_eq_ok.mp returned
        obtain ⟨turn, turned, returned⟩ := bind_eq_ok.mp returned
        obtain ⟨turned, dumps⟩ := (entryTurn_dumped_iff dumped).mp turned
        rw [split, ok_bind, turned, ok_bind]
        split at returned
        case isTrue substituted =>
          rw [if_pos substituted]
          cases returned
          exact ⟨rfl, dumps⟩
        case isFalse passed =>
          rw [if_neg passed]
          obtain ⟨next, scanned, returned⟩ := bind_eq_ok.mp returned
          rw [scanned, ok_bind]
          exact (inductionHypothesis next scanned).mp returned
      · rintro ⟨returned, dumps⟩
        obtain ⟨parts, split, returned⟩ := bind_eq_ok.mp returned
        obtain ⟨turn, turned, returned⟩ := bind_eq_ok.mp returned
        rw [split, ok_bind]
        split at returned
        case isTrue substituted =>
          cases returned
          rw [(entryTurn_dumped_iff dumped).mpr ⟨turned, dumps⟩, ok_bind, if_pos substituted]
        case isFalse passed =>
          have turnedToo : entryTurn convertSize dumped srcLength currentLines
              parts.1 parts.2 header middle = .ok turn :=
            (entryTurn_dumped_iff dumped).mpr
              ⟨turned, fun substituted => absurd substituted passed⟩
          rw [turnedToo, ok_bind, if_neg passed]
          obtain ⟨next, scanned, returned⟩ := bind_eq_ok.mp returned
          rw [scanned, ok_bind]
          exact (inductionHypothesis next scanned).mpr ⟨returned, dumps⟩

end

/-- What the walk dumps matters only if it substitutes. -/
theorem walkTable_dumped_iff
    (dumped : Option Region)
    {convertSize : Nat} {globals : Globals} {target : Region} {srcLength : Int}
    {header middle : Bytes} {state : LoopState} :
    walkTable convertSize globals target dumped srcLength header middle = .ok state ↔
      walkTable convertSize globals target none srcLength header middle = .ok state ∧
        (state.substitution.isSome -> DumpReturns dumped srcLength) := by
  simp only [walkTable, bind_eq_ok, entryLoop_dumped_iff dumped]
  constructor
  · rintro ⟨cleared, clearedHeader, copied, copiedHeader, zeroed, zeroedMiddle, filled,
      filledMiddle, temp, readTemp, token, scanned, looped, dumps⟩
    exact ⟨⟨cleared, clearedHeader, copied, copiedHeader, zeroed, zeroedMiddle, filled,
      filledMiddle, temp, readTemp, token, scanned, looped⟩, dumps⟩
  · rintro ⟨⟨cleared, clearedHeader, copied, copiedHeader, zeroed, zeroedMiddle, filled,
      filledMiddle, temp, readTemp, token, scanned, looped⟩, dumps⟩
    exact ⟨cleared, clearedHeader, copied, copiedHeader, zeroed, zeroedMiddle, filled,
      filledMiddle, temp, readTemp, token, scanned, looped, dumps⟩

end TextHook
end UnityLocalization
