import Mathlib.Data.Nat.Find
import Rebrace.Proofs.Closings

/-!
# The extent of a block

The block of a header is described by its last row alone: `Buffer.EndsBlock` says that all lines
with content down to this row are deeper than the header, and that the next line with content below
it is not.  There is exactly one such row, and it is the one that the search for the end of the
block finds: `Buffer.EndsBlock.unique` and `Buffer.endsBlock_of_hasContent`.

Whatever stands in a row below the end of a block, there is a line between the two that is no deeper
than the header, `Buffer.EndsBlock.exists_shallow`.  So a block that starts inside another one
cannot end outside of it: of two blocks, one lies in the other or they have no line in common.
-/

namespace Rebrace

open Text

namespace Buffer

/-- The line in the row `k` is `line`, and it is not blank. -/
def HasContent (b : Buffer) (k : Nat) (line : Text) : Prop :=
  b.line? k = some line ∧ isBlank line = false

/-- The longest block below the line `header` in the row `first` ends in the row `last`. -/
structure EndsBlock (b : Buffer) (first : Nat) (header : Text) (last : Nat) : Prop where
  /-- The block ends at its header or below it. -/
  le : first ≤ last
  /-- The block ends inside the buffer. -/
  lt : last < b.lines.length
  /-- The last line is not blank. -/
  content : ∃ line, b.HasContent last line
  /-- The lines of the block are deeper than its header, unless they are blank. -/
  deeper : ∀ k line, first < k → k ≤ last → b.HasContent k line →
    leadingSpaces header < leadingSpaces line
  /-- The first line with content below the block is not deeper than the header. -/
  shallow : ∀ k line, last < k → b.HasContent k line →
    (∀ j other, last < j → j < k → ¬ b.HasContent j other) →
    leadingSpaces line ≤ leadingSpaces header

namespace EndsBlock

variable {b : Buffer} {first last : Nat} {header : Text}

/-- Between the end of a block and a line with content below it there is a line that is not deeper
than the header. -/
lemma exists_shallow (h : b.EndsBlock first header last) {k : Nat} {line : Text} (hk : last < k)
    (hline : b.HasContent k line) :
    ∃ j other, last < j ∧ j ≤ k ∧ b.HasContent j other ∧
      leadingSpaces other ≤ leadingSpaces header := by
  classical
  -- The first line with content below the block is such a line.
  have hex : ∃ j, last < j ∧ ∃ other, b.HasContent j other := ⟨k, hk, line, hline⟩
  obtain ⟨hj, other, hother⟩ := Nat.find_spec hex
  refine ⟨Nat.find hex, other, hj, Nat.find_min' hex ⟨hk, line, hline⟩, hother, ?_⟩
  refine h.shallow _ other hj hother ?_
  intro i between hi hlt hbetween
  exact Nat.find_min hex hlt ⟨hi, between, hbetween⟩

/-- A block has no other end further down. -/
lemma le_of_endsBlock (h : b.EndsBlock first header last) {last' : Nat}
    (h' : b.EndsBlock first header last') : last' ≤ last := by
  by_contra hlt
  obtain ⟨line, hline⟩ := h'.content
  obtain ⟨j, other, hj, hj', hother, hshallow⟩ := h.exists_shallow (by omega) hline
  have hdeep := h'.deeper j other (by have := h.le; omega) hj' hother
  omega

/-- **A block has one end.** -/
lemma unique (h : b.EndsBlock first header last) {last' : Nat}
    (h' : b.EndsBlock first header last') : last' = last :=
  le_antisymm (h.le_of_endsBlock h') (h'.le_of_endsBlock h)

/-- **A block that starts inside another one ends inside of it.** -/
lemma le_of_nested (h : b.EndsBlock first header last) {j last' : Nat} {inner : Text}
    (hinner : b.HasContent j inner) (hj : first < j) (hj' : j ≤ last)
    (h' : b.EndsBlock j inner last') : last' ≤ last := by
  by_contra hlt
  obtain ⟨line, hline⟩ := h'.content
  obtain ⟨k, other, hk, hk', hother, hshallow⟩ := h.exists_shallow (by omega) hline
  have houter := h.deeper j inner hj hj' hinner
  have hdeep := h'.deeper k other (by omega) hk' hother
  omega

end EndsBlock

/-- The lines below a row, counted from there on. -/
lemma line?_below (b : Buffer) (first i : Nat) :
    b.line? (first + i + 1) = (b.lines.drop (first + 1))[i]? := by
  rw [line?, List.getElem?_drop, Nat.add_right_comm]

/-- The first line with content below a block is not deeper than its header. -/
lemma leadingSpaces_le_of_blockRest {indent : Nat} {below passed rest : List Text} {line : Text}
    (h : blockRest indent below = passed ++ line :: rest)
    (hpassed : ∀ other ∈ passed, isBlank other = true) (hline : isBlank line = false) :
    leadingSpaces line ≤ indent := by
  have hover : blockBody indent (passed ++ line :: rest) = [] := by
    rw [← h, blockRest, blockBody_drop indent _ below le_rfl, List.drop_length]
  by_contra hdeep
  refine absurd hover ?_
  clear h hover
  induction passed with
  | nil => simp [blockBody_cons_of_deeper hline (Nat.lt_of_not_le hdeep)]
  | cons other passed ih =>
    rw [List.forall_mem_cons] at hpassed
    rw [List.cons_append, blockBody_cons_of_blank hpassed.1, if_neg (ih hpassed.2)]
    simp

/-- **The search for the end of a block finds it.** -/
lemma endsBlock_of_hasContent {b : Buffer} {first : Nat} {header : Text}
    (h : b.HasContent first header) :
    ∃ last, b.blockEnd? first = some last ∧ b.EndsBlock first header last := by
  obtain ⟨hheader, hblank⟩ := h
  have hend := blockEnd?_of_line hheader hblank
  obtain ⟨hle, hlt⟩ := le_and_lt_of_blockEnd? hend
  have hbelow := blockBody_append_blockRest (leadingSpaces header) (b.lines.drop (first + 1))
  generalize hbody : blockBody (leadingSpaces header) (b.lines.drop (first + 1)) = body
    at hend hle hlt hbelow
  generalize hrest : blockRest (leadingSpaces header) (b.lines.drop (first + 1)) = rest at hbelow
  refine ⟨_, hend, hle, hlt, ?_, ?_, ?_⟩
  · rcases List.eq_nil_or_concat' body with rfl | ⟨init, line, rfl⟩
    · exact ⟨header, hheader, hblank⟩
    · refine ⟨line, ?_, isBlank_of_getLast?_dropBlankEnd (hbody ▸ List.getLast?_concat)⟩
      rw [List.length_append, List.length_singleton, ← Nat.add_assoc, line?_below, ← hbelow]
      simp
  · rintro k line hk hk' ⟨hline, hcontent⟩
    obtain ⟨i, rfl⟩ := Nat.exists_eq_add_of_lt hk
    rw [line?_below, ← hbelow, List.getElem?_append_left (by omega)] at hline
    have hinside := isInside_of_mem_blockBody (hbody ▸ List.mem_of_getElem? hline)
    simpa [isInside, hcontent] using hinside
  · rintro k line hk ⟨hline, hcontent⟩ hbetween
    obtain ⟨i, rfl⟩ := Nat.exists_eq_add_of_lt hk
    have hrow : ∀ j, b.line? (first + body.length + j + 1) = rest[j]? := by
      intro j
      rw [Nat.add_assoc first, line?_below, ← hbelow, List.getElem?_append_right (by omega),
        Nat.add_sub_cancel_left]
    rw [hrow] at hline
    obtain ⟨hi, hget⟩ := List.getElem?_eq_some_iff.1 hline
    have hsplit : rest = rest.take i ++ line :: rest.drop (i + 1) := by
      rw [← hget, ← List.drop_eq_getElem_cons, List.take_append_drop]
    refine leadingSpaces_le_of_blockRest (hrest.trans hsplit) ?_ hcontent
    intro other hother
    obtain ⟨j, hj, rfl⟩ := List.mem_take_iff_getElem.1 hother
    by_contra hnot
    refine hbetween (first + body.length + j + 1) rest[j] (by omega) (by omega)
      ⟨?_, by simpa using hnot⟩
    rw [hrow, List.getElem?_eq_getElem]

/-- A line that is blank ends its own block, and for every other line the end of its block is
found. -/
lemma exists_blockEnd? {b : Buffer} {k : Nat} (hk : k < b.lines.length) :
    ∃ line last, b.line? k = some line ∧ b.blockEnd? k = some last ∧
      (isBlank line = true ∧ last = k ∨ isBlank line = false ∧ b.EndsBlock k line last) := by
  obtain ⟨line, hline⟩ : ∃ line, b.line? k = some line := ⟨_, List.getElem?_eq_getElem hk⟩
  cases hblank : isBlank line with
  | true => exact ⟨line, k, hline, by simp [blockEnd?, hline, hblank], .inl ⟨hblank, rfl⟩⟩
  | false =>
    obtain ⟨last, hend, hends⟩ := endsBlock_of_hasContent ⟨hline, hblank⟩
    exact ⟨line, last, hline, hend, .inr ⟨hblank, hends⟩⟩

/-- **Blocks are the longest ones, and they are nested.**  For a line that is not blank, the row
that is found is the one row in which its block ends.  Of two lines, the lower one stands below the
block of the upper one, or its own block ends inside that block, and then it is deeper unless it is
blank. -/
theorem blockEnd?_maximal_and_nested (b : Buffer) :
    (∀ first header, b.HasContent first header →
      ∃ last, b.blockEnd? first = some last ∧
        ∀ row, b.EndsBlock first header row ↔ row = last) ∧
      ∀ i j, i < j → j < b.lines.length →
        ∃ outer inner lastOuter lastInner, b.line? i = some outer ∧ b.line? j = some inner ∧
          b.blockEnd? i = some lastOuter ∧ b.blockEnd? j = some lastInner ∧
          (lastOuter < j ∨ lastInner ≤ lastOuter ∧
            (isBlank inner = false → leadingSpaces outer < leadingSpaces inner)) := by
  constructor
  · intro first header hheader
    obtain ⟨last, hend, hends⟩ := endsBlock_of_hasContent hheader
    refine ⟨last, hend, fun row => ⟨hends.unique, ?_⟩⟩
    rintro rfl
    exact hends
  · intro i j hij hj
    obtain ⟨outer, lastOuter, houter, hend, hcases⟩ := exists_blockEnd? (hij.trans hj)
    obtain ⟨inner, lastInner, hinner, hend', hcases'⟩ := exists_blockEnd? hj
    refine ⟨outer, inner, lastOuter, lastInner, houter, hinner, hend, hend', ?_⟩
    rw [or_iff_not_imp_left, not_lt]
    intro hj'
    rcases hcases with ⟨-, rfl⟩ | ⟨-, hends⟩
    · exact absurd hij (by omega)
    · rcases hcases' with ⟨hblank, rfl⟩ | ⟨hcontent, hends'⟩
      · exact ⟨hj', by simp [hblank]⟩
      · exact ⟨hends.le_of_nested ⟨hinner, hcontent⟩ hij hj' hends',
          fun _ => hends.deeper j inner hij hj' ⟨hinner, hcontent⟩⟩

/-- A block with a blank line in it and a line of white space behind it, and a block inside it. -/
theorem blockEnd?_maximal_and_nested_of_blank_lines :
    ∃ b : Buffer, b.lines = ["def f():", "    if x:", "        a", "", "    b", "  ", "g()"] ∧
      b.EndsBlock 0 "def f():" 4 ∧
      ∃ last, b.blockEnd? 1 = some last ∧ last ≤ 4 ∧
        leadingSpaces "def f():" < leadingSpaces "    if x:" := by
  let b : Buffer :=
    { lines := ["def f():", "    if x:", "        a", "", "    b", "  ", "g()"] }
  have hlast : b.blockEnd? 0 = some 4 := by decide
  obtain ⟨hmaximal, hnested⟩ := b.blockEnd?_maximal_and_nested
  obtain ⟨last, hend, hends⟩ := hmaximal 0 "def f():" ⟨by decide, by decide⟩
  obtain ⟨outer, inner, lastOuter, lastInner, houter, hinner, hend', hinnerEnd, hcases⟩ :=
    hnested 0 1 (by decide) (by decide)
  obtain rfl : 4 = lastOuter := Option.some.inj (hlast.symm.trans hend')
  obtain rfl : "def f():".toList = outer := Option.some.inj houter
  obtain rfl : "    if x:".toList = inner := Option.some.inj hinner
  obtain ⟨hle, hdeep⟩ := hcases.resolve_left (by decide)
  exact ⟨b, rfl, (hends 4).2 (Option.some.inj (hlast.symm.trans hend)), lastInner, hinnerEnd, hle,
    hdeep (by decide)⟩

end Buffer

end Rebrace
