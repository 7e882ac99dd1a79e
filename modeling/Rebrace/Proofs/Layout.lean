import Rebrace.Proofs.Blocks

/-!
# Where the closing braces go

The rows of a buffer at which a pass has to close blocks can be read off the given lines, before
anything is rewritten.  `Buffer.closingsAt` lists the closing braces that belong directly after a
row, and `Buffer.opensAt` the blocks that are still open in front of it.

`weave_opensAt` is the step from one row to the next: after a row, the lines below a pass are the
closing braces that belong there, followed by the lines below the next row.  It allows for rows that
the pass leaves out, as long as they lie inside every open block.
-/

namespace Rebrace

open Text

/-! ### Headers by row

A pass looks at some of the rows of a buffer as headers.  A function `indent?` gives the indentation
of the header for each of these rows, and nothing for the others. -/

/-- The rows with an indentation are rows of the buffer, not blank, and indented so. -/
def MarksHeaders (b : Buffer) (indent? : Nat → Option Nat) : Prop :=
  ∀ k indent, indent? k = some indent →
    ∃ line, b.line? k = some line ∧ isBlank line = false ∧ leadingSpaces line = indent

namespace Buffer

/-- The closing braces of the blocks that end at row `k`, that of the latest header first. -/
def closingsAt (b : Buffer) (indent? : Nat → Option Nat) (k : Nat) : List Text :=
  (List.range b.lines.length).reverse.filterMap fun h =>
    if b.blockEnd? h = some k then (indent? h).map closingLine else none

/-- The indentations of the headers in the rows `rows` whose blocks reach row `k`. -/
def opensAmong (b : Buffer) (indent? : Nat → Option Nat) (k : Nat) (rows : List Nat) : List Nat :=
  rows.filterMap fun h => if (b.blockEnd? h).any (k ≤ ·) then indent? h else none

/-- The indentations of the headers above row `k` whose blocks reach row `k`, that of the latest
header first. -/
def opensAt (b : Buffer) (indent? : Nat → Option Nat) (k : Nat) : List Nat :=
  b.opensAmong indent? k (List.range k).reverse

@[simp] lemma opensAt_zero (b : Buffer) (indent? : Nat → Option Nat) :
    b.opensAt indent? 0 = [] := rfl

/-- The first of the lines from row `k` on is the line in row `k`, and the others are those from the
next row on. -/
lemma row_of_drop_eq_cons {b : Buffer} {k : Nat} {line : Text} {below : List Text}
    (h : b.lines.drop k = line :: below) :
    k < b.lines.length ∧ b.line? k = some line ∧ b.lines.drop (k + 1) = below := by
  refine ⟨?_, ?_, ?_⟩
  · by_contra hge
    rw [List.drop_eq_nil_iff.2 (by omega)] at h
    cases h
  · rw [line?, ← List.head?_drop, h]
    rfl
  · rw [← List.drop_drop, h]
    rfl

/-- All that is added after a row are closing braces. -/
lemma exists_eq_closingLine_of_mem_closingsAt {b : Buffer} {indent? : Nat → Option Nat} {k : Nat}
    {line : Text} (hmem : line ∈ b.closingsAt indent? k) : ∃ indent, line = closingLine indent := by
  obtain ⟨h, -, hline⟩ := List.mem_filterMap.1 hmem
  split at hline
  · obtain ⟨indent, -, rfl⟩ := Option.map_eq_some_iff.1 hline
    exact ⟨indent, rfl⟩
  · cases hline

lemma mem_opensAmong {b : Buffer} {indent? : Nat → Option Nat} {k indent : Nat} {rows : List Nat} :
    indent ∈ b.opensAmong indent? k rows ↔
      ∃ h ∈ rows, ∃ last, b.blockEnd? h = some last ∧ k ≤ last ∧ indent? h = some indent := by
  simp only [opensAmong, List.mem_filterMap, Option.any_eq_true, decide_eq_true_eq,
    Option.ite_none_right_eq_some]
  constructor
  · rintro ⟨h, hrow, ⟨last, hlast, hle⟩, hindent⟩
    exact ⟨h, hrow, last, hlast, hle, hindent⟩
  · rintro ⟨h, hrow, last, hlast, hle, hindent⟩
    exact ⟨h, hrow, ⟨last, hlast, hle⟩, hindent⟩

/-- Below the last row no block is open. -/
lemma opensAt_eq_nil {b : Buffer} {k : Nat} (hk : b.lines.length ≤ k)
    (indent? : Nat → Option Nat) : b.opensAt indent? k = [] := by
  rw [List.eq_nil_iff_forall_not_mem]
  intro indent hmem
  obtain ⟨h, -, last, hlast, hle, -⟩ := mem_opensAmong.1 hmem
  have hlt := (le_and_lt_of_blockEnd? hlast).2
  omega

end Buffer

section Rows

variable {b : Buffer} {indent? : Nat → Option Nat} (hmarks : MarksHeaders b indent?)

include hmarks

/-- The block of a header ends as many rows below it as it has lines. -/
lemma blockEnd?_of_marks {h indent : Nat} (hindent : indent? h = some indent) :
    b.blockEnd? h = some (h + (blockBody indent (b.lines.drop (h + 1))).length) := by
  obtain ⟨line, hline, hblank, rfl⟩ := hmarks h indent hindent
  exact Buffer.blockEnd?_of_line hline hblank

/-- What is left of a block, seen from a row that it reaches or from the row after its last one. -/
lemma length_blockBody_drop {h indent k last : Nat} (hindent : indent? h = some indent)
    (hlast : b.blockEnd? h = some last) (hhk : h < k) (hk : k ≤ last + 1) :
    (blockBody indent (b.lines.drop k)).length = last + 1 - k := by
  have hend := blockEnd?_of_marks hmarks hindent
  rw [hlast, Option.some.injEq] at hend
  obtain ⟨j, rfl⟩ := Nat.exists_eq_add_of_lt hhk
  have hdrop := blockBody_drop indent j (b.lines.drop (h + 1)) (by omega)
  rw [List.drop_drop, show h + 1 + j = h + j + 1 by omega] at hdrop
  rw [hdrop, List.length_drop]
  omega

/-- A block that reaches a row is over after it exactly if it ends there. -/
lemma isOver_drop_eq {h indent k last : Nat} (hindent : indent? h = some indent)
    (hlast : b.blockEnd? h = some last) (hhk : h ≤ k) (hk : k ≤ last) :
    isOver (b.lines.drop (k + 1)) indent = decide (last = k) := by
  have hlen := length_blockBody_drop hmarks hindent hlast (Nat.lt_succ_of_le hhk) (by omega)
  rw [Bool.eq_iff_iff, isOver_iff, ← List.length_eq_zero_iff, hlen, decide_eq_true_eq]
  omega

/-- Seen from the next row, a block that contains a row is shorter by one. -/
lemma length_blockBody_drop_succ {k indent : Nat} (hmem : indent ∈ b.opensAt indent? k) :
    (blockBody indent (b.lines.drop k)).length =
      (blockBody indent (b.lines.drop (k + 1))).length + 1 := by
  obtain ⟨h, hrow, last, hlast, hle, hindent⟩ := Buffer.mem_opensAmong.1 hmem
  have hhk : h < k := by simpa using hrow
  rw [length_blockBody_drop hmarks hindent hlast hhk (by omega),
    length_blockBody_drop hmarks hindent hlast (Nat.lt_succ_of_lt hhk) (by omega)]
  omega

/-- A block that is open in front of a row contains this row. -/
lemma blockBody_ne_nil_of_mem_opensAt {k indent : Nat} (hmem : indent ∈ b.opensAt indent? k) :
    blockBody indent (b.lines.drop k) ≠ [] := by
  have hlen := length_blockBody_drop_succ hmarks hmem
  exact List.ne_nil_of_length_pos (by omega)

/-- No block that is open in front of a row is closed there. -/
lemma weave_opensAt_cons {k : Nat} {line : Text} {below : List Text}
    (hdrop : b.lines.drop k = line :: below) :
    weave (b.opensAt indent? k) (line :: below) = line :: weave (b.opensAt indent? k) below := by
  refine weave_cons_of_open fun indent hmem => ?_
  rw [← hdrop, isOver_eq_false_iff]
  exact blockBody_ne_nil_of_mem_opensAt hmarks hmem

/-- A header is nested in the blocks that are open in front of it. -/
lemma lt_leadingSpaces_of_mem_opensAt {k indent : Nat} {line : Text} {below : List Text}
    (hdrop : b.lines.drop k = line :: below) (hblank : isBlank line = false)
    (hmem : indent ∈ b.opensAt indent? k) : indent < leadingSpaces line := by
  have hne := blockBody_ne_nil_of_mem_opensAt hmarks hmem
  rw [hdrop] at hne
  exact lt_leadingSpaces_of_blockBody_ne_nil hblank hne

/-- The blocks that reach a row are that of its own header and those open in front of it. -/
lemma opensAmong_range_succ (k : Nat) :
    b.opensAmong indent? k (List.range (k + 1)).reverse =
      (indent? k).toList ++ b.opensAt indent? k := by
  rw [List.range_succ, List.reverse_append]
  unfold Buffer.opensAt Buffer.opensAmong
  rw [List.filterMap_append]
  congr 1
  cases hindent : indent? k with
  | none => simp [hindent]
  | some indent => simp [hindent, blockEnd?_of_marks hmarks hindent]

/-- Of the blocks that reach a row, those that are over after it are closed there. -/
lemma map_closingLine_filter_isOver {k : Nat} (hk : k < b.lines.length) :
    ((b.opensAmong indent? k (List.range (k + 1)).reverse).filter
        (isOver (b.lines.drop (k + 1)))).map closingLine = b.closingsAt indent? k := by
  obtain ⟨m, hm⟩ := Nat.exists_eq_add_of_lt hk
  have hrange : List.range b.lines.length =
      List.range (k + 1) ++ (List.range m).map (k + 1 + ·) := by
    rw [hm, show k + m + 1 = k + 1 + m by omega, List.range_add]
  unfold Buffer.closingsAt Buffer.opensAmong
  rw [hrange, List.reverse_append, List.filterMap_append]
  -- Headers below row `k` end below it.
  have hbelow : ((List.range m).map (k + 1 + ·)).reverse.filterMap (fun h =>
      if b.blockEnd? h = some k then (indent? h).map closingLine else none) = [] := by
    rw [List.filterMap_eq_nil_iff]
    intro h hmem
    obtain ⟨i, -, rfl⟩ := List.mem_map.1 (List.mem_reverse.1 hmem)
    refine if_neg fun hlast => ?_
    have hle := (Buffer.le_and_lt_of_blockEnd? hlast).1
    omega
  rw [hbelow, List.nil_append, List.filter_filterMap, List.map_filterMap]
  refine List.filterMap_congr fun h hmem => ?_
  have hhk : h ≤ k := by simpa [Nat.lt_succ_iff] using hmem
  cases hindent : indent? h with
  | none => simp
  | some indent =>
    have hlast := blockEnd?_of_marks hmarks hindent
    have hover := isOver_drop_eq hmarks hindent hlast hhk
    rw [hlast]
    generalize h + (blockBody indent (b.lines.drop (h + 1))).length = last at hover
    by_cases hreach : k ≤ last
    · by_cases hend : last = k <;> simp [hreach, hover hreach, hend]
    · simp [hreach, show last ≠ k by omega]

/-- Of the blocks that reach a row, those that are not over after it reach the next row. -/
lemma filter_not_isOver (k : Nat) :
    (b.opensAmong indent? k (List.range (k + 1)).reverse).filter
        (fun indent => !isOver (b.lines.drop (k + 1)) indent) = b.opensAt indent? (k + 1) := by
  unfold Buffer.opensAt Buffer.opensAmong
  rw [List.filter_filterMap]
  refine List.filterMap_congr fun h hmem => ?_
  have hhk : h ≤ k := by simpa [Nat.lt_succ_iff] using hmem
  cases hindent : indent? h with
  | none => simp
  | some indent =>
    have hlast := blockEnd?_of_marks hmarks hindent
    have hover := isOver_drop_eq hmarks hindent hlast hhk
    rw [hlast]
    generalize h + (blockBody indent (b.lines.drop (h + 1))).length = last at hover
    simp only [Option.any_some, decide_eq_true_eq]
    by_cases hreach : k ≤ last
    · by_cases hend : last = k
      · rw [if_pos hreach, if_neg (by omega), Option.filter_some, hover hreach]
        simp [hend]
      · rw [if_pos hreach, if_pos (by omega), Option.filter_some, hover hreach]
        simp [hend]
    · rw [if_neg hreach, if_neg (by omega)]
      rfl

/-- After a row, the blocks that end there are closed, and then the lines below the next row follow.
The first `skip` lines below the row may be left out if they belong to all open blocks. -/
lemma weave_opensAt {k : Nat} (hk : k < b.lines.length) (skip : Nat)
    (hskip : ∀ indent ∈ (indent? k).toList ++ b.opensAt indent? k,
      skip ≤ (blockBody indent (b.lines.drop (k + 1))).length) :
    weave ((indent? k).toList ++ b.opensAt indent? k) (b.lines.drop (k + 1 + skip)) =
      b.closingsAt indent? k ++
        weave (b.opensAt indent? (k + 1)) (b.lines.drop (k + 1 + skip)) := by
  rw [← map_closingLine_filter_isOver hmarks hk, ← filter_not_isOver hmarks k,
    opensAmong_range_succ hmarks k]
  cases skip with
  | zero => exact weave_eq_append _ _
  | succ skip =>
    -- No block ends here, since all of them go on through the lines left out.
    have hopen : ∀ indent ∈ (indent? k).toList ++ b.opensAt indent? k,
        isOver (b.lines.drop (k + 1)) indent = false := by
      intro indent hmem
      have hpos := hskip indent hmem
      exact isOver_eq_false_iff.2 (List.ne_nil_of_length_pos (by omega))
    rw [List.filter_eq_nil_iff.2 fun indent hmem => by simp [hopen indent hmem],
      List.filter_eq_self.2 fun indent hmem => by simp [hopen indent hmem]]
    rfl

end Rows

end Rebrace
