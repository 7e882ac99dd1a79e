import Mathlib.Data.List.Basic
import Mathlib.Order.Nat
import Rebrace.Buffer

/-!
# Blocks and the braces that close them

A pass that adds braces reads the extent of each block from lines into which it has already put the
closing braces of earlier headers.  This file shows that these braces never change an extent.

`blockBody_cons_of_blank`, `blockBody_cons_of_deeper` and `blockBody_cons_of_shallow` read a block
line by line, and `blockBody_drop` says that the block of a header, seen from one of its own lines,
is what is left of it.  `weave opens below` is the state of the lines below a pass: the lines as
they were given, with the closing brace of every open block after the end of that block.  The main
statements are `blockBody_weave`, by which a header that is nested in the open blocks has the same
block among the woven lines as among the given ones, and `weave_cons_eq_blockBody_append`, by which
closing this block is the same as adding one more open block.
-/

namespace Rebrace

open Text

/-! ### Reading a block line by line -/

/-- A closing brace is not blank. -/
@[simp] lemma isBlank_closingLine (indent : Nat) : isBlank (closingLine indent) = false := by
  have hbrace : isWhite '\x7d' = false := by decide
  simp [isBlank, closingLine, hbrace]

/-- Blank lines at the end are dropped one by one: a line stays if it is not blank or if some line
below it stays. -/
lemma dropBlankEnd_cons (line : Text) (lines : List Text) :
    dropBlankEnd (line :: lines) =
      if dropBlankEnd lines = [] ∧ isBlank line = true then [] else line :: dropBlankEnd lines := by
  unfold dropBlankEnd
  rw [List.reverse_cons, List.dropWhile_append]
  cases hrest : lines.reverse.dropWhile isBlank with
  | nil => cases hline : isBlank line <;> simp [hline]
  | cons first rest => simp

@[simp] lemma blockBody_nil (indent : Nat) : blockBody indent [] = [] := rfl

/-- A blank line belongs to a block if the block goes on below it. -/
lemma blockBody_cons_of_blank {line : Text} (hline : isBlank line = true) (indent : Nat)
    (below : List Text) :
    blockBody indent (line :: below) =
      if blockBody indent below = [] then [] else line :: blockBody indent below := by
  have hinside : isInside indent line = true := by simp [isInside, hline]
  unfold blockBody
  rw [List.takeWhile_cons, if_pos hinside, dropBlankEnd_cons]
  simp [hline]

/-- A line that is indented deeper than the header belongs to its block. -/
lemma blockBody_cons_of_deeper {line : Text} {indent : Nat} (hline : isBlank line = false)
    (hdeep : indent < leadingSpaces line) (below : List Text) :
    blockBody indent (line :: below) = line :: blockBody indent below := by
  have hinside : isInside indent line = true := by simp [isInside, hdeep]
  unfold blockBody
  rw [List.takeWhile_cons, if_pos hinside, dropBlankEnd_cons]
  simp [hline]

/-- A line that is no deeper than the header ends its block. -/
lemma blockBody_cons_of_shallow {line : Text} {indent : Nat} (hline : isBlank line = false)
    (hshallow : leadingSpaces line ≤ indent) (below : List Text) :
    blockBody indent (line :: below) = [] := by
  have houtside : isInside indent line = false := by simp [isInside, hline, hshallow]
  unfold blockBody
  rw [List.takeWhile_cons, if_neg (by simp [houtside])]
  rfl

/-- A closing brace ends every block of a deeper header. -/
lemma blockBody_closingLine_cons {inner outer : Nat} (h : outer ≤ inner) (below : List Text) :
    blockBody inner (closingLine outer :: below) = [] :=
  blockBody_cons_of_shallow (by simp) (by simpa using h) below

/-- A block that is not empty starts with the line directly below the header. -/
lemma blockBody_cons_of_ne_nil {line : Text} {indent : Nat} {below : List Text}
    (h : blockBody indent (line :: below) ≠ []) :
    blockBody indent (line :: below) = line :: blockBody indent below := by
  cases hline : isBlank line with
  | true =>
    rw [blockBody_cons_of_blank hline] at h ⊢
    split at h
    · exact absurd rfl h
    · rename_i hbelow
      rw [if_neg hbelow]
  | false =>
    by_cases hdeep : indent < leadingSpaces line
    · exact blockBody_cons_of_deeper hline hdeep below
    · exact absurd (blockBody_cons_of_shallow hline (by omega) below) h

/-- A line that is not blank and starts a block is deeper than its header. -/
lemma lt_leadingSpaces_of_blockBody_ne_nil {line : Text} {indent : Nat} {below : List Text}
    (hline : isBlank line = false) (h : blockBody indent (line :: below) ≠ []) :
    indent < leadingSpaces line := by
  by_contra hshallow
  exact h (blockBody_cons_of_shallow hline (by omega) below)

/-- Seen from one of its own lines, a block is what is left of it. -/
lemma blockBody_drop (indent j : Nat) (below : List Text)
    (hj : j ≤ (blockBody indent below).length) :
    blockBody indent (below.drop j) = (blockBody indent below).drop j := by
  induction below generalizing j with
  | nil => simp
  | cons line below ih =>
    cases j with
    | zero => simp
    | succ j =>
      have hne : blockBody indent (line :: below) ≠ [] := by
        intro hnil
        simp [hnil] at hj
      have hcons := blockBody_cons_of_ne_nil hne
      rw [hcons, List.length_cons] at hj
      rw [hcons, List.drop_succ_cons, List.drop_succ_cons]
      exact ih j (by omega)

/-- A header that is less indented has a longer block. -/
lemma length_blockBody_le_of_le {outer inner : Nat} (h : outer ≤ inner) (below : List Text) :
    (blockBody inner below).length ≤ (blockBody outer below).length := by
  induction below with
  | nil => simp
  | cons line below ih =>
    by_cases hinner : blockBody inner (line :: below) = []
    · simp [hinner]
    · have hcons := blockBody_cons_of_ne_nil hinner
      have houter : blockBody outer (line :: below) = line :: blockBody outer below := by
        cases hline : isBlank line with
        | false =>
          have hdeep := lt_leadingSpaces_of_blockBody_ne_nil hline hinner
          exact blockBody_cons_of_deeper hline (by omega) below
        | true =>
          rw [blockBody_cons_of_blank hline] at hinner ⊢
          have hbelow : blockBody inner below ≠ [] := by
            intro hnil
            simp [hnil] at hinner
          have hpos := List.length_pos_of_ne_nil hbelow
          exact if_neg (List.ne_nil_of_length_pos (by omega))
      rw [hcons, houter, List.length_cons, List.length_cons]
      omega

/-! ### The last line of a block -/

/-- The last line of the block of a header stands as many lines below it as the block has. -/
lemma Buffer.blockEnd?_of_line {b : Buffer} {k : Nat} {line : Text} (hline : b.line? k = some line)
    (hblank : isBlank line = false) :
    b.blockEnd? k =
      some (k + (blockBody (leadingSpaces line) (b.lines.drop (k + 1))).length) := by
  simp [Buffer.blockEnd?, hline, hblank]

/-- A block ends at or below its header, inside the buffer. -/
lemma Buffer.le_and_lt_of_blockEnd? {b : Buffer} {k last : Nat} (h : b.blockEnd? k = some last) :
    k ≤ last ∧ last < b.lines.length := by
  unfold Buffer.blockEnd? Buffer.line? at h
  obtain ⟨line, hline, rfl⟩ := Option.map_eq_some_iff.1 h
  have hk : k < b.lines.length := (List.getElem?_eq_some_iff.1 hline).1
  have hle := (blockBody_isPrefix (leadingSpaces line) (b.lines.drop (k + 1))).length_le
  rw [List.length_drop] at hle
  split <;> omega

/-! ### Open blocks -/

/-- Has the block of a header with this indentation no line left among the lines `below`? -/
def isOver (below : List Text) (indent : Nat) : Bool :=
  (blockBody indent below).isEmpty

lemma isOver_iff {below : List Text} {indent : Nat} :
    isOver below indent = true ↔ blockBody indent below = [] := by
  simp [isOver]

lemma isOver_eq_false_iff {below : List Text} {indent : Nat} :
    isOver below indent = false ↔ blockBody indent below ≠ [] := by
  simp [isOver]

/-- A block that goes on keeps every block around it open. -/
lemma isOver_eq_false_of_le {below : List Text} {outer inner : Nat} (h : outer ≤ inner)
    (hinner : isOver below inner = false) : isOver below outer = false := by
  rw [isOver_eq_false_iff] at hinner ⊢
  have hpos := List.length_pos_of_ne_nil hinner
  have hle := length_blockBody_le_of_le h below
  exact List.ne_nil_of_length_pos (by omega)

/-- The lines `below`, where each of the open blocks, of headers with the indentations `opens`, is
closed by a brace directly after its last line.  Blocks that end together are closed in the order of
`opens`. -/
def weave (opens : List Nat) : (below : List Text) → List Text
  | [] => opens.map closingLine
  | line :: below =>
    (opens.filter (isOver (line :: below))).map closingLine ++
      line :: weave (opens.filter fun indent => !isOver (line :: below) indent) below

/-- Without open blocks there is nothing to close. -/
@[simp] lemma weave_nil_left (below : List Text) : weave [] below = below := by
  induction below with
  | nil => rfl
  | cons line below ih => simp [weave, ih]

/-- The blocks that are over are closed first. -/
lemma weave_eq_append (opens : List Nat) (below : List Text) :
    weave opens below =
      (opens.filter (isOver below)).map closingLine ++
        weave (opens.filter fun indent => !isOver below indent) below := by
  cases below with
  | nil =>
    have hover : opens.filter (isOver []) = opens := List.filter_eq_self.2 fun _ _ => rfl
    have hopen : (opens.filter fun indent => !isOver [] indent) = [] :=
      List.filter_eq_nil_iff.2 fun _ _ => by simp [isOver]
    rw [hover, hopen]
    simp [weave]
  | cons line below => simp [weave, List.filter_filter]

/-- A block that is over is closed at once. -/
lemma weave_cons_of_isOver {opens : List Nat} {below : List Text} {indent : Nat}
    (h : isOver below indent = true) :
    weave (indent :: opens) below = closingLine indent :: weave opens below := by
  cases below with
  | nil => rfl
  | cons line below => simp [weave, h]

/-- While no open block is over, the next line is passed. -/
lemma weave_cons_of_open {opens : List Nat} {line : Text} {below : List Text}
    (h : ∀ indent ∈ opens, isOver (line :: below) indent = false) :
    weave opens (line :: below) = line :: weave opens below := by
  have hover : opens.filter (isOver (line :: below)) = [] := by
    rw [List.filter_eq_nil_iff]
    intro indent hmem
    simp [h indent hmem]
  have hopen : (opens.filter fun indent => !isOver (line :: below) indent) = opens := by
    rw [List.filter_eq_self]
    intro indent hmem
    simp [h indent hmem]
  rw [weave, hover, hopen]
  rfl

/-- The lines that belong to all open blocks are passed unchanged. -/
lemma weave_drop {opens : List Nat} {m : Nat} {below : List Text}
    (h : ∀ indent ∈ opens, m ≤ (blockBody indent below).length) :
    weave opens (below.drop m) = (weave opens below).drop m := by
  induction m generalizing below with
  | zero => simp
  | succ m ih =>
    cases below with
    | nil =>
      cases opens with
      | nil => simp
      | cons indent opens => simpa using h indent (by simp)
    | cons line below =>
      have hne : ∀ indent ∈ opens, blockBody indent (line :: below) ≠ [] := by
        intro indent hmem hnil
        simpa [hnil] using h indent hmem
      have hopen : weave opens (line :: below) = line :: weave opens below :=
        weave_cons_of_open fun indent hmem => isOver_eq_false_iff.2 (hne indent hmem)
      rw [hopen, List.drop_succ_cons, List.drop_succ_cons]
      refine ih fun indent hmem => ?_
      have hlen := h indent hmem
      rw [blockBody_cons_of_ne_nil (hne indent hmem), List.length_cons] at hlen
      omega

/-! ### A header inside the open blocks -/

section Nested

variable {opens : List Nat} {indent : Nat}

/-- Where the block of a nested header is over, the braces around it do not reopen it. -/
lemma blockBody_weave_of_isOver (hnested : ∀ outer ∈ opens, outer < indent) {below : List Text}
    (hover : blockBody indent below = []) : blockBody indent (weave opens below) = [] := by
  induction below generalizing opens with
  | nil =>
    cases opens with
    | nil => rfl
    | cons outer opens =>
      exact blockBody_closingLine_cons (Nat.le_of_lt (hnested outer (by simp))) _
  | cons line below ih =>
    rw [weave]
    cases hclosed : opens.filter (isOver (line :: below)) with
    | cons outer closed =>
      have hmem : outer ∈ opens :=
        List.mem_of_mem_filter (hclosed ▸ List.mem_cons_self)
      exact blockBody_closingLine_cons (Nat.le_of_lt (hnested outer hmem)) _
    | nil =>
      rw [List.map_nil, List.nil_append]
      cases hline : isBlank line with
      | false =>
        have hshallow : leadingSpaces line ≤ indent := by
          by_contra hdeep
          rw [blockBody_cons_of_deeper hline (by omega)] at hover
          exact List.cons_ne_nil _ _ hover
        exact blockBody_cons_of_shallow hline hshallow _
      | true =>
        have hbelow : blockBody indent below = [] := by
          by_contra hne
          rw [blockBody_cons_of_blank hline, if_neg hne] at hover
          exact List.cons_ne_nil _ _ hover
        have hrest : ∀ outer ∈ opens.filter (fun outer => !isOver (line :: below) outer),
            outer < indent := fun outer hmem => hnested outer (List.mem_of_mem_filter hmem)
        rw [blockBody_cons_of_blank hline, if_pos (ih hrest hbelow)]

/-- A header that is nested in the open blocks has the same block among the woven lines as among the
given ones. -/
lemma blockBody_weave (hnested : ∀ outer ∈ opens, outer < indent) (below : List Text) :
    blockBody indent (weave opens below) = blockBody indent below := by
  induction below with
  | nil => exact blockBody_weave_of_isOver hnested rfl
  | cons line below ih =>
    by_cases hover : blockBody indent (line :: below) = []
    · rw [hover, blockBody_weave_of_isOver hnested hover]
    · have hopen : ∀ outer ∈ opens, isOver (line :: below) outer = false := fun outer hmem =>
        isOver_eq_false_of_le (Nat.le_of_lt (hnested outer hmem)) (isOver_eq_false_iff.2 hover)
      rw [weave_cons_of_open hopen, blockBody_cons_of_ne_nil hover]
      -- The first line stays in the block, since the block below it is the same by induction.
      cases hline : isBlank line with
      | false =>
        have hdeep := lt_leadingSpaces_of_blockBody_ne_nil hline hover
        rw [blockBody_cons_of_deeper hline hdeep, ih]
      | true =>
        have hbelow : blockBody indent below ≠ [] := by
          intro hnil
          exact hover (by rw [blockBody_cons_of_blank hline, if_pos hnil])
        rw [blockBody_cons_of_blank hline, ih, if_neg hbelow]

/-- Closing the block of a nested header adds it to the open blocks. -/
lemma weave_cons_eq_blockBody_append (hnested : ∀ outer ∈ opens, outer < indent)
    (below : List Text) :
    weave (indent :: opens) below =
      blockBody indent (weave opens below) ++
        closingLine indent :: blockRest indent (weave opens below) := by
  have hblock := blockBody_weave hnested below
  unfold blockRest
  rw [hblock]
  induction below with
  | nil => simp [weave]
  | cons line below ih =>
    by_cases hover : blockBody indent (line :: below) = []
    · rw [weave_cons_of_isOver (isOver_iff.2 hover), hover]
      simp
    · have hopen : ∀ outer ∈ indent :: opens, isOver (line :: below) outer = false := by
        intro outer hmem
        rcases List.mem_cons.1 hmem with rfl | hmem
        · exact isOver_eq_false_iff.2 hover
        · exact isOver_eq_false_of_le (Nat.le_of_lt (hnested outer hmem))
            (isOver_eq_false_iff.2 hover)
      rw [weave_cons_of_open hopen, blockBody_cons_of_ne_nil hover,
        weave_cons_of_open fun outer hmem => hopen outer (List.mem_cons_of_mem _ hmem),
        ih (blockBody_weave hnested below)]
      simp

end Nested

end Rebrace
