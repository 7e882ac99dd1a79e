import Mathlib.Data.List.Basic
import Mathlib.Data.List.TakeWhile
import Rebrace.Proofs.Blocks

/-!
# Lines that close a block

A block is closed if it is followed by a closing brace at the indentation of its header, or by a
clause that begins with such a brace.  `closedBelow_iff` says this without reference to the end of
the block, and the lemmas after it say what may be put into the lines below a header, or taken out
of them, without opening its block again.  A pass over headers does to the blocks around a header
what `ClosedBelow.reopen` says.
-/

namespace Rebrace

open Text

/-! ### Lines that close a block -/

/-- The line closes the block of a header with this indentation: it is the closing brace, or a
clause behind the closing brace. -/
def Closes (indent : Nat) (line : Text) : Prop :=
  line = closingLine indent ∨ ∃ rest, line = closingLine indent ++ ' ' :: rest

/-- Among the lines below a header with this indentation, the block of the header is followed by a
line that closes it. -/
def ClosedBelow (indent : Nat) (below : List Text) : Prop :=
  ∃ closing rest, blockRest indent below = closing :: rest ∧ Closes indent closing

namespace Closes

variable {indent : Nat} {line : Text}

/-- A line that closes a block is not blank. -/
lemma isBlank_eq_false (h : Closes indent line) : isBlank line = false := by
  have hclosing := isBlank_closingLine indent
  rcases h with rfl | ⟨rest, rfl⟩
  · exact hclosing
  · simp only [isBlank, List.all_append, Bool.and_eq_false_iff]
    exact Or.inl hclosing

/-- A line that closes a block has the indentation of its header. -/
lemma leadingSpaces_eq (h : Closes indent line) : leadingSpaces line = indent := by
  rcases h with rfl | ⟨rest, rfl⟩
  · exact leadingSpaces_closingLine indent
  · simp [leadingSpaces, closingLine, spaces]

/-- A line that closes a block stands outside of it. -/
lemma isInside_eq_false (h : Closes indent line) : isInside indent line = false := by
  simp [isInside, h.isBlank_eq_false, h.leadingSpaces_eq]

end Closes

/-- What stands inside a block stands inside every block around it. -/
lemma isInside_of_le {outer inner : Nat} (h : outer ≤ inner) {line : Text}
    (hline : isInside inner line = true) : isInside outer line = true := by
  simp only [isInside, Bool.or_eq_true, decide_eq_true_eq] at hline ⊢
  rcases hline with hblank | hdeep
  · exact Or.inl hblank
  · exact Or.inr (by omega)

/-- The lines of a block stand inside of it. -/
lemma isInside_of_mem_blockBody {indent : Nat} {below : List Text} {line : Text}
    (h : line ∈ blockBody indent below) : isInside indent line = true :=
  List.mem_takeWhile_imp ((dropBlankEnd_isPrefix _).subset h)

/-- The lines without blank ones at the end do not end with a blank one. -/
lemma isBlank_of_getLast?_dropBlankEnd {lines : List Text} {line : Text}
    (h : (dropBlankEnd lines).getLast? = some line) : isBlank line = false := by
  unfold dropBlankEnd at h
  rw [List.getLast?_reverse] at h
  have hnot := List.head?_dropWhile_not isBlank lines.reverse
  rw [h] at hnot
  simpa using hnot

/-- Lines that do not end with a blank one lose nothing. -/
lemma dropBlankEnd_eq_self {lines : List Text}
    (h : ∀ line, lines.getLast? = some line → isBlank line = false) :
    dropBlankEnd lines = lines := by
  induction lines with
  | nil => rfl
  | cons line lines ih =>
    cases hlines : lines with
    | nil =>
      have hline : isBlank line = false := h line (by simp [hlines])
      rw [dropBlankEnd_cons, if_neg (by simp [hline])]
      rfl
    | cons next rest =>
      have hrest : dropBlankEnd lines = lines := by
        refine ih fun last hlast => h last ?_
        rw [hlines] at hlast ⊢
        rwa [List.getLast?_cons_cons]
      rw [← hlines, dropBlankEnd_cons, hrest, if_neg (by simp [hlines])]

/-- The block of a header is closed if lines inside of it, of which the last one is not blank, are
followed by a line that closes it. -/
lemma closedBelow_iff {indent : Nat} {below : List Text} :
    ClosedBelow indent below ↔
      ∃ body closing rest, below = body ++ closing :: rest ∧
        (∀ line ∈ body, isInside indent line = true) ∧
        (∀ line, body.getLast? = some line → isBlank line = false) ∧ Closes indent closing := by
  constructor
  · rintro ⟨closing, rest, hrest, hcloses⟩
    refine ⟨blockBody indent below, closing, rest, ?_, ?_, ?_, hcloses⟩
    · rw [← hrest, blockBody_append_blockRest]
    · exact fun line hline => isInside_of_mem_blockBody hline
    · exact fun line hline => isBlank_of_getLast?_dropBlankEnd hline
  · rintro ⟨body, closing, rest, rfl, hinside, hlast, hcloses⟩
    have hbody : blockBody indent (body ++ closing :: rest) = body := by
      unfold blockBody
      rw [List.takeWhile_append_of_pos hinside,
        List.takeWhile_cons_of_neg (by simp [hcloses.isInside_eq_false]), List.append_nil]
      exact dropBlankEnd_eq_self hlast
    refine ⟨closing, rest, ?_, hcloses⟩
    rw [blockRest, hbody, List.drop_left]

namespace ClosedBelow

variable {indent : Nat} {above below : List Text} {line : Text}

/-- What follows the closing line does not matter. -/
lemma append (h : ClosedBelow indent above) (below : List Text) :
    ClosedBelow indent (above ++ below) := by
  obtain ⟨body, closing, rest, rfl, hinside, hlast, hcloses⟩ := closedBelow_iff.1 h
  exact closedBelow_iff.2 ⟨body, closing, rest ++ below, by simp, hinside, hlast, hcloses⟩

/-- Lines inside the block can be taken away at its start. -/
lemma of_append (habove : ∀ line ∈ above, isInside indent line = true)
    (h : ClosedBelow indent (above ++ below)) : ClosedBelow indent below := by
  obtain ⟨body, closing, rest, hsplit, hinside, hlast, hcloses⟩ := closedBelow_iff.1 h
  rcases List.append_eq_append_iff.1 hsplit with ⟨mid, rfl, rfl⟩ | ⟨mid, rfl, hmid⟩
  · refine closedBelow_iff.2 ⟨mid, closing, rest, rfl, ?_, ?_, hcloses⟩
    · exact fun line hline => hinside line (List.mem_append_right _ hline)
    · intro line hline
      exact hlast line (by rw [List.getLast?_append, hline]; rfl)
  · cases mid with
    | nil =>
      rw [List.nil_append] at hmid
      exact closedBelow_iff.2 ⟨[], closing, rest, by simp [hmid], by simp, by simp, hcloses⟩
    | cons first mid =>
      rw [List.cons_append, List.cons.injEq] at hmid
      have hclosing := habove closing (by simp [hmid.1])
      rw [hcloses.isInside_eq_false] at hclosing
      cases hclosing

/-- Lines inside the block can be put in front, if the last of them is not blank. -/
lemma append_cons (habove : ∀ line ∈ above, isInside indent line = true)
    (hblank : isBlank line = false) (hdeep : indent < leadingSpaces line)
    (h : ClosedBelow indent below) : ClosedBelow indent (above ++ line :: below) := by
  obtain ⟨body, closing, rest, rfl, hinside, hlast, hcloses⟩ := closedBelow_iff.1 h
  refine closedBelow_iff.2 ⟨above ++ line :: body, closing, rest, by simp, ?_, ?_, hcloses⟩
  · intro other hother
    rcases List.mem_append.1 hother with hother | hother
    · exact habove other hother
    · rcases List.mem_cons.1 hother with rfl | hother
      · simp [isInside, hdeep]
      · exact hinside other hother
  · intro other hother
    rw [List.getLast?_append_of_ne_nil _ (by simp)] at hother
    cases body with
    | nil =>
      obtain rfl : line = other := by simpa using hother
      exact hblank
    | cons first body => exact hlast other (by rwa [List.getLast?_cons_cons] at hother)

/-- A line that is not blank closes the block, or is passed over inside of it, unless the block has
been closed above. -/
lemma cases_of_append_cons (hblank : isBlank line = false)
    (h : ClosedBelow indent (above ++ line :: below)) :
    ClosedBelow indent above ∨
      ((∀ line ∈ above, isInside indent line = true) ∧
        ((Closes indent line ∧ ∀ line, above.getLast? = some line → isBlank line = false) ∨
          (indent < leadingSpaces line ∧ ClosedBelow indent below))) := by
  obtain ⟨body, closing, rest, hsplit, hinside, hlast, hcloses⟩ := closedBelow_iff.1 h
  rcases List.append_eq_append_iff.1 hsplit with ⟨mid, rfl, hmid⟩ | ⟨mid, rfl, hmid⟩
  · have habove : ∀ line ∈ above, isInside indent line = true :=
      fun line hline => hinside line (List.mem_append_left _ hline)
    refine Or.inr ⟨habove, ?_⟩
    cases mid with
    | nil =>
      simp only [List.nil_append, List.cons.injEq] at hmid
      rw [List.append_nil] at hlast
      exact Or.inl ⟨hmid.1 ▸ hcloses, hlast⟩
    | cons first mid =>
      simp only [List.cons_append, List.cons.injEq] at hmid
      obtain ⟨rfl, rfl⟩ := hmid
      have hline := hinside line (by simp)
      have hdeep : indent < leadingSpaces line := by simpa [isInside, hblank] using hline
      refine Or.inr ⟨hdeep, closedBelow_iff.2 ⟨mid, closing, rest, rfl, ?_, ?_, hcloses⟩⟩
      · exact fun other hother => hinside other (by simp [hother])
      · intro other hother
        exact hlast other (by simp [List.getLast?_append, List.getLast?_cons, hother])
  · cases mid with
    | nil =>
      simp only [List.nil_append, List.cons.injEq] at hmid
      rw [List.append_nil]
      exact Or.inr ⟨hinside, Or.inl ⟨hmid.1 ▸ hcloses, hlast⟩⟩
    | cons first mid =>
      simp only [List.cons_append, List.cons.injEq] at hmid
      obtain ⟨rfl, -⟩ := hmid
      exact Or.inl (closedBelow_iff.2 ⟨body, closing, mid, rfl, hinside, hlast, hcloses⟩)

end ClosedBelow

/-- A line that stands inside the block of a header, is not blank and is reached through lines
inside of it belongs to the block. -/
lemma blockBody_ne_nil_of_append {indent : Nat} {above : List Text} {line : Text}
    (habove : ∀ line ∈ above, isInside indent line = true) (hblank : isBlank line = false)
    (hdeep : indent < leadingSpaces line) (below : List Text) :
    blockBody indent (above ++ line :: below) ≠ [] := by
  induction above with
  | nil =>
    rw [List.nil_append, blockBody_cons_of_deeper hblank hdeep]
    exact List.cons_ne_nil _ _
  | cons first above ih =>
    have hrest := ih fun other hother => habove other (List.mem_cons_of_mem _ hother)
    rw [List.cons_append]
    cases hfirst : isBlank first with
    | true =>
      rw [blockBody_cons_of_blank hfirst, if_neg hrest]
      exact List.cons_ne_nil _ _
    | false =>
      have hinside := habove first List.mem_cons_self
      have hdeepFirst : indent < leadingSpaces first := by simpa [isInside, hfirst] using hinside
      rw [blockBody_cons_of_deeper hfirst hdeepFirst]
      exact List.cons_ne_nil _ _

/-- Where the block of an outer header is over, so is that of an inner one, which is closed before
the end of the outer block. -/
lemma ClosedBelow.of_append_of_isOver {outer inner : Nat} (hnested : outer < inner)
    {above below : List Text} (hover : blockBody outer below = [])
    (h : ClosedBelow inner (above ++ below)) : ClosedBelow inner above := by
  obtain ⟨body, closing, rest, hsplit, hinside, hlast, hcloses⟩ := closedBelow_iff.1 h
  have houtside : ∀ mid, (∀ line ∈ mid, isInside inner line = true) →
      below ≠ mid ++ closing :: rest := by
    rintro mid hmid rfl
    refine blockBody_ne_nil_of_append ?_ hcloses.isBlank_eq_false ?_ rest hover
    · exact fun line hline => isInside_of_le hnested.le (hmid line hline)
    · rw [hcloses.leadingSpaces_eq]
      exact hnested
  rcases List.append_eq_append_iff.1 hsplit with ⟨mid, rfl, hmid⟩ | ⟨mid, rfl, hmid⟩
  · exact absurd hmid (houtside mid fun line hline => hinside line (List.mem_append_right _ hline))
  · cases mid with
    | nil => exact absurd hmid.symm (houtside [] (by simp))
    | cons first mid =>
      simp only [List.cons_append, List.cons.injEq] at hmid
      obtain ⟨rfl, -⟩ := hmid
      exact closedBelow_iff.2 ⟨body, closing, mid, rfl, hinside, hlast, hcloses⟩

/-- Below its own block, the block of a header is over. -/
lemma blockBody_blockRest (indent : Nat) (below : List Text) :
    blockBody indent (blockRest indent below) = [] := by
  unfold blockRest
  rw [blockBody_drop indent _ below le_rfl]
  exact List.drop_length

/-! ### Blocks that a pass closes -/

section Block

variable {indent : Nat}

/-- The block of a header, of which the first lines may be left out, is closed by the brace put
after it. -/
lemma closedBelow_drop_blockBody (below : List Text) (skip : Nat) (rest : List Text) :
    ClosedBelow indent ((blockBody indent below).drop skip ++ closingLine indent :: rest) := by
  refine closedBelow_iff.2 ⟨_, _, rest, rfl, ?_, ?_, Or.inl rfl⟩
  · exact fun line hline => isInside_of_mem_blockBody (List.mem_of_mem_drop hline)
  · intro line hline
    rw [List.getLast?_drop] at hline
    split at hline
    · cases hline
    · exact isBlank_of_getLast?_dropBlankEnd hline

/-- Blocks around a header stay closed when lines are put in front of its block, some of its first
lines are left out and a brace is put after it. -/
lemma ClosedBelow.reopen {outer : Nat} {below : List Text} (h : ClosedBelow outer below)
    (hnested : outer < indent) {front : List Text}
    (hfront : ∀ line ∈ front, isInside outer line = true) (skip : Nat) :
    ClosedBelow outer (front ++ ((blockBody indent below).drop skip ++
      closingLine indent :: blockRest indent below)) := by
  have hbody : ∀ line ∈ blockBody indent below, isInside outer line = true :=
    fun line hline => isInside_of_le hnested.le (isInside_of_mem_blockBody hline)
  rw [← blockBody_append_blockRest indent below] at h
  have hrest := h.of_append hbody
  rw [← List.append_assoc]
  refine hrest.append_cons ?_ (isBlank_closingLine indent) (by simpa using hnested)
  intro line hline
  rcases List.mem_append.1 hline with hline | hline
  · exact hfront line hline
  · exact hbody line (List.mem_of_mem_drop hline)

end Block

end Rebrace
