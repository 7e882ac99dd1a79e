import Mathlib
import Rebrace.Proofs.OneLine
import Rebrace.Proofs.LocalSpelling
import Rebrace.Proofs.NoFaults
import Rebrace.Proofs.Seam

/-!
# The end of a converted source

A buffer keeps its lines apart from the fact that the last of them was ended.  The two go together
again if no line holds a line feed of its own, and if the last line of a source that does not end
with a line feed is not emptied.  No pass puts a line feed into a line: a header that is rendered
and the comment above it stand on their lines.  And no pass empties the last line, since below a
header there is always a closing brace, with one exception.  A last line of spaces, all of them
whole levels, is emptied by rescaling if the width of the new levels does not fit into a machine
word and wraps around to zero.

So the text that a source is converted to ends with a line feed exactly if the source does, and is
empty exactly if the source is, unless the last line vanishes in this way: `convert_final_newline`.
-/

namespace Rebrace

open Text

/-! ### Blocks that are closed -/

/-- What is left of the lines below a header holds no line feed if they hold none. -/
lemma newline_notMem_of_mem_close {indent : Nat} {body below : List Text}
    (hbody : body ⊆ blockBody indent below) (h : ∀ line ∈ below, '\n' ∉ line) :
    ∀ line ∈ body ++ closingLine indent :: blockRest indent below, '\n' ∉ line := by
  rw [← blockBody_append_blockRest indent below, List.forall_mem_append] at h
  rw [List.forall_mem_append, List.forall_mem_cons]
  exact ⟨fun line hline => h.1 line (hbody hline), by simp [closingLine, spaces], h.2⟩

/-- The lines below a header end with the closing brace of its block or as they did before. -/
lemma getLast?_close_ne {indent : Nat} {below : List Text} (h : below.getLast? ≠ some [])
    (body : List Text) :
    (body ++ closingLine indent :: blockRest indent below).getLast? ≠ some [] := by
  rw [List.getLast?_append_of_ne_nil _ (by simp)]
  by_cases hrest : blockRest indent below = []
  · simp [hrest, closingLine]
  · rw [← blockBody_append_blockRest indent below, List.getLast?_append_of_ne_nil _ hrest] at h
    rwa [List.getLast?_cons_of_ne_nil hrest]

/-! ### Declarations -/

namespace Declaration

/-- The pass over declarations puts no line feed into a line. -/
lemma newline_notMem_of_braceFrom {kind : DeclarationKind} {row : Nat} {lines out : List Text}
    (h : (braceFrom kind row lines).result = .ok out) (hlines : ∀ line ∈ lines, '\n' ∉ line) :
    ∀ line ∈ out, '\n' ∉ line := by
  refine braceFrom_ok_induction kind (motive := fun lines out =>
    (∀ line ∈ lines, '\n' ∉ line) → ∀ line ∈ out, '\n' ∉ line) (fun hnil => hnil) ?_ ?_ h hlines
  · intro line below rest _ ih hlines
    rw [List.forall_mem_cons] at hlines
    exact List.forall_mem_cons.2 ⟨hlines.1, ih hlines.2⟩
  · intro line below d rendered rest hparse hrender ih hlines
    have hbelow := (List.forall_mem_cons.1 hlines).2
    have hbody : ∀ line ∈ blockBody d.indent below, '\n' ∉ line := fun line hline =>
      hbelow line ((blockBody_isPrefix d.indent below).subset hline)
    have hclose := newline_notMem_of_mem_close
      (BlockParts.body_suffix d.indent (blockBody d.indent below)).subset hbelow
    rw [List.forall_mem_append, List.forall_mem_append, List.forall_mem_singleton]
    exact ⟨⟨BlockParts.newline_notMem_of_mem_doc hbody, yields_render hparse rendered hrender⟩,
      ih hclose⟩

/-- The pass over declarations empties no last line. -/
lemma getLast?_ne_of_braceFrom {kind : DeclarationKind} {row : Nat} {lines out : List Text}
    (h : (braceFrom kind row lines).result = .ok out) (hlines : lines.getLast? ≠ some []) :
    out.getLast? ≠ some [] := by
  -- the last line is one of the rest, which is empty only together with the lines below
  refine (braceFrom_ok_induction kind (motive := fun lines out =>
    (out = [] ↔ lines = []) ∧ (lines.getLast? ≠ some [] → out.getLast? ≠ some []))
    ⟨Iff.rfl, fun hnil => hnil⟩ ?_ ?_ h).2 hlines
  · rintro line below rest _ ⟨hempty, ih⟩
    refine ⟨by simp, fun hlines => ?_⟩
    by_cases hnil : below = []
    · rwa [hempty.2 hnil, ← hnil]
    · rw [List.getLast?_cons_of_ne_nil hnil] at hlines
      rw [List.getLast?_cons_of_ne_nil (mt hempty.1 hnil)]
      exact ih hlines
  · rintro line below d rendered rest _ _ ⟨hempty, ih⟩
    refine ⟨by simp, fun hlines => ?_⟩
    rw [List.getLast?_append_of_ne_nil _ (mt hempty.1 (by simp))]
    refine ih (getLast?_close_ne ?_ _)
    by_cases hnil : below = []
    · simp [hnil]
    · rwa [List.getLast?_cons_of_ne_nil hnil] at hlines

end Declaration

/-! ### Clauses -/

namespace Clause

/-- What a clause takes into its own line holds no line feed. -/
lemma newline_notMem_of_joinAbove {c : Clause} {above kept : List Text} {leading : Text}
    (h : c.joinAbove above = .ok (leading, kept)) : '\n' ∉ leading ∧ kept ⊆ above := by
  rcases joinAbove_cases h with ⟨rfl, rfl⟩ | ⟨rfl, rfl⟩
  · exact ⟨by simp, List.Subset.refl _⟩
  · exact ⟨by decide, List.subset_cons_self _ _⟩

/-- The pass over clauses puts no line feed into a line. -/
lemma newline_notMem_of_braceFrom {above below out : List Text}
    (h : (braceFrom above below).result = .ok out) (habove : ∀ line ∈ above, '\n' ∉ line)
    (hbelow : ∀ line ∈ below, '\n' ∉ line) : ∀ line ∈ out, '\n' ∉ line := by
  refine braceFrom_ok_induction (motive := fun above below => (∀ line ∈ above, '\n' ∉ line) →
    (∀ line ∈ below, '\n' ∉ line) → ∀ line ∈ out, '\n' ∉ line) ?_ ?_ ?_ h habove hbelow
  · rintro above rfl habove -
    simpa using habove
  · intro above line below _ ih habove hbelow
    rw [List.forall_mem_cons] at hbelow
    exact ih (List.forall_mem_cons.2 ⟨hbelow.1, habove⟩) hbelow.2
  · intro above line below c leading kept rendered hparse hjoin hrender ih habove hbelow
    obtain ⟨hleading, hkept⟩ := newline_notMem_of_joinAbove hjoin
    have hheader := yields_render hparse hleading rendered hrender
    refine ih (List.forall_mem_cons.2 ⟨hheader, fun line hline => habove line (hkept hline)⟩) ?_
    exact newline_notMem_of_mem_close (List.Subset.refl _) (List.forall_mem_cons.1 hbelow).2

/-- The pass over clauses empties no last line.  A line above the clauses can be the last one only
as long as there is none below. -/
lemma getLast?_ne_of_braceFrom {above below out : List Text}
    (h : (braceFrom above below).result = .ok out)
    (hlines : (above.reverse ++ below).getLast? ≠ some []) : out.getLast? ≠ some [] := by
  refine braceFrom_ok_induction (motive := fun above below =>
    (above.reverse ++ below).getLast? ≠ some [] → out.getLast? ≠ some []) ?_ ?_ ?_ h hlines
  · rintro above rfl hlines
    simpa using hlines
  · intro above line below _ ih hlines
    exact ih (by simpa using hlines)
  · intro above line below c leading kept rendered _ _ _ ih hlines
    refine ih ?_
    rw [List.getLast?_append_of_ne_nil _ (by simp)]
    refine getLast?_close_ne ?_ _
    by_cases hnil : below = []
    · simp [hnil]
    · rwa [List.getLast?_append_of_ne_nil _ (by simp), List.getLast?_cons_of_ne_nil hnil] at hlines

end Clause

/-! ### Passes over single lines -/

/-- Comment markers are put in without line feeds. -/
lemma newline_notMem_slashComments {line : Text} (h : '\n' ∉ line) : '\n' ∉ slashComments line := by
  have hfrom : ∀ previous q, '\n' ∉ slashCommentsFrom previous q line := by
    intro previous q
    fun_induction slashCommentsFrom previous q line with
    | case1 => simp
    | case2 previous q c t hmark ih => simpa using ih (List.not_mem_of_not_mem_cons h)
    | case3 previous q c t hmark ih =>
      rw [List.mem_cons, not_or] at h ⊢
      exact ⟨h.1, ih h.2⟩
  exact hfrom none .outside

/-- No line is emptied when its comment markers are changed. -/
lemma slashComments_eq_nil_iff {line : Text} : slashComments line = [] ↔ line = [] := by
  cases line with
  | nil => simp [slashComments, slashCommentsFrom]
  | cons c t =>
    unfold slashComments slashCommentsFrom
    split <;> simp

/-- Names and comparisons are spelled without line feeds. -/
lemma newline_notMem_convertLexical {line : Text} (h : '\n' ∉ line) :
    '\n' ∉ convertLexical line := by
  have hnames := (alike_spellNames line).mem_iff (c := '\n') (by decide)
  have hequality := (alike_strictEquality (spellNames line)).mem_iff (c := '\n') (by decide)
  exact fun hmem => h (hnames.2 (hequality.2 hmem))

/-- Rescaling puts no line feed into a line. -/
lemma newline_notMem_rescaleIndent {source target : Nat} {line : Text} (h : '\n' ∉ line) :
    '\n' ∉ rescaleIndent source target line := by
  unfold rescaleIndent
  simp only
  split
  · exact h
  · have hdrop : '\n' ∉ line.drop (leadingSpaces line / source * source) := fun hmem =>
      h (List.mem_of_mem_drop hmem)
    simp [spaces, hdrop]

/-- The line is not empty, it is made of whole levels, and the width of the new levels wraps around
to zero. -/
def Vanishes (widths : Widths) (line : Text) : Prop :=
  line ≠ [] ∧ ∃ levels, line = spaces (levels * widths.source) ∧
    levelsWidth levels widths.target = 0

/-- A line of whole levels has as many levels as it is made of. -/
lemma levels_of_ne_nil {source levels : Nat} (h : spaces (levels * source) ≠ []) :
    0 < levels ∧ leadingSpaces (spaces (levels * source)) / source = levels := by
  have hpos : 0 < levels * source := Nat.pos_of_ne_zero fun hzero => h (by simp [hzero, spaces])
  have hindent : leadingSpaces (spaces (levels * source)) = levels * source := by
    simpa [leadingSpaces] using leadingSpaces_spaces_append (levels * source) []
  refine ⟨Nat.pos_of_mul_pos_right hpos, ?_⟩
  rw [hindent, Nat.mul_div_cancel _ (Nat.pos_of_mul_pos_left hpos)]

/-- Rescaling empties the lines that vanish, and no others. -/
lemma rescaleIndent_eq_nil_iff {widths : Widths} {line : Text} :
    rescaleIndent widths.source widths.target line = [] ↔ line = [] ∨ Vanishes widths line := by
  by_cases hnil : line = []
  · simp [hnil, rescaleIndent, leadingSpaces]
  rw [or_iff_right hnil]
  constructor
  · intro h
    unfold rescaleIndent at h
    simp only at h
    split at h
    · exact absurd h hnil
    · obtain ⟨hspaces, hdrop⟩ := List.append_eq_nil_iff.1 h
      have hline := spaces_append_drop (Nat.div_mul_le_self (leadingSpaces line) widths.source)
      rw [hdrop, List.append_nil] at hline
      exact ⟨hnil, _, hline.symm, by simpa [spaces] using hspaces⟩
  · rintro ⟨-, levels, rfl, hwidth⟩
    obtain ⟨hpos, hlevels⟩ := levels_of_ne_nil hnil
    have hsource : widths.source ≠ 0 := fun hzero => hnil (by simp [hzero, spaces])
    simp only [rescaleIndent, hlevels, hwidth]
    rw [if_neg (by omega)]
    simp [spaces]

/-- A line does not vanish if the width of the new levels fits into a word. -/
lemma not_vanishes_of_lt {widths : Widths} (htarget : 1 ≤ widths.target) {line : Text}
    (h : leadingSpaces line / widths.source * widths.target < wordSize) :
    ¬Vanishes widths line := by
  rintro ⟨hnil, levels, rfl, hwidth⟩
  obtain ⟨hpos, hlevels⟩ := levels_of_ne_nil hnil
  rw [hlevels] at h
  rw [levelsWidth, Nat.mod_eq_of_lt h] at hwidth
  have := Nat.mul_pos hpos htarget
  omega

/-! ### All passes -/

namespace Pass

/-- What every single pass keeps, all passes together keep. -/
lemma induction_of_runAll {widths : Widths} {p : List Text → Prop} {passes : List Pass}
    (hrun : ∀ pass ∈ passes, ∀ lines out : List Text,
      (pass.run widths lines).result = .ok out → p lines → p out)
    {lines out : List Text} (h : (runAll widths lines passes).result = .ok out) (hlines : p lines) :
    p out := by
  induction passes generalizing lines with
  | nil =>
    cases h
    exact hlines
  | cons pass passes ih =>
    rw [List.forall_mem_cons] at hrun
    rw [result_runAll_cons] at h
    obtain ⟨rest, hpass, hpasses⟩ := bind_eq_ok_iff.1 h
    exact ih hrun.2 hpasses (hrun.1 lines rest hpass hlines)

/-- No pass puts a line feed into a line. -/
lemma newline_notMem_of_runAll {widths : Widths} {lines out : List Text} {passes : List Pass}
    (h : (runAll widths lines passes).result = .ok out) (hlines : ∀ line ∈ lines, '\n' ∉ line) :
    ∀ line ∈ out, '\n' ∉ line := by
  refine induction_of_runAll (p := fun lines => ∀ line ∈ lines, '\n' ∉ line)
    (fun pass _ lines out hpass hlines => ?_) h hlines
  have hmap : ∀ f : Text → Text, (∀ line, '\n' ∉ line → '\n' ∉ f line) →
      Except.ok (lines.map f) = (.ok out : Except Error _) → ∀ line ∈ out, '\n' ∉ line := by
    rintro f hf ⟨⟩
    exact List.forall_mem_map.2 fun line hline => hf line (hlines line hline)
  cases pass with
  | classes => exact Declaration.newline_notMem_of_braceFrom hpass hlines
  | functions => exact Declaration.newline_notMem_of_braceFrom hpass hlines
  | lexical => exact hmap _ (fun _ => newline_notMem_convertLexical) hpass
  | controlFlow => exact Clause.newline_notMem_of_braceFrom hpass (by simp) hlines
  | indentation => exact hmap _ (fun _ => newline_notMem_rescaleIndent) hpass
  | comments => exact hmap _ (fun _ => newline_notMem_slashComments) hpass

/-- No pass but the one over the indentation empties the last line. -/
lemma getLast?_ne_of_runAll {widths : Widths} {passes : List Pass} (hpasses : .indentation ∉ passes)
    {lines out : List Text} (h : (runAll widths lines passes).result = .ok out)
    (hlines : lines.getLast? ≠ some []) : out.getLast? ≠ some [] := by
  refine induction_of_runAll (p := fun lines => lines.getLast? ≠ some [])
    (fun pass hmem lines out hpass hlines => ?_) h hlines
  have hmap : ∀ f : Text → Text, (∀ line, f line = [] ↔ line = []) →
      Except.ok (lines.map f) = (.ok out : Except Error _) → out.getLast? ≠ some [] := by
    rintro f hf ⟨⟩ hlast
    rw [List.getLast?_map] at hlast
    obtain ⟨line, hline, hnil⟩ := Option.map_eq_some_iff.1 hlast
    rw [(hf line).1 hnil] at hline
    exact hlines hline
  cases pass with
  | classes => exact Declaration.getLast?_ne_of_braceFrom hpass hlines
  | functions => exact Declaration.getLast?_ne_of_braceFrom hpass hlines
  | lexical => exact hmap _ (fun _ => convertLexical_eq_nil_iff) hpass
  | controlFlow => exact Clause.getLast?_ne_of_braceFrom hpass hlines
  | indentation => exact absurd hmem hpasses
  | comments => exact hmap _ (fun _ => slashComments_eq_nil_iff) hpass

/-- The last two passes change every line of those that reach them by itself. -/
lemma result_runAll_order (widths : Widths) (source : Text) :
    (runAll widths (Buffer.ofSource source).lines order).result =
      (fun reached => reached.map fun line =>
        slashComments (rescaleIndent widths.source widths.target line)) <$>
          Positional.indentedLines widths source := by
  have horder : order = [classes, functions, lexical, controlFlow] ++ [indentation, comments] := rfl
  rw [horder, result_runAll, List.foldlM_append, ← result_runAll, ← Positional.indentedLines]
  cases Positional.indentedLines widths source with
  | error e => rfl
  | ok reached =>
    exact congrArg Except.ok (List.map_map)

end Pass

/-! ### Sources -/

/-- The lines of a text hold no line feed. -/
lemma newline_notMem_cutLines (t : Text) :
    (∀ line ∈ (cutLines t).1, '\n' ∉ line) ∧ '\n' ∉ (cutLines t).2 := by
  induction t with
  | nil => simp [cutLines]
  | cons c t ih =>
    by_cases hc : c = '\n'
    · simpa [cutLines, hc] using ih
    · cases hcut : (cutLines t).1 with
      | nil => simpa [cutLines, hc, hcut, Ne.symm hc] using ih.2
      | cons line lines =>
        rw [hcut, List.forall_mem_cons] at ih
        simpa [cutLines, hc, hcut, Ne.symm hc, and_assoc] using ih

/-- A text whose last line was ended ends with a line feed. -/
lemma getLast?_of_cutLines {t : Text} (hne : t ≠ []) (h : (cutLines t).2 = []) :
    t.getLast? = some '\n' := by
  induction t with
  | nil => exact absurd rfl hne
  | cons c t ih =>
    by_cases hnil : t = []
    · subst hnil
      by_cases hc : c = '\n'
      · simp [hc]
      · simp [cutLines, hc] at h
    · have hrest : (cutLines t).2 = [] := by
        rw [cutLines] at h
        split at h
        · exact h
        · split at h
          · cases h
          · exact h
      rw [List.getLast?_cons_of_ne_nil hnil]
      exact ih hnil hrest

/-- A line has a carriage return at its end, which is dropped, or it is kept. -/
lemma dropCarriageReturn_cases (line : Text) :
    (∃ inner, line = inner ++ ['\r'] ∧ dropCarriageReturn line = inner) ∨
      line.getLast? ≠ some '\r' ∧ dropCarriageReturn line = line := by
  by_cases hlast : line.getLast? = some '\r'
  · obtain ⟨inner, rfl⟩ := List.getLast?_eq_some_iff.1 hlast
    have hstrip : stripEnd? "\r" (inner ++ ['\r']) = some inner := stripEnd?_eq_some_iff.2 rfl
    exact Or.inl ⟨inner, rfl, by rw [dropCarriageReturn, hstrip, Option.getD_some]⟩
  · have hstrip : stripEnd? "\r" line = none := by
      refine Option.eq_none_iff_forall_ne_some.2 fun inner hinner => hlast ?_
      rw [stripEnd?_eq_some_iff.1 hinner]
      exact List.getLast?_concat
    exact Or.inr ⟨hlast, by rw [dropCarriageReturn, hstrip, Option.getD_none]⟩

namespace Buffer

/-- The lines of a source hold no line feed. -/
lemma newline_notMem_of_mem_ofSource (source : Text) :
    ∀ line ∈ (ofSource source).lines, '\n' ∉ line := by
  obtain ⟨hlines, hrest⟩ := newline_notMem_cutLines source
  have hdrop : ∀ line, dropCarriageReturn line ⊆ line := by
    intro line
    rcases dropCarriageReturn_cases line with ⟨inner, rfl, hdrop⟩ | ⟨-, hdrop⟩
    · rw [hdrop]
      exact List.subset_append_left _ _
    · rw [hdrop]
      exact List.Subset.refl _
  intro line hline
  rcases List.mem_append.1 hline with hline | hline
  · obtain ⟨ended, hended, rfl⟩ := List.mem_map.1 hline
    exact fun hmem => hlines ended hended (hdrop ended hmem)
  · split at hline
    · cases hline
    · rwa [List.mem_singleton.1 hline]

/-- The last line of a source that does not end with a line feed is not empty. -/
lemma getLast?_ofSource_ne {source : Text} (h : source.getLast? ≠ some '\n') :
    (ofSource source).lines.getLast? ≠ some [] := by
  by_cases hne : source = []
  · simp [hne, ofSource, cutLines]
  · have hrest : (cutLines source).2 ≠ [] := fun hnil => h (getLast?_of_cutLines hne hnil)
    simp [ofSource, hrest]

/-- A text of lines ends with the last of them, which the others and a line feed precede. -/
lemma exists_join_eq_append {lines : List Text} (hne : lines ≠ []) :
    ∃ before last, lines.getLast? = some last ∧ join "\n" lines = before ++ last ∧
      (before = [] ∨ before.getLast? = some '\n') := by
  obtain ⟨init, last, rfl⟩ := (List.eq_nil_or_concat lines).resolve_left hne
  by_cases hinit : init = []
  · exact ⟨[], last, by simp, by simp [hinit, join], Or.inl rfl⟩
  · refine ⟨join "\n" init ++ "\n", last, by simp, ?_, Or.inr List.getLast?_concat⟩
    rw [List.concat_eq_append, join_append _ hinit (by simp)]
    simp [join]

section NewLines

variable {source : Text} {lines : List Text}

/-- New lines in place of those of a source give a text that is ended if the source is. -/
lemma toSource_ends_of_source (h : source.getLast? = some '\n') :
    { ofSource source with lines }.toSource.getLast? = some '\n' := by
  simp [toSource, ofSource, h]

/-- New lines in place of those of a source give a text that ends as the source does, unless a last
line that was not ended has become empty. -/
lemma toSource_ends_as_source_iff (hnil : lines = [] ↔ source = [])
    (hnl : ∀ line ∈ lines, '\n' ∉ line) :
    (({ ofSource source with lines }.toSource.getLast? = some '\n' ↔
        source.getLast? = some '\n') ∧
      ({ ofSource source with lines }.toSource = [] ↔ source = [])) ↔
      (source.getLast? ≠ some '\n' → lines.getLast? ≠ some []) := by
  by_cases hend : source.getLast? = some '\n'
  · have hne : source ≠ [] := by
      rintro rfl
      cases hend
    simp [toSource, ofSource, hend, hne]
  have hsource : { ofSource source with lines }.toSource = join "\n" lines := by
    simp [toSource, ofSource, hend]
  rw [hsource, ← hnil]
  by_cases hempty : lines = []
  · simp [hempty, hend, join]
  obtain ⟨before, last, hgetLast, hjoin, hbefore⟩ := exists_join_eq_append hempty
  have hlast : lines.getLast? ≠ some [] ↔ last ≠ [] := by rw [hgetLast, ne_eq, Option.some_inj]
  rw [hlast, hjoin, imp_iff_right hend]
  constructor
  · -- without its last line the text is empty or ends with a line feed
    rintro ⟨hfeed, hblank⟩ rfl
    rw [List.append_nil] at hfeed hblank
    rcases hbefore with rfl | hbefore
    · exact hempty (hblank.1 rfl)
    · exact hend (hfeed.1 hbefore)
  · intro hne
    rw [List.getLast?_append_of_ne_nil _ hne]
    refine ⟨iff_of_false (fun hfeed => ?_) hend, by simp [hempty, hne]⟩
    exact hnl last (List.mem_of_getLast? hgetLast) (List.mem_of_getLast? hfeed)

end NewLines

end Buffer

/-- The last line of the source is not ended, and it vanishes when it is rescaled. -/
def EndVanishes (widths : Widths) (source : Text) : Prop :=
  source.getLast? ≠ some '\n' ∧ ∃ reached last,
    Positional.indentedLines widths source = .ok reached ∧ reached.getLast? = some last ∧
      Vanishes widths last

/-- The last line is emptied exactly if it vanishes. -/
lemma getLast?_ne_iff_not_endVanishes {widths : Widths} {source : Text} {lines : List Text}
    (h : (Pass.runAll widths (Buffer.ofSource source).lines Pass.order).result = .ok lines) :
    (source.getLast? ≠ some '\n' → lines.getLast? ≠ some []) ↔ ¬EndVanishes widths source := by
  rw [Pass.result_runAll_order] at h
  obtain ⟨reached, hreached, rfl⟩ := map_eq_ok_iff.1 h
  by_cases hend : source.getLast? = some '\n'
  · simp [EndVanishes, hend]
  have hne : reached.getLast? ≠ some [] :=
    Pass.getLast?_ne_of_runAll (by decide) hreached (Buffer.getLast?_ofSource_ne hend)
  rw [imp_iff_right hend, ne_eq, not_iff_not, List.getLast?_map, Option.map_eq_some_iff]
  constructor
  · rintro ⟨last, hlast, hempty⟩
    rcases rescaleIndent_eq_nil_iff.1 (slashComments_eq_nil_iff.1 hempty) with rfl | hvanishes
    · exact absurd hlast hne
    · exact ⟨hend, reached, last, hreached, hlast, hvanishes⟩
  · rintro ⟨-, reached', last, hreached', hlast, hvanishes⟩
    obtain rfl : reached = reached' := Except.ok.inj (hreached.symm.trans hreached')
    exact ⟨last, hlast, slashComments_eq_nil_iff.2 (rescaleIndent_eq_nil_iff.2 (Or.inr hvanishes))⟩

end Rebrace
