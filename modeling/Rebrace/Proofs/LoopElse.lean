import Mathlib
import Rebrace.Proofs.ClauseLayout
import Rebrace.Proofs.ClauseSpelling
import Rebrace.Proofs.HeaderClosings

/-!
# An `else` that belongs to a loop or a handler

By the indentation, an `else` belongs to its *owner*: the nearest line above it that is not blank
and no deeper.  The target has no form for an `else` that belongs to a loop or a handler.  The pass
over clauses finds such an `else` by the closing brace directly above it, in lines that it has
already changed, and then looks for the owner among these lines.

`Clause.exists_error_of_inside` follows the pass through the block of the owner: whatever clauses
there are in the block, the pass fails there, or comes to the `else` with the rendered owner as the
nearest line above that is no deeper.  So the pass fails on every buffer with such an `else`
directly below the block of its owner: `Pass.exists_error_of_else`.  A blank line between the two
hides the block from the `else`, which then stands without an `if` in the target:
`Pass.result_controlFlow_of_blank_above_else`.
-/

namespace Rebrace

open Text

/-! ### Lines inside a block -/

/-- Open blocks go on through lines inside a deeper block, up to a line that is not blank. -/
lemma weave_append_cons {opens : List Nat} {indent : Nat}
    (hopens : ∀ outer ∈ opens, outer < indent) {inside : List Text}
    (hinside : ∀ line ∈ inside, isInside indent line = true) {line : Text}
    (hblank : isBlank line = false) (hline : leadingSpaces line = indent) (below : List Text) :
    weave opens (inside ++ line :: below) = inside ++ line :: weave opens below := by
  induction inside with
  | nil =>
    refine weave_cons_of_open fun outer houter => ?_
    rw [isOver_eq_false_iff, blockBody_cons_of_deeper hblank (hline ▸ hopens outer houter)]
    exact List.cons_ne_nil _ _
  | cons first inside ih =>
    rw [List.cons_append, weave_cons_of_open,
      ih fun other hother => hinside other (List.mem_cons_of_mem _ hother)]
    · rfl
    · intro outer houter
      have hlt := hopens outer houter
      rw [isOver_eq_false_iff, ← List.cons_append]
      refine blockBody_ne_nil_of_append ?_ hblank (by omega) below
      exact fun other hother => isInside_of_le hlt.le (hinside other hother)

/-- A line that is no deeper than the header ends its block, wherever it stands. -/
lemma blockBody_append_cons {indent : Nat} {stop : Text} (hblank : isBlank stop = false)
    (hshallow : leadingSpaces stop ≤ indent) (lines below : List Text) :
    blockBody indent (lines ++ stop :: below) = blockBody indent lines ∧
      blockRest indent (lines ++ stop :: below) = blockRest indent lines ++ stop :: below := by
  have hstop : isInside indent stop = false := by simp [isInside, hblank, hshallow]
  have hbody : blockBody indent (lines ++ stop :: below) = blockBody indent lines := by
    unfold blockBody
    congr 1
    induction lines with
    | nil => simp [hstop]
    | cons line lines ih =>
      rw [List.cons_append, List.takeWhile_cons, List.takeWhile_cons, ih]
  refine ⟨hbody, ?_⟩
  rw [blockRest, blockRest, hbody,
    List.drop_append_of_le_length (blockBody_isPrefix indent lines).length_le]

namespace Clause

/-! ### The owner of an `else` -/

/-- The line that an `else` with this indentation belongs to, among the lines `above` it, nearest
first: the first one that is not blank and no deeper. -/
def owner? (indent : Nat) (above : List Text) : Option Text :=
  above.find? fun line => !isBlank line && leadingSpaces line ≤ indent

/-- Lines inside a block do not own an `else` that follows the block. -/
lemma owner?_append {indent : Nat} {inside : List Text}
    (h : ∀ line ∈ inside, isInside indent line = true) (above : List Text) :
    owner? indent (inside ++ above) = owner? indent above := by
  rw [owner?, List.find?_append, List.find?_eq_none.2, Option.none_or]
  · rfl
  · intro line hline
    have hinside := h line hline
    simp only [isInside, Bool.or_eq_true, decide_eq_true_eq] at hinside
    rcases hinside with hblank | hdeep
    · simp [hblank]
    · simp [Nat.not_le.2 hdeep]

/-- Between an `else` and its owner there are only lines inside the block of the owner. -/
lemma exists_of_owner? {indent : Nat} {above : List Text} {header : Text}
    (h : owner? indent above = some header) :
    ∃ inside far, above = inside ++ header :: far ∧
      ∀ line ∈ inside, isInside indent line = true := by
  obtain ⟨-, inside, far, rfl, hinside⟩ := List.find?_eq_some_iff_append.1 h
  refine ⟨inside, far, rfl, ?_⟩
  intro line hline
  have hnot := hinside line hline
  simp only [Bool.not_and, Bool.not_not, Bool.or_eq_true, Bool.not_eq_true',
    decide_eq_false_iff_not, Nat.not_le] at hnot
  simpa only [isInside, Bool.or_eq_true, decide_eq_true_eq] using hnot

/-- A rendered clause has a space behind its keyword. -/
lemma exists_keyword_of_render {c : Clause} {leading header : Text}
    (h : c.render leading = .ok header) :
    ∃ rest, header = spaces c.indent ++ (leading ++ (c.keyword.target ++ ' ' :: rest)) := by
  obtain ⟨condition, hcondition, rfl⟩ := map_eq_ok_iff.1 h
  obtain ⟨rest, hrest⟩ := List.head?_eq_some_iff.1
    (head?_renderCondition hcondition ("\x7b" ++ c.trailing))
  refine ⟨rest, ?_⟩
  rw [← hrest]
  simp

/-- A loop or handler is known by its first word, also behind a brace. -/
lemma find?_keyword {k : Keyword} (hrefuses : k.refusesElse = true) {leading : Text}
    (hlead : leading = [] ∨ leading = "\x7d ") (rest : Text) :
    let text := leading ++ (k.target ++ ' ' :: rest)
    let word := ((strip? "\x7d " text).getD text).takeWhile fun c => c != ' ' && c != '('
    (Keyword.all.find? fun k => k.refusesElse && k.target == word) = some k := by
  rcases hlead with rfl | rfl
  · cases k with
    | forEach | whileTrue | handle => rfl
    | ifTrue | elseIf | otherwise | attempt | cleanUp => cases hrefuses
  · cases k with
    | forEach | whileTrue | handle => rfl
    | ifTrue | elseIf | otherwise | attempt | cleanUp => cases hrefuses

/-- The lines inside a block stay inside it when the block of a deeper clause in it is closed. -/
lemma isInside_of_mem_closed {outer indent : Nat} (hdeep : outer < indent) {lines : List Text}
    (hlines : ∀ line ∈ lines, isInside outer line = true) :
    ∀ line ∈ blockBody indent lines ++ closingLine indent :: blockRest indent lines,
      isInside outer line = true := by
  rw [← blockBody_append_blockRest indent lines] at hlines
  simp only [List.mem_append, List.mem_cons] at hlines ⊢
  rintro line (hline | rfl | hline)
  · exact hlines line (.inl hline)
  · simp [isInside, hdeep]
  · exact hlines line (.inr hline)

section Loop

variable {loop : Clause} {leading header : Text} (hlead : leading = [] ∨ leading = "\x7d ")
  (hrender : loop.render leading = .ok header)

include hlead hrender

/-- A rendered clause keeps its indentation, also behind a brace. -/
lemma trimStart_of_render :
    isBlank header = false ∧ leadingSpaces header = loop.indent ∧
      ∃ rest, trimStart header = leading ++ (loop.keyword.target ++ ' ' :: rest) := by
  obtain ⟨rest, rfl⟩ := exists_keyword_of_render hrender
  obtain ⟨first, letters, htarget, hfirst, hvisible⟩ := exists_target_eq_cons loop.keyword
  obtain ⟨start, tail, hstart, hspace, hwhite⟩ : ∃ start tail,
      leading ++ (loop.keyword.target ++ ' ' :: rest) = start :: tail ∧ start ≠ ' ' ∧
        isWhite start = false := by
    rcases hlead with rfl | rfl
    · exact ⟨first, letters ++ ' ' :: rest, by simp [htarget], hfirst, hvisible⟩
    · exact ⟨'\x7d', _, rfl, by decide, by decide⟩
  refine ⟨?_, ?_, rest, ?_⟩
  · rw [hstart, isBlank_spaces_append _ hwhite]
  · rw [hstart, leadingSpaces_spaces_append_cons _ hspace]
  · refine trimStart_append (fun c hc => isWhite_of_mem_spaces hc) ?_
    rw [hstart]
    simpa using hwhite

/-- The block of a rendered loop or handler may not be followed by an `else`, whatever lines there
are in the block. -/
lemma elseBlocker?_of_render (hrefuses : loop.keyword.refusesElse = true) {inside : List Text}
    (hinside : ∀ line ∈ inside, isInside loop.indent line = true) (far : List Text) :
    elseBlocker? loop.indent (inside ++ header :: far) = some loop.keyword := by
  obtain ⟨hblank, hindent, rest, htrim⟩ := trimStart_of_render hlead hrender
  have howner : owner? loop.indent (inside ++ header :: far) = some header := by
    rw [owner?_append hinside]
    exact List.find?_cons_of_pos (by simp [hblank, hindent])
  unfold elseBlocker?
  rw [show (inside ++ header :: far).find? _ = some header from howner, Option.bind_some]
  simp only [htrim]
  exact find?_keyword hrefuses hlead rest

/-- A clause inside the block of a rendered header does not take the header away. -/
lemma exists_of_joinAbove {c : Clause} (hdeep : loop.indent < c.indent) {inside far : List Text}
    (hinside : ∀ line ∈ inside, isInside loop.indent line = true) {lead : Text}
    {kept : List Text} (hjoin : c.joinAbove (inside ++ header :: far) = .ok (lead, kept)) :
    ∃ rest, kept = rest ++ header :: far ∧ ∀ line ∈ rest, isInside loop.indent line = true := by
  rcases joinAbove_cases hjoin with ⟨-, rfl⟩ | ⟨-, habove⟩
  · exact ⟨inside, rfl, hinside⟩
  · cases inside with
    | nil =>
      have hindent := (trimStart_of_render hlead hrender).2.1
      rw [(List.cons.inj habove).1, leadingSpaces_closingLine] at hindent
      omega
    | cons closing inside =>
      refine ⟨inside, (List.cons.inj habove).2.symm, ?_⟩
      exact fun line hline => hinside line (List.mem_cons_of_mem _ hline)

/-- At an `else` below the closing brace of a rendered loop or handler the pass fails. -/
lemma result_braceFrom_of_else (hrefuses : loop.keyword.refusesElse = true) {line : Text}
    {c : Clause} (hline : parse? line = some c) (helse : c.keyword = .otherwise)
    (hindent : c.indent = loop.indent) {inside : List Text}
    (hinside : ∀ line ∈ inside, isInside loop.indent line = true) (far rest : List Text) :
    (braceFrom (closingLine loop.indent :: (inside ++ header :: far)) (line :: rest)).result =
      .error (.unsupportedElse loop.keyword) := by
  have hchains : c.keyword.chains = true := by rw [helse]; rfl
  have hblocked : c.blockedBy? (inside ++ header :: far) = some loop.keyword := by
    rw [blockedBy?, if_pos helse, hindent, elseBlocker?_of_render hlead hrender hrefuses hinside]
  rw [result_braceFrom_cons_of_some hline, ← hindent, joinAbove_of_joins hchains, hblocked]
  rfl

/-- **Through the block of a loop or handler the pass comes to a failure.**  The finished lines of
the block stand `inside` it below the header, and those that are left are followed by the closing
brace and the `else`. -/
lemma exists_error_of_inside (hrefuses : loop.keyword.refusesElse = true) {line : Text}
    {c : Clause} (hline : parse? line = some c) (helse : c.keyword = .otherwise)
    (hindent : c.indent = loop.indent) {inside left far rest above below : List Text}
    (hinside : ∀ line ∈ inside, isInside loop.indent line = true)
    (hleft : ∀ line ∈ left, isInside loop.indent line = true)
    (habove : above = inside ++ header :: far)
    (hbelow : below = left ++ closingLine loop.indent :: line :: rest) :
    ∃ e, (braceFrom above below).result = .error e := by
  fun_induction braceFrom above below generalizing inside left with
  | case1 above => simp at hbelow
  | case2 above first below hfirst ih =>
    subst habove
    cases left with
    | nil =>
      obtain ⟨rfl, rfl⟩ := List.cons.inj hbelow
      exact ⟨.unsupportedElse loop.keyword,
        result_braceFrom_of_else hlead hrender hrefuses hline helse hindent hinside far rest⟩
    | cons other left =>
      obtain ⟨rfl, rfl⟩ := List.cons.inj hbelow
      have hfirstInside : ∀ line ∈ first :: inside, isInside loop.indent line = true :=
        List.forall_mem_cons.2 ⟨hleft first List.mem_cons_self, hinside⟩
      have hleftInside : ∀ line ∈ left, isInside loop.indent line = true :=
        fun other hother => hleft other (List.mem_cons_of_mem _ hother)
      exact ih hfirstInside hleftInside rfl rfl
  | case3 above first below d hfirst e hjoin => exact ⟨e, rfl⟩
  | case4 above first below d hfirst lead kept hjoin e hrender => exact ⟨e, rfl⟩
  | case5 above first below d hfirst lead kept hjoin rendered hrendered body row last =>
    rename_i hlt ih
    subst habove
    rw [Outcome.result_after_nil]
    cases left with
    | nil =>
      obtain ⟨rfl, rfl⟩ := List.cons.inj hbelow
      simp at hfirst
    | cons other left =>
      obtain ⟨rfl, rfl⟩ := List.cons.inj hbelow
      -- A clause in the block is deeper than the header, so that its block ends in this block.
      have hdeep : loop.indent < d.indent := by
        have hother := hleft first List.mem_cons_self
        rw [isInside, isBlank_eq_false_of_parse? hfirst, Bool.false_or, decide_eq_true_eq] at hother
        rwa [indent_eq_of_parse? hfirst]
      obtain ⟨hbody, hrest⟩ := blockBody_append_cons (isBlank_closingLine loop.indent)
        (by simpa using hdeep.le) left (line :: rest)
      obtain ⟨kept, rfl, hkept⟩ := exists_of_joinAbove hlead hrender hdeep hinside hjoin
      have hclause := trimStart_of_render ((joinAbove_cases hjoin).imp And.left And.left) hrendered
      have hrenderedInside : ∀ line ∈ rendered :: kept, isInside loop.indent line = true :=
        List.forall_mem_cons.2 ⟨by simp [isInside, hclause.2.1, hdeep], hkept⟩
      have hclosedInside := isInside_of_mem_closed hdeep fun line hline =>
        hleft line (List.mem_cons_of_mem _ hline)
      exact ih hrenderedInside hclosedInside rfl (by simp [body, hbody, hrest])

end Loop

/-- Lines inside a block of which the last one is not blank are the whole block. -/
lemma blockBody_eq_self {indent : Nat} {lines : List Text}
    (hinside : ∀ line ∈ lines, isInside indent line = true)
    (hlast : ∀ line, lines.getLast? = some line → isBlank line = false) :
    blockBody indent lines = lines := by
  rw [blockBody, List.takeWhile_eq_self_iff.2 hinside, dropBlankEnd_eq_self hlast]

/-- A loop or handler whose block is followed by an `else` makes the pass fail, wherever the pass
comes from. -/
lemma exists_error_of_header {header line : Text} {loop c : Clause}
    (hheader : parse? header = some loop) (hrefuses : loop.keyword.refusesElse = true)
    (hline : parse? line = some c) (helse : c.keyword = .otherwise)
    (hindent : c.indent = loop.indent) {body : List Text}
    (hinside : ∀ line ∈ body, isInside loop.indent line = true)
    (hlast : ∀ line, body.getLast? = some line → isBlank line = false) (above rest : List Text) :
    ∃ e, (braceFrom above (header :: (body ++ line :: rest))).result = .error e := by
  have hshallow : leadingSpaces line ≤ loop.indent := by
    rw [← indent_eq_of_parse? hline, hindent]
  obtain ⟨hbody, hrest⟩ :=
    blockBody_append_cons (isBlank_eq_false_of_parse? hline) hshallow body rest
  have hself := blockBody_eq_self hinside hlast
  have hnil : blockRest loop.indent body = [] := by rw [blockRest, hself, List.drop_length]
  rw [hself] at hbody
  rw [hnil, List.nil_append] at hrest
  rw [result_braceFrom_cons_of_some hheader, hbody, hrest]
  cases hjoin : loop.joinAbove above with
  | error e => exact ⟨e, rfl⟩
  | ok joined =>
    obtain ⟨leading, kept⟩ := joined
    simp only [bind, Except.bind]
    cases hrender : loop.render leading with
    | error e => exact ⟨e, rfl⟩
    | ok rendered =>
      have hlead := (joinAbove_cases hjoin).imp And.left And.left
      exact exists_error_of_inside hlead hrender hrefuses hline helse hindent
        (List.forall_mem_nil _) hinside (List.nil_append _).symm rfl

end Clause

/-! ### Failures on every buffer -/

/-- The pass over clauses fails if it fails from some row on, whatever it has made of the rows above
it.  The blocks that are open in front of this row are less indented than its line. -/
lemma Clause.exists_error_of_append {before below : List Text} {line : Text}
    (hblank : isBlank line = false)
    (h : ∀ above opens, (∀ outer ∈ opens, outer < leadingSpaces line) →
      ∃ e, (braceFrom above (line :: weave opens below)).result = .error e) :
    ∃ e, (brace (before ++ line :: below)).result = .error e := by
  let b : Buffer := ⟨before ++ line :: below, false⟩
  have hmarks := marksHeaders_indentAt? b
  have hdrop : b.lines.drop before.length = line :: below := List.drop_left
  have hall := result_braceFrom_weave b 0 [] b.lines rfl
  rw [Buffer.opensAt_zero, weave_nil_left, List.zipIdx_append, List.foldlM_append] at hall
  cases hbefore : (before.zipIdx 0).foldlM (addRow b) [] with
  | error e =>
    refine ⟨e, hall.trans ?_⟩
    rw [List.reverse_nil, hbefore]
    rfl
  | ok out =>
    have hrest := result_braceFrom_weave b before.length out.reverse (line :: below) hdrop
    rw [List.reverse_reverse, weave_opensAt_cons hmarks hdrop] at hrest
    obtain ⟨e, he⟩ := h out.reverse (b.opensAt (indentAt? b) before.length) fun outer houter =>
      lt_leadingSpaces_of_mem_opensAt hmarks hdrop hblank houter
    refine ⟨e, hall.trans ?_⟩
    rw [List.reverse_nil, hbefore, ← he, hrest, Nat.zero_add]
    rfl

open Clause in
/-- **An `else` directly below the block of a loop or handler that it belongs to makes the pass over
clauses fail.** -/
theorem Pass.exists_error_of_else (widths : Widths) {lines : List Text} {j : Nat}
    {line header : Text} {c loop : Clause} (hrow : lines[j]? = some line)
    (hline : parse? line = some c) (helse : c.keyword = .otherwise)
    (howner : owner? c.indent (lines.take j).reverse = some header)
    (hindent : leadingSpaces header = c.indent) (hheader : parse? header = some loop)
    (hrefuses : loop.keyword.refusesElse = true)
    (hdirect : ∀ above, (lines.take j).getLast? = some above → isBlank above = false) :
    ∃ e, (controlFlow.run widths lines).result = .error e := by
  obtain ⟨inside, far, habove, hinside⟩ := exists_of_owner? howner
  have htake : lines.take j = far.reverse ++ header :: inside.reverse := by
    rw [← List.reverse_reverse (lines.take j), habove]
    simp
  have hlines : lines =
      far.reverse ++ header :: (inside.reverse ++ line :: lines.drop (j + 1)) := by
    obtain ⟨hj, hget⟩ := List.getElem?_eq_some_iff.1 hrow
    have hall := List.take_append_drop j lines
    rw [List.drop_eq_getElem_cons hj, hget, htake] at hall
    simpa using hall.symm
  have hloop : c.indent = loop.indent := by rw [← hindent, indent_eq_of_parse? hheader]
  rw [hloop] at hinside
  have hinside' : ∀ line ∈ inside.reverse, isInside loop.indent line = true :=
    fun other hother => hinside other (List.mem_reverse.1 hother)
  have hlast : ∀ above, inside.reverse.getLast? = some above → isBlank above = false := by
    intro above hget
    refine hdirect above ?_
    rw [htake, List.getLast?_append, List.getLast?_cons, hget]
    rfl
  rw [hlines]
  refine exists_error_of_append (isBlank_eq_false_of_parse? hheader) ?_
  intro above opens hopens
  rw [← indent_eq_of_parse? hheader] at hopens
  rw [weave_append_cons hopens hinside' (isBlank_eq_false_of_parse? hline)
    (by rw [← indent_eq_of_parse? hline, hloop])]
  exact exists_error_of_header hheader hrefuses hline helse hloop hinside' hlast above _

/-- A loop over items with an `else` directly below its block. -/
theorem Pass.exists_error_of_else_of_loop :
    ∃ e, (controlFlow.run {}
      ["for x in xs:", "    use(x)", "else:", "    done()"]).result = .error e := by
  have hrow : (["for x in xs:", "    use(x)", "else:", "    done()"] : List Text)[2]? =
      some ("else:" : Text) := rfl
  have hline : Clause.parse? "else:" = some ⟨0, .otherwise, none, []⟩ := by decide
  have hheader : Clause.parse? "for x in xs:" = some ⟨0, .forEach, some "x in xs", []⟩ := by decide
  refine exists_error_of_else {} hrow hline rfl ?_ ?_ hheader rfl ?_
  · decide
  · decide
  · intro above habove
    cases habove
    decide

/-- With a blank line between them, the `else` is not refused.  It becomes the `else` of no `if`. -/
theorem Pass.result_controlFlow_of_blank_above_else :
    (controlFlow.run {} ["for x in xs:", "    use(x)", "", "else:", "    done()"]).result =
      .ok ["for (const x of xs) \x7b", "    use(x)", "\x7d", "", "else \x7b", "    done()",
        "\x7d"] := by
  let b : Buffer := ⟨["for x in xs:", "    use(x)", "", "else:", "    done()"], false⟩
  have h := Clause.result_braceFrom_weave b 0 [] b.lines rfl
  rw [Buffer.opensAt_zero, weave_nil_left] at h
  exact h.trans (by decide +kernel)

end Rebrace
