import Mathlib
import Rebrace.Proofs.LocalSpelling
import Rebrace.Proofs.Steps

/-!
# Spelling before or after the braces

The pass over clauses reads a line by its structure only: its indentation, its keyword, the colon
that ends the header, the words ` in ` and the commas of a loop.  None of this is touched by the
lexical pass, and whatever the pass over clauses takes from one line to build another stands between
breaks in both.  So the two passes can change places.

`Clause.parse?_convertLexical` says this for one header, `Clause.render_spelled` for its form in the
target and `Clause.result_braceFrom_map_convertLexical` for all lines.  The main statement is
`Pass.result_lexical_controlFlow`: both orders succeed on the same lines and with the same lines,
and if they fail they tell the same failure, up to the spelling of the condition that it quotes.
-/

namespace Rebrace

open Text

/-! ### Loop headers -/

/-- A break at the end of a text can be taken off before the pass or after it. -/
lemma stripEnd?_convertLexical {c : Char} (hc : isBreak c = true) (t : Text) :
    stripEnd? [c] (convertLexical t) = (stripEnd? [c] t).map convertLexical := by
  ext rest
  rw [stripEnd?_eq_some_iff, Option.map_eq_some_iff]
  constructor
  · intro h
    have hlast := (getLast?_convertLexical_eq_some_iff hc t).1 (by rw [h, List.getLast?_concat])
    obtain ⟨old, rfl⟩ := List.getLast?_eq_some_iff.1 hlast
    rw [convertLexical_concat_break hc, List.append_cancel_right_eq] at h
    exact ⟨old, stripEnd?_eq_some_iff.2 rfl, h⟩
  · rintro ⟨old, hold, rfl⟩
    rw [stripEnd?_eq_some_iff.1 hold, convertLexical_concat_break hc]

/-- Parentheses around a loop target can be taken off before the pass or after it. -/
lemma stripParens_convertLexical (t : Text) :
    stripParens (convertLexical t) = convertLexical (stripParens t) := by
  have hopen : IsKept "(" := IsKept.cons (by decide) fun _ => rfl
  have hboth : (strip? "(" (convertLexical t)).bind (stripEnd? ")") =
      ((strip? "(" t).bind (stripEnd? ")")).map convertLexical := by
    rw [hopen t, Option.bind_map, Option.map_bind]
    exact Option.bind_congr fun rest _ => stripEnd?_convertLexical (by decide) rest
  unfold stripParens
  rw [hboth]
  cases (strip? "(" t).bind (stripEnd? ")") <;> rfl

/-- Texts can be listed with commas before the pass or after it. -/
lemma join_map_convertLexical (ts : List Text) :
    join ", " (ts.map convertLexical) = convertLexical (join ", " ts) := by
  induction ts with
  | nil => simp [join]
  | cons t ts ih =>
    cases ts with
    | nil => simp [join]
    | cons u ts =>
      simp only [List.map_cons, join, List.intercalate_cons_cons, List.append_assoc] at ih ⊢
      rw [ih]
      change _ = convertLexical (t ++ ',' :: ' ' :: _)
      rw [convertLexical_append_break (by decide), convertLexical_cons_break (by decide)]
      rfl

/-- The binding of a loop can be formed before the pass or after it. -/
lemma loopBinding_convertLexical (target : Text) :
    loopBinding (convertLexical target) = convertLexical (loopBinding target) := by
  have hnames : BracketPair.round.splitTrim "," (convertLexical target) =
      (BracketPair.round.splitTrim "," target).map convertLexical :=
    BracketPair.splitTrim_convertLexical (by decide) (by decide) (by decide) isKept_comma target
  unfold loopBinding
  rw [hnames]
  simp only [List.length_map]
  split
  · rw [join_map_convertLexical]
    have hwhole : ∀ t : Text, "[" ++ t ++ "]" = '[' :: (t ++ [']']) := fun t => by simp
    rw [hwhole, hwhole, convertLexical_cons_break (by decide),
      convertLexical_concat_break (by decide)]
  · rfl

/-- A failure as it is told after the lexical pass: the loop header that it quotes is spelled for
the target, and nothing else changes. -/
def Error.spelled : Error → Error
  | malformedMembership condition parts => malformedMembership (convertLexical condition) parts
  | e => e

/-- A result as it is told after the lexical pass. -/
def spellResult {α β : Type} (f : α → β) : Except Error α → Except Error β
  | .ok a => .ok (f a)
  | .error e => .error e.spelled

/-- The condition of a loop becomes a binding before the pass or after it. -/
lemma convertMembership_convertLexical (condition : Text) :
    convertMembership (convertLexical condition) =
      spellResult convertLexical (convertMembership condition) := by
  have hparts : BracketPair.square.split " in " (convertLexical condition) =
      (BracketPair.square.split " in " condition).map convertLexical :=
    BracketPair.split_convertLexical (by decide) (by decide) (by decide) isKept_membership condition
  have hbinding : ∀ target items : Text,
      "const " ++ convertLexical target ++ " of " ++ convertLexical items =
        convertLexical ("const " ++ target ++ " of " ++ items) := by
    intro target items
    have hconst : convertLexical "const" = "const" :=
      (convertLexical_eq_iff_of_isPlainWord (by decide)).2 rfl
    have hof : convertLexical "of" = "of" :=
      (convertLexical_eq_iff_of_isPlainWord (by decide)).2 rfl
    have hwhole : ("const " : Text) ++ target ++ " of " ++ items =
        "const" ++ ' ' :: (target ++ ' ' :: ("of" ++ ' ' :: items)) := by simp
    rw [hwhole, convertLexical_append_break (by decide), convertLexical_append_break (by decide),
      convertLexical_append_break (by decide), hconst, hof]
    simp
  unfold convertMembership
  rw [hparts]
  match BracketPair.square.split " in " condition with
  | [] => rfl
  | [_] => rfl
  | [target, items] =>
    simp only [List.map_cons, List.map_nil, trim_convertLexical, stripParens_convertLexical,
      loopBinding_convertLexical, hbinding]
    rfl
  | _ :: _ :: _ :: _ => simp [spellResult, Error.spelled]

/-! ### Headers -/

namespace Clause

/-- A clause with its condition and the rest of its line spelled for the target. -/
def spelled (c : Clause) : Clause :=
  { c with condition? := c.condition?.map convertLexical, trailing := convertLexical c.trailing }

@[simp] lemma indent_spelled (c : Clause) : c.spelled.indent = c.indent := rfl

@[simp] lemma keyword_spelled (c : Clause) : c.spelled.keyword = c.keyword := rfl

/-- A header can be read before the lexical pass or after it. -/
lemma parse?_convertLexical (line : Text) :
    parse? (convertLexical line) = (parse? line).map spelled := by
  have hnl : '\n' ∈ convertLexical line ↔ '\n' ∈ line := by
    rw [convertLexical, ← (alike_strictEquality _).mem_iff (by decide),
      ← (alike_spellNames line).mem_iff (by decide)]
  have hdrop := drop_of_spaces_append convertLexical_spaces_append line
  unfold parse?
  by_cases hmem : '\n' ∈ line
  · simp [hnl.2 hmem, hmem]
  · simp only [mt hnl.1 hmem, hmem, ↓reduceIte, leadingSpaces_convertLexical, hdrop,
      ofStart?_convertLexical, Option.bind_eq_bind, Option.bind_map, Option.map_bind]
    refine Option.bind_congr fun start _ => ?_
    have hcut := cutColonFrom?_convertLexical (s := {}) trivial start.2
    change (cutColonFrom? {} (convertLexical start.2)).bind _ = _
    rw [hcut, Option.bind_map, Function.comp_apply, Option.map_bind]
    refine Option.bind_congr fun cut _ => ?_
    have hadmits : admits start.1 (convertLexical cut.1) = admits start.1 cut.1 := by
      simp [admits]
    simp only [Function.comp_apply, hadmits, isBlank_convertLexical, trim_convertLexical]
    by_cases hadmitted : admits start.1 cut.1
    · by_cases hblank : isBlank cut.1 <;> simp [hadmitted, hblank, spelled]
    · simp [hadmitted]

lemma parse?_convertLexical_of_some {line : Text} {c : Clause} (h : parse? line = some c) :
    parse? (convertLexical line) = some c.spelled := by
  rw [parse?_convertLexical, h, Option.map_some]

/-- The condition of a clause can be rendered before the lexical pass or after it. -/
lemma renderCondition_spelled (c : Clause) :
    c.spelled.renderCondition = spellResult convertLexical c.renderCondition := by
  have hparens : ∀ t : Text,
      convertLexical (" (" ++ t ++ ")") = " (" ++ convertLexical t ++ ")" := by
    intro t
    have hwhole : (" (" : Text) ++ t ++ ")" = ' ' :: '(' :: (t ++ [')']) := by simp
    rw [hwhole, convertLexical_cons_break (by decide), convertLexical_cons_break (by decide),
      convertLexical_concat_break (by decide)]
    simp
  obtain ⟨indent, keyword, condition?, trailing⟩ := c
  cases condition? with
  | none => simp [renderCondition, spelled, spellResult]
  | some condition =>
    by_cases hloop : keyword = .forEach
    · simp only [renderCondition, spelled, Option.map_some, hloop, ↓reduceIte,
        convertMembership_convertLexical]
      cases convertMembership condition with
      | error e => rfl
      | ok binding => exact congrArg Except.ok (hparens binding).symm
    · simp only [renderCondition, spelled, Option.map_some, hloop, ↓reduceIte, spellResult, hparens]

/-- The keyword of the target is kept in front of a text that does not continue it. -/
lemma convertLexical_target_append (k : Keyword) {t : Text} (ht : t.head?.any isWord = false) :
    convertLexical (k.target ++ t) = k.target ++ convertLexical t := by
  cases k with
  | elseIf =>
    have hwhole : ∀ u : Text, Keyword.elseIf.target ++ u = "else" ++ ' ' :: ("if" ++ u) :=
      fun u => rfl
    rw [hwhole, hwhole, convertLexical_append_break (by decide),
      convertLexical_append_of_isPlainWord (by decide) ht,
      (convertLexical_eq_iff_of_isPlainWord (k := "else") (by decide)).2 rfl]
  | _ => exact convertLexical_append_of_isPlainWord (by decide) ht

/-- A rendered condition stands behind a space, if there is one. -/
lemma head?_renderCondition {c : Clause} {condition : Text}
    (h : c.renderCondition = .ok condition) (brace : Text) :
    (condition ++ ' ' :: brace).head? = some ' ' := by
  unfold renderCondition at h
  split at h
  · cases h
    rfl
  · split at h
    · obtain ⟨binding, -, rfl⟩ := map_eq_ok_iff.1 h
      rfl
    · cases h
      rfl

/-- A header can be rendered before the lexical pass or after it, at the start of its line or behind
the brace that it joins. -/
lemma render_spelled (c : Clause) {leading : Text} (hleading : leading = [] ∨ leading = "\x7d ") :
    c.spelled.render leading = spellResult convertLexical (c.render leading) := by
  have hlead : ∀ t : Text, convertLexical (leading ++ t) = leading ++ convertLexical t := by
    intro t
    rcases hleading with rfl | rfl
    · rfl
    · exact (convertLexical_cons_break (by decide) _).trans
        (congrArg _ (convertLexical_cons_break (by decide) t))
  have hbrace : ∀ u t : Text, convertLexical (u ++ (" \x7b" ++ t)) =
      convertLexical u ++ (" \x7b" ++ convertLexical t) := by
    intro u t
    exact (convertLexical_append_break (by decide) u _).trans
      (congrArg (convertLexical u ++ ' ' :: ·) (convertLexical_cons_break (by decide) t))
  unfold render
  rw [renderCondition_spelled]
  cases hcondition : c.renderCondition with
  | error e => rfl
  | ok condition =>
    have hhead : (condition ++ (" \x7b" ++ c.trailing)).head?.any isWord = false := by
      change (condition ++ ' ' :: ('\x7b' :: c.trailing)).head?.any isWord = false
      rw [head?_renderCondition hcondition]
      decide
    refine congrArg Except.ok ?_
    simp only [List.append_assoc, convertLexical_spaces_append, hlead,
      convertLexical_target_append _ hhead, hbrace]
    rfl

/-! ### The lines above -/

/-- The first word of a text can be read before the lexical pass or after it. -/
lemma takeWhile_convertLexical {p : Char → Bool} (hp : ∀ c, isBreak c = false → p c = true)
    (t : Text) : (convertLexical t).takeWhile p = convertLexical (t.takeWhile p) := by
  have hpiece : ∀ {w : Text}, IsPiece w → ∀ c ∈ w, p c = true := fun hw c hc => hp c (hw c hc)
  induction t using break_induction with
  | piece w hw =>
    rw [List.takeWhile_eq_self_iff.2 (hpiece hw), List.takeWhile_eq_self_iff.2
      (hpiece hw.convertLexical)]
  | cons w c t hw hc ih =>
    rw [convertLexical_append_break hc, List.takeWhile_append_of_pos (hpiece hw),
      List.takeWhile_append_of_pos (hpiece hw.convertLexical)]
    by_cases hpc : p c = true
    · rw [List.takeWhile_cons_of_pos hpc, List.takeWhile_cons_of_pos hpc, ih t List.suffix_rfl,
        convertLexical_append_break hc]
    · rw [List.takeWhile_cons_of_neg hpc, List.takeWhile_cons_of_neg hpc, List.append_nil,
        List.append_nil]

/-- The same clause is found above, before the lexical pass and after it. -/
lemma elseBlocker?_map_convertLexical (indent : Nat) (above : List Text) :
    elseBlocker? indent (above.map convertLexical) = elseBlocker? indent above := by
  have hbrace : IsKept "\x7d " :=
    IsKept.cons (by decide) (IsKept.cons (by decide) fun _ => rfl)
  have hword : ∀ c, isBreak c = false → (c != ' ' && c != '(') = true := by
    intro c hc
    simp [ne_of_isBreak_eq_false hc ' ' (by decide), ne_of_isBreak_eq_false hc '(' (by decide)]
  unfold elseBlocker?
  simp only [List.find?_map, Function.comp_def, isBlank_convertLexical,
    leadingSpaces_convertLexical, Option.bind_map]
  refine Option.bind_congr fun line _ => ?_
  rw [trimStart_convertLexical, hbrace]
  have hhead : ((strip? "\x7d " (trimStart line)).map convertLexical).getD
      (convertLexical (trimStart line)) =
        convertLexical ((strip? "\x7d " (trimStart line)).getD (trimStart line)) := by
    cases strip? "\x7d " (trimStart line) <;> rfl
  simp only [hhead, takeWhile_convertLexical hword]
  -- The words that are looked for are spelled as before.
  congr 1
  funext k
  have hplain : k.refusesElse = true → isPlainWord k.target = true := by
    cases k <;> decide
  cases hrefuses : k.refusesElse with
  | false => rfl
  | true =>
    rw [Bool.true_and, Bool.true_and, Bool.beq_eq_decide_eq, Bool.beq_eq_decide_eq]
    rw [decide_eq_decide, eq_comm, convertLexical_eq_iff_of_isPlainWord (hplain hrefuses), eq_comm]

/-- A clause joins the line above it before the lexical pass exactly if it does after it. -/
lemma joinAbove_spelled (c : Clause) (above : List Text) :
    c.spelled.joinAbove (above.map convertLexical) =
      spellResult (fun joined => (joined.1, joined.2.map convertLexical)) (c.joinAbove above) := by
  cases above with
  | nil => rfl
  | cons closing rest =>
    have hblocked : c.spelled.blockedBy? (rest.map convertLexical) = c.blockedBy? rest := by
      simp only [blockedBy?, keyword_spelled, indent_spelled, elseBlocker?_map_convertLexical]
    by_cases hjoins : c.keyword.chains ∧ closing = closingLine c.indent
    · obtain ⟨hchains, rfl⟩ := hjoins
      have hspelled := joinAbove_of_joins (c := c.spelled) hchains (rest.map convertLexical)
      rw [hblocked] at hspelled
      rw [List.map_cons, convertLexical_eq_closingLine_iff.2 rfl, joinAbove_of_joins hchains]
      refine hspelled.trans ?_
      cases c.blockedBy? rest <;> rfl
    · have hspelled : ¬(c.spelled.keyword.chains ∧
          ((closing :: rest).map convertLexical).head? = some (closingLine c.spelled.indent)) := by
        rw [List.map_cons, List.head?_cons, Option.some.injEq, convertLexical_eq_closingLine_iff]
        exact hjoins
      rw [joinAbove_of_not_joins hspelled, joinAbove_of_not_joins (by simpa using hjoins)]
      rfl

/-- A block has the same lines before the lexical pass and after it. -/
lemma blockBody_map_convertLexical (indent : Nat) (below : List Text) :
    blockBody indent (below.map convertLexical) = (blockBody indent below).map convertLexical := by
  have hinside : isInside indent ∘ convertLexical = isInside indent := by
    funext line
    simp [isInside]
  have hblank : isBlank ∘ convertLexical = isBlank := by
    funext line
    simp
  rw [blockBody, List.takeWhile_map, hinside, dropBlankEnd, ← List.map_reverse, List.dropWhile_map,
    hblank, ← List.map_reverse]
  rfl

/-- The lines below a block are the same before the lexical pass and after it. -/
lemma blockRest_map_convertLexical (indent : Nat) (below : List Text) :
    blockRest indent (below.map convertLexical) = (blockRest indent below).map convertLexical := by
  rw [blockRest, blockBody_map_convertLexical, List.length_map, ← List.map_drop]
  rfl

/-! ### All lines -/

/-- The pass over clauses does the same to the lines before the lexical pass and after it. -/
lemma result_braceFrom_map_convertLexical (above below : List Text) :
    (braceFrom (above.map convertLexical) (below.map convertLexical)).result =
      spellResult (List.map convertLexical) (braceFrom above below).result := by
  fun_induction braceFrom above below with
  | case1 above => simp [spellResult]
  | case2 above line below h ih =>
    have hline : parse? (convertLexical line) = none := by
      rw [parse?_convertLexical, h, Option.map_none]
    rw [List.map_cons, braceFrom_cons_of_none hline, ← List.map_cons, ih]
  | case3 above line below c h e hjoin =>
    have hline := parse?_convertLexical_of_some h
    rw [List.map_cons, result_braceFrom_cons_of_some hline, joinAbove_spelled, hjoin]
    rfl
  | case4 above line below c h leading kept hjoin e hrender =>
    have hline := parse?_convertLexical_of_some h
    have hspelled := render_spelled c ((joinAbove_cases hjoin).imp And.left And.left)
    rw [hrender] at hspelled
    rw [List.map_cons, result_braceFrom_cons_of_some hline, joinAbove_spelled, hjoin]
    change (c.spelled.render leading >>= _) = _
    rw [hspelled]
    rfl
  | case5 above line below c h leading kept hjoin header hrender body first last hlt ih =>
    have hline := parse?_convertLexical_of_some h
    have hspelled := render_spelled c ((joinAbove_cases hjoin).imp And.left And.left)
    rw [hrender] at hspelled
    have habove := joinAbove_spelled c above
    rw [hjoin] at habove
    rw [List.map_cons, result_braceFrom_cons_of_render hline habove hspelled, indent_spelled,
      blockBody_map_convertLexical, blockRest_map_convertLexical, Outcome.result_after_nil, ← ih]
    simp [convertLexical_eq_closingLine_iff.2 rfl, body]

end Clause

/-- **The lexical pass and the pass over clauses can change places.**  If one order succeeds so does
the other, with the same lines.  If one fails so does the other, with the same failure: an `else`
that is refused after the same keyword, or a loop header that falls into the same number of parts,
where the header is quoted as it is spelled in the lines of the pass that fails. -/
theorem Pass.result_lexical_controlFlow (widths : Widths) (lines : List Text) :
    (do
      let spelled ← (Pass.lexical.run widths lines).result
      (Pass.controlFlow.run widths spelled).result) =
    spellResult id (do
      let braced ← (Pass.controlFlow.run widths lines).result
      (Pass.lexical.run widths braced).result) := by
  have hbraced := Clause.result_braceFrom_map_convertLexical [] lines
  change (Clause.braceFrom [] (lines.map convertLexical)).result = _
  change _ = spellResult id ((Clause.braceFrom [] lines).result >>= fun braced =>
    .ok (braced.map convertLexical))
  rw [List.map_nil] at hbraced
  rw [hbraced]
  cases (Clause.braceFrom [] lines).result <;> rfl

end Rebrace
