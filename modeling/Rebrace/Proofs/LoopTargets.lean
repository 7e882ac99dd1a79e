import Mathlib
import Rebrace.Header.Clause
import Rebrace.Proofs.Pieces

/-!
# Loops with several targets

The targets of a loop are cut at the commas outside parentheses and joined again, and a parenthesis
at both ends of the whole is taken off first.  For targets with balanced brackets this gives them
back exactly if commas inside other brackets are written with one space behind them and none in
front, and if the first target does not start with a parenthesis while the last one ends with one:
`convertMembership_eq_iff`.  Else the two parentheses that are taken off belong to different
targets, and those of the binding are not balanced.
-/

namespace Rebrace

open Text

/-! ### Targets and items -/

/-- A target of a loop. -/
structure LoopTarget where
  /-- The target as it is written. -/
  text : Text
  /-- There is a target. -/
  ne_nil : text ≠ []
  /-- There is no white space at its ends. -/
  trim_eq : trim text = text
  /-- There are no string literals in it. -/
  quote_notMem : ∀ c ∈ text, isQuoteMark c = false
  /-- Brackets of each kind are balanced. -/
  balanced : ∀ pair ∈ [BracketPair.round, .square, .curly], IsBalanced pair.nest text
  /-- There is no comma outside of brackets. -/
  comma_notMem : ',' ∉ Scan.exposed nestAll {} text
  /-- The word `in` does not stand in it between spaces, or between a space and one of its ends. -/
  in_notMem : ¬ " in ".toList <:+: ' ' :: (text ++ [' '])

/-- What a loop goes through. -/
structure LoopItems where
  /-- The expression as it is written. -/
  text : Text
  /-- There is an expression. -/
  ne_nil : text ≠ []
  /-- There is no white space at its ends. -/
  trim_eq : trim text = text
  /-- The word `in` stands in square brackets or string literals only. -/
  in_notMem : ∀ before after, text = before ++ (" in " ++ after) →
    Scan.run BracketPair.square.nest {} before ≠ {}

/-- A text with one space behind each of its commas outside parentheses, and none in front. -/
def respace (t : Text) : Text :=
  join ", " (BracketPair.round.splitTrim "," t)

/-- A parenthesis stands at the start of a text, and one at its end. -/
def IsEnclosed (t : Text) : Prop :=
  ∃ inner, t = '(' :: (inner ++ [')'])

namespace LoopTarget

variable (t : LoopTarget)

lemma isTrimmed : IsTrimmed t.text :=
  .of_trim_eq t.ne_nil t.trim_eq

/-- A target leaves every scanner for one kind of brackets as it was. -/
lemma run_eq (pair : BracketPair) (h : pair ∈ [BracketPair.round, .square, .curly]) :
    Scan.run pair.nest {} t.text = {} := by
  have hrun : Scan.run pair.nest {} t.text = _ := run_of_forall t.quote_notMem 0
  rwa [(t.balanced pair h).level_eq] at hrun

/-- All brackets of a target are closed. -/
lemma level_nestAll : level nestAll t.text = 0 := by
  have hsum : level nestAll t.text = level BracketPair.round.nest t.text +
      level BracketPair.square.nest t.text + level BracketPair.curly.nest t.text := by
    simp only [level, funext nestAll_eq_add, List.sum_map_add]
  rw [hsum, (t.balanced .round (by simp)).level_eq, (t.balanced .square (by simp)).level_eq,
    (t.balanced .curly (by simp)).level_eq]
  rfl

/-- A target does not end with a comma: it would not be inside of brackets. -/
lemma getLast?_ne_comma : t.text.getLast? ≠ some ',' := by
  intro hlast
  obtain ⟨init, htext⟩ := List.getLast?_eq_some_iff.1 hlast
  have hlevel := t.level_nestAll
  have hquote := t.quote_notMem
  rw [htext] at hlevel hquote
  have hinit : level nestAll init = 0 := by simpa [nestAll] using hlevel
  have hrun : Scan.run nestAll {} init = _ :=
    run_of_forall (fun c hc => hquote c (List.mem_append_left _ hc)) 0
  rw [hinit] at hrun
  refine t.comma_notMem ?_
  rw [htext, Scan.exposed_append, List.mem_append, hrun]
  exact Or.inr (by decide)

/-- The last piece of a target between commas is not blank. -/
lemma dropBlankLast_pieces (pair : BracketPair) :
    dropBlankLast (pair.pieces [','] t.text) = pair.pieces [','] t.text := by
  rcases dropBlankLast_eq_or (pair.pieces [','] t.text) with hall | ⟨last, hblank, hpieces⟩
  · exact hall
  · exfalso
    have htext := BracketPair.join_pieces pair [','] t.text
    rw [hpieces] at htext
    obtain ⟨front, hfront, hcomma⟩ : ∃ front, t.text = front ++ last ∧
        (front = [] ∨ front.getLast? = some ',') := by
      by_cases hnil : dropBlankLast (pair.pieces [','] t.text) = []
      · refine ⟨[], ?_, Or.inl rfl⟩
        rw [hnil] at htext
        simpa [join] using htext.symm
      · rw [join_append _ hnil (by simp)] at htext
        exact ⟨_, by simpa [join] using htext.symm, Or.inr (List.getLast?_concat ..)⟩
    by_cases hlast : last = []
    · rw [hlast, List.append_nil] at hfront
      rcases hcomma with hnil | hcomma
      · exact t.ne_nil (hfront.trans hnil)
      · exact t.getLast?_ne_comma (hfront ▸ hcomma)
    · obtain ⟨c, hc⟩ := Option.ne_none_iff_exists'.1 (mt List.getLast?_eq_none_iff.1 hlast)
      have hwhite := List.all_eq_true.1 hblank c (List.mem_of_getLast? hc)
      have hvisible := t.isTrimmed.last c (by rwa [hfront, List.getLast?_append_of_ne_nil _ hlast])
      rw [hwhite] at hvisible
      cases hvisible

/-- The pieces of a target between the commas outside one kind of brackets. -/
lemma splitTrim_eq (pair : BracketPair) :
    pair.splitTrim [','] t.text = (pair.pieces [','] t.text).map trim := by
  rw [BracketPair.splitTrim, BracketPair.split, t.dropBlankLast_pieces]

/-- A target keeps its visible characters when its commas are respaced. -/
lemma visible_respace : visible (respace t.text) = visible t.text := by
  have hpieces := BracketPair.join_pieces .round [','] t.text
  change visible (join ", " (BracketPair.round.splitTrim [','] t.text)) = _
  rw [t.splitTrim_eq, visible_join_map_trim]
  exact congrArg visible hpieces

end LoopTarget

section Targets

variable {ts : List LoopTarget}

/-- The targets of a loop, with commas between them. -/
def joinTargets (ts : List LoopTarget) : Text :=
  join ", " (ts.map LoopTarget.text)

/-- Several targets are a first one, a second one and perhaps more. -/
lemma exists_eq_cons_cons (h : 2 ≤ ts.length) : ∃ t u rest, ts = t :: u :: rest := by
  rcases ts with _ | ⟨t, _ | ⟨u, rest⟩⟩
  · simp at h
  · simp at h
  · exact ⟨t, u, rest, rfl⟩

lemma joinTargets_cons (t u : LoopTarget) (ts : List LoopTarget) :
    joinTargets (t :: u :: ts) = t.text ++ ',' :: ' ' :: joinTargets (u :: ts) := by
  simp [joinTargets, join, List.intercalate_cons_cons]

/-- The pieces of all targets are the pieces of each. -/
lemma splitTrim_joinTargets (ts : List LoopTarget) :
    BracketPair.round.splitTrim [','] (joinTargets ts) =
      ts.flatMap fun t => BracketPair.round.splitTrim [','] t.text := by
  induction ts with
  | nil => rfl
  | cons t ts ih =>
    cases ts with
    | nil => simp [joinTargets, join]
    | cons u ts =>
      have hpieces := BracketPair.pieces_append_comma (by decide) (t.run_eq .round (by simp))
        (' ' :: joinTargets (u :: ts))
      rw [List.flatMap_cons, ← ih, t.splitTrim_eq, joinTargets_cons,
        ← BracketPair.splitTrim_cons_space (by decide) (joinTargets (u :: ts))]
      simp only [BracketPair.splitTrim, BracketPair.split, hpieces]
      rw [dropBlankLast_append (by simp [BracketPair.pieces]), List.map_append]

/-- Several targets are destructured, with their commas respaced. -/
lemma loopBinding_joinTargets (h : 2 ≤ ts.length) :
    loopBinding (joinTargets ts) =
      '[' :: (join ", " (ts.map fun t => respace t.text) ++ [']']) := by
  have hne : ∀ t ∈ ts, BracketPair.round.splitTrim [','] t.text ≠ [] := by
    intro t _
    rw [t.splitTrim_eq]
    simp [BracketPair.pieces]
  have hlength : 1 < (BracketPair.round.splitTrim [','] (joinTargets ts)).length := by
    obtain ⟨t, u, rest, rfl⟩ := exists_eq_cons_cons h
    have ht := List.length_pos_iff.2 (hne t (by simp))
    have hu := List.length_pos_iff.2 (hne u (by simp))
    simp only [splitTrim_joinTargets, List.flatMap_cons, List.length_append]
    omega
  change (if 1 < (BracketPair.round.splitTrim [','] (joinTargets ts)).length then
    '[' :: (join ", " (BracketPair.round.splitTrim [','] (joinTargets ts)) ++ [']']) else _) = _
  rw [if_pos hlength, splitTrim_joinTargets, join_flatMap _ hne]
  rfl

/-- White space is no parenthesis. -/
lemma round_nest_of_isWhite (c : Char) (h : isWhite c = true) : BracketPair.round.nest c = 0 :=
  BracketPair.nest_of_isWhite (by decide) (by decide) c h

/-- The parentheses of targets are balanced. -/
lemma isBalanced_joinTargets (ts : List LoopTarget) :
    IsBalanced BracketPair.round.nest (joinTargets ts) := by
  refine IsBalanced.join (isBalanced_of_forall (forall_mem_of_all (by decide))) ?_
  exact List.forall_mem_map.2 fun t _ => t.balanced .round (by simp)

/-- The parentheses of targets in square brackets are balanced, whatever white space they have. -/
lemma isBalanced_bracketed {t : Text} (h : visible t = visible (joinTargets ts)) :
    IsBalanced BracketPair.round.nest ('[' :: (t ++ [']'])) := by
  have ht : IsBalanced BracketPair.round.nest t := by
    rw [← isBalanced_visible_iff round_nest_of_isWhite, h,
      isBalanced_visible_iff round_nest_of_isWhite]
    exact isBalanced_joinTargets ts
  have hopen : IsBalanced BracketPair.round.nest ['['] :=
    isBalanced_of_forall (forall_mem_of_all (by decide))
  have hclose : IsBalanced BracketPair.round.nest [']'] :=
    isBalanced_of_forall (forall_mem_of_all (by decide))
  exact hopen.append (ht.append hclose)

lemma visible_respaced :
    visible (join ", " (ts.map fun t => respace t.text)) = visible (joinTargets ts) := by
  rw [joinTargets, visible_join, visible_join, List.map_map, List.map_map]
  simp [Function.comp_def, LoopTarget.visible_respace]

/-! ### Parentheses around all targets -/

/-- A parenthesis at both ends of a text is taken off. -/
lemma stripParens_enclosed (inner : Text) : stripParens ('(' :: (inner ++ [')'])) = inner := by
  have hstart : strip? "(" ('(' :: (inner ++ [')'])) = some (inner ++ [')']) :=
    strip?_eq_some_iff.2 rfl
  have hend : stripEnd? ")" (inner ++ [')']) = some inner := stripEnd?_eq_some_iff.2 rfl
  rw [stripParens, hstart, Option.bind_some, hend, Option.getD_some]

/-- Nothing is taken off a text that does not have a parenthesis at both ends. -/
lemma stripParens_of_not_isEnclosed {t : Text} (h : ¬ IsEnclosed t) : stripParens t = t := by
  cases hstrip : (strip? "(" t).bind (stripEnd? ")") with
  | none => rw [stripParens, hstrip, Option.getD_none]
  | some inner =>
    obtain ⟨rest, hrest, hend⟩ := Option.bind_eq_some_iff.1 hstrip
    refine absurd ⟨inner, ?_⟩ h
    rw [strip?_eq_some_iff.1 hrest, stripEnd?_eq_some_iff.1 hend]
    simp

/-- What is left of the first target, when its parenthesis is taken off, closes one parenthesis more
than it opens. -/
lemma exists_inner_eq (hlength : 2 ≤ ts.length) {inner : Text}
    (h : joinTargets ts = '(' :: (inner ++ [')'])) :
    ∃ first rest, inner = first ++ ',' :: rest ∧ level BracketPair.round.nest first = -1 := by
  obtain ⟨t, u, others, rfl⟩ := exists_eq_cons_cons hlength
  obtain ⟨c, first, htext⟩ := List.exists_cons_of_ne_nil t.ne_nil
  rw [joinTargets_cons, htext, List.cons_append, List.cons.injEq] at h
  obtain ⟨rfl, hrest⟩ := h
  have hlast : (' ' :: joinTargets (u :: others)).dropLast ++ [')'] =
      ' ' :: joinTargets (u :: others) := by
    refine List.dropLast_append_getLast? _ ?_
    have hgetLast := congrArg List.getLast? hrest
    rwa [List.getLast?_append_of_ne_nil _ (by simp), List.getLast?_cons_of_ne_nil (by simp),
      List.getLast?_concat] at hgetLast
  refine ⟨first, (' ' :: joinTargets (u :: others)).dropLast, ?_, ?_⟩
  · rw [← hlast, ← List.cons_append, ← List.append_assoc] at hrest
    exact (List.append_cancel_right hrest).symm
  · have hbalanced := (t.balanced .round (by simp)).level_eq
    have hparen : BracketPair.round.nest '(' = 1 := by decide
    rw [htext, level_cons] at hbalanced
    omega

/-- **Parentheses of different targets are taken off.**  The binding of targets that start and end
with a parenthesis closes the first target before it was opened. -/
lemma not_isBalanced_of_isEnclosed (hlength : 2 ≤ ts.length) (h : IsEnclosed (joinTargets ts)) :
    ¬ IsBalanced BracketPair.round.nest (loopBinding (stripParens (joinTargets ts))) := by
  obtain ⟨inner, hinner⟩ := h
  obtain ⟨first, rest, rfl, hlevel⟩ := exists_inner_eq hlength hinner
  have hnot : ∀ {binding front : Text}, level BracketPair.round.nest front = 0 →
      front ++ visible first <+: visible binding →
      ¬ IsBalanced BracketPair.round.nest binding := by
    intro binding front hfront hstart hbalanced
    rw [← isBalanced_visible_iff round_nest_of_isWhite] at hbalanced
    have hnonneg := hbalanced.nonneg _ hstart
    rw [level_append, hfront, level_visible round_nest_of_isWhite, hlevel] at hnonneg
    omega
  rw [hinner, stripParens_enclosed]
  unfold loopBinding
  simp only
  split
  · have hbracket : level BracketPair.round.nest ['['] = 0 := by decide
    obtain ⟨more, hmore⟩ := visible_isPrefix_join_splitTrim .round first rest
    refine hnot hbracket ⟨more ++ [']'], ?_⟩
    rw [visible_append, visible_append, ← hmore]
    simp only [List.append_assoc]
    rfl
  · refine hnot level_nil ?_
    rw [visible_append]
    exact List.prefix_append _ _

end Targets

/-! ### Memberships -/

/-- The word `in` that begins in front of another one does not reach beyond its first space. -/
lemma prefix_concat_space {t rest : Text} (hne : t ≠ [])
    (h : " in ".toList <+: t ++ (" in " ++ rest)) : " in ".toList <+: t ++ [' '] := by
  rcases t with _ | ⟨a, _ | ⟨b, _ | ⟨c, _ | ⟨d, t⟩⟩⟩⟩
  · exact absurd rfl hne
  · simp at h
  · simp at h
  · simpa using h
  · simpa using h

/-- The word `in` is not found in the items. -/
lemma LoopItems.cutFrom_text (items : LoopItems) :
    BracketPair.square.cutFrom " in " {} 0 items.text = (items.text, []) := by
  have hnone : ∀ before c after, items.text = before ++ c :: after →
      (Scan.run BracketPair.square.nest {} before).exposes BracketPair.square.nest c = true →
        ¬ " in ".toList <+: c :: (after ++ []) := by
    rintro before c after htext hexposes ⟨rest, hrest⟩
    rw [List.append_nil] at hrest
    refine items.in_notMem before rest (by rw [htext, ← hrest]) ?_
    exact Scan.eq_of_exposes hexposes
  have hcut := BracketPair.cutFrom_append_of_forall hnone
  rwa [List.append_nil, BracketPair.cutFrom, List.append_nil] at hcut

/-- The items are found behind the word `in`. -/
lemma LoopItems.cutFrom_in_append (items : LoopItems) :
    BracketPair.square.cutFrom " in " {} 0 (" in " ++ items.text) = ([], [items.text]) := by
  have hexposes : Scan.exposes BracketPair.square.nest {} ' ' = true := by decide
  have hcut : BracketPair.square.cutFrom " in " {} 0 (" in " ++ items.text) = _ :=
    BracketPair.cutFrom_delimiter_append hexposes items.text
  rw [hcut]
  exact congrArg (fun cut : Text × List Text => (([] : Text), cut.1 :: cut.2)) items.cutFrom_text

/-- The condition of a loop is cut in front of its items. -/
lemma split_membership {target : Text} (hrun : Scan.run BracketPair.square.nest {} target = {})
    (htarget : ¬ " in ".toList <:+: target ++ [' ']) (items : LoopItems) :
    BracketPair.square.split " in " (target ++ (" in " ++ items.text)) = [target, items.text] := by
  have hfirst : ∀ before c after, target = before ++ c :: after →
      (Scan.run BracketPair.square.nest {} before).exposes BracketPair.square.nest c = true →
        ¬ " in ".toList <+: c :: (after ++ (" in " ++ items.text)) := by
    rintro before c after rfl - hin
    refine htarget ?_
    obtain ⟨rest, hrest⟩ := prefix_concat_space (List.cons_ne_nil c after) hin
    exact ⟨before, rest, by rw [List.append_assoc, hrest, List.append_assoc]⟩
  have hcut := BracketPair.cutFrom_append_of_forall hfirst
  rw [hrun, items.cutFrom_in_append, List.append_nil] at hcut
  have hblank : isBlank items.text = false := by
    rw [Bool.eq_false_iff]
    intro hblank
    exact items.ne_nil (items.trim_eq.symm.trans (trim_eq_nil_of_isBlank hblank))
  rw [BracketPair.split, BracketPair.pieces]
  simp only [hcut, dropBlankLast, hblank, Bool.false_eq_true, ↓reduceIte]

/-- The word `in` does not stand between the targets of a loop. -/
lemma in_notMem_joinTargets (ts : List LoopTarget) :
    ¬ " in ".toList <:+: ' ' :: (joinTargets ts ++ [' ']) := by
  induction ts with
  | nil => decide
  | cons t ts ih =>
    cases ts with
    | nil => simpa [joinTargets, join] using t.in_notMem
    | cons u ts =>
      intro hin
      have hcons : ' ' :: (joinTargets (t :: u :: ts) ++ [' ']) =
          (' ' :: t.text) ++ ',' :: ' ' :: (joinTargets (u :: ts) ++ [' ']) := by
        rw [joinTargets_cons]
        simp
      rw [hcons] at hin
      rcases infix_of_infix_append_cons (by decide) hin with hin | hin
      · exact t.in_notMem (hin.trans (List.prefix_append (' ' :: t.text) [' ']).isInfix)
      · exact ih hin

/-- Targets leave the scanner for square brackets as it was. -/
lemma run_joinTargets (ts : List LoopTarget) :
    Scan.run BracketPair.square.nest {} (joinTargets ts) = {} := by
  induction ts with
  | nil => rfl
  | cons t ts ih =>
    cases ts with
    | nil => simpa [joinTargets, join] using t.run_eq .square (by simp)
    | cons u ts =>
      rw [joinTargets_cons, Scan.run_append, t.run_eq .square (by simp)]
      exact ih

/-- A closed target without the word `in` is bound to the items. -/
lemma convertMembership_append {target : Text}
    (hrun : Scan.run BracketPair.square.nest {} target = {})
    (htarget : ¬ " in ".toList <:+: target ++ [' ']) (htrim : trim target = target)
    (items : LoopItems) :
    convertMembership (target ++ (" in " ++ items.text)) =
      .ok ("const " ++ loopBinding (stripParens target) ++ " of " ++ items.text) := by
  rw [convertMembership, split_membership hrun htarget items]
  simp only [htrim, items.trim_eq]

/-- Targets with parentheses around them. -/
lemma convertMembership_enclosed (ts : List LoopTarget) (items : LoopItems) :
    convertMembership ('(' :: (joinTargets ts ++ [')']) ++ (" in " ++ items.text)) =
      .ok ("const " ++ loopBinding (joinTargets ts) ++ " of " ++ items.text) := by
  have hrun : Scan.run BracketPair.square.nest {} ('(' :: (joinTargets ts ++ [')'])) = {} := by
    rw [Scan.run_cons, show Scan.next BracketPair.square.nest {} '(' = {} by decide,
      Scan.run_append, run_joinTargets]
    decide
  have hin : ¬ " in ".toList <:+: '(' :: (joinTargets ts ++ [')']) ++ [' '] := by
    intro hin
    rw [← List.nil_append ('(' :: _), List.append_assoc, List.cons_append, List.append_assoc,
      List.singleton_append] at hin
    rcases infix_of_infix_append_cons (by decide) hin with hin | hin
    · revert hin
      decide
    · rcases infix_of_infix_append_cons (by decide) hin with hin | hin
      · refine in_notMem_joinTargets ts (hin.trans ?_)
        exact (List.prefix_append _ _).isInfix.trans (List.suffix_cons _ _).isInfix
      · revert hin
        decide
  have htrim : IsTrimmed ('(' :: (joinTargets ts ++ [')'])) := by
    refine ⟨by simp, fun c hc => ?_, fun c hc => ?_⟩
    · obtain rfl : '(' = c := by simpa using hc
      decide
    · rw [← List.cons_append, List.getLast?_concat] at hc
      obtain rfl : ')' = c := by simpa using hc
      decide
  rw [convertMembership_append hrun hin htrim.trim_eq items, stripParens_enclosed]

section Loops

variable {ts : List LoopTarget} (hlength : 2 ≤ ts.length) (items : LoopItems)
include hlength

/-- Targets without parentheses around them. -/
lemma convertMembership_joinTargets :
    convertMembership (joinTargets ts ++ (" in " ++ items.text)) =
      .ok ("const " ++ loopBinding (stripParens (joinTargets ts)) ++ " of " ++ items.text) := by
  refine convertMembership_append (run_joinTargets ts) (fun hin => ?_) ?_ items
  · exact in_notMem_joinTargets ts (hin.trans (List.suffix_cons _ _).isInfix)
  · obtain ⟨t, u, rest, rfl⟩ := exists_eq_cons_cons hlength
    have htargets : ∀ v ∈ (t :: u :: rest).map LoopTarget.text, IsTrimmed v :=
      List.forall_mem_map.2 fun v _ => v.isTrimmed
    exact (IsTrimmed.join htargets).trim_eq

/-- **When several targets of a loop are bound as they are written.**  Every loop over several
targets is converted.  The binding names the targets as they are exactly if their commas outside
parentheses have one space behind them and none in front, and, in a loop without parentheses around
its targets, if there is no parenthesis at both ends of the targets.  Where there is one at both
ends, the parentheses of the binding are not balanced. -/
theorem convertMembership_eq_iff :
    ∃ bare enclosed : Text,
      convertMembership (joinTargets ts ++ " in " ++ items.text) =
        .ok ("const " ++ bare ++ " of " ++ items.text) ∧
      convertMembership ("(" ++ joinTargets ts ++ ") in " ++ items.text) =
        .ok ("const " ++ enclosed ++ " of " ++ items.text) ∧
      (bare = "[" ++ joinTargets ts ++ "]" ↔
        ¬ IsEnclosed (joinTargets ts) ∧ ∀ t ∈ ts, respace t.text = t.text) ∧
      (enclosed = "[" ++ joinTargets ts ++ "]" ↔ ∀ t ∈ ts, respace t.text = t.text) ∧
      (IsBalanced BracketPair.round.nest bare ↔ ¬ IsEnclosed (joinTargets ts)) ∧
      IsBalanced BracketPair.round.nest enclosed := by
  have hbinding := loopBinding_joinTargets hlength
  have hbalanced : IsBalanced BracketPair.round.nest (loopBinding (joinTargets ts)) := by
    rw [hbinding]
    exact isBalanced_bracketed visible_respaced
  have hrespace : loopBinding (joinTargets ts) = "[" ++ joinTargets ts ++ "]" ↔
      ∀ t ∈ ts, respace t.text = t.text := by
    have hvisible : ∀ t ∈ ts.map LoopTarget.text, visible (respace t) = visible t :=
      List.forall_mem_map.2 fun t _ => t.visible_respace
    have hjoin := join_map_eq_iff hvisible
    rw [List.map_map, List.forall_mem_map] at hjoin
    change _ = '[' :: (joinTargets ts ++ [']']) ↔ _
    rw [hbinding, List.cons.injEq, and_iff_right rfl, List.append_left_inj]
    exact hjoin
  have hbare := convertMembership_joinTargets hlength items
  rw [← List.append_assoc] at hbare
  have henclosed := convertMembership_enclosed ts items
  refine ⟨_, _, hbare, ?_, ?_, hrespace, ?_, hbalanced⟩
  · rw [← henclosed]
    simp
  · constructor
    · intro heq
      have hnot : ¬ IsEnclosed (joinTargets ts) := fun henclosed =>
        not_isBalanced_of_isEnclosed hlength henclosed (heq ▸ isBalanced_bracketed rfl)
      rw [stripParens_of_not_isEnclosed hnot] at heq
      exact ⟨hnot, hrespace.1 heq⟩
    · rintro ⟨hnot, hall⟩
      rw [stripParens_of_not_isEnclosed hnot]
      exact hrespace.2 hall
  · constructor
    · exact fun h henclosed => not_isBalanced_of_isEnclosed hlength henclosed h
    · intro hnot
      rwa [stripParens_of_not_isEnclosed hnot]

end Loops

/-- A name and a tuple as targets of one loop, with and without parentheses around both. -/
theorem convertMembership_eq_iff_tuple :
    convertMembership "x, (a, b) in ys" = .ok "const [x, (a, b)] of ys" ∧
      convertMembership "(x, (a, b)) in ys" = .ok "const [x, (a, b)] of ys" := by
  let name : LoopTarget :=
    { text := "x", ne_nil := by decide, trim_eq := by decide,
      quote_notMem := forall_mem_of_all (by decide), balanced := by decide,
      comma_notMem := by decide, in_notMem := by decide }
  let tuple : LoopTarget :=
    { text := "(a, b)", ne_nil := by decide, trim_eq := by decide,
      quote_notMem := forall_mem_of_all (by decide), balanced := by decide,
      comma_notMem := by decide, in_notMem := by decide }
  let items : LoopItems :=
    { text := "ys", ne_nil := by decide, trim_eq := by decide,
      in_notMem := fun before after htext _ => absurd
        (show " in ".toList <:+: "ys".toList from ⟨before, after, by simp [htext]⟩) (by decide) }
  obtain ⟨bare, enclosed, hbare, henclosed, hbinding, hbinding', -, -⟩ :=
    convertMembership_eq_iff (show 2 ≤ [name, tuple].length by decide) items
  have hnot : ¬ IsEnclosed (joinTargets [name, tuple]) := by
    rintro ⟨inner, hinner⟩
    cases hinner
  have hname : respace "x" = "x".toList := by decide
  have htuple : respace "(a, b)" = "(a, b)".toList := by decide
  have hall : ∀ t ∈ [name, tuple], respace t.text = t.text :=
    List.forall_mem_cons.2 ⟨hname, List.forall_mem_singleton.2 htuple⟩
  rw [hbinding.2 ⟨hnot, hall⟩] at hbare
  rw [hbinding'.2 hall] at henclosed
  exact ⟨hbare, henclosed⟩

/-- Tuples as the first and the last target: the parentheses that are taken off are those of two
tuples.  Commas inside square brackets are respaced. -/
theorem convertMembership_ne_of_tuples :
    convertMembership "(a, b), (c, d) in xs" = .ok "const [a, b), (c, d] of xs" ∧
      convertMembership "a[0,1], b in xs" = .ok "const [a[0, 1], b] of xs" := by
  decide +kernel

end Rebrace
