import Mathlib.Data.List.Basic
import Rebrace.Proofs.SignatureReading

/-!
# Where a function header ends

The parameters of a function header extend to the last closing parenthesis behind which a header can
end: in front of a colon, or of an arrow that a colon follows.  A header with a body on its line is
therefore read as it is meant exactly if no parenthesis of the body stands in front of such an
ending: `DefLine.parse?_print_eq_iff`.  A call as the key of a dictionary display is enough for the
body to be taken for parameters.
-/

namespace Rebrace

open Text

/-! ### Endings -/

namespace Signature

/-- Can a header end in front of this text? -/
def IsEnding (t : Text) : Prop :=
  [':'] <+: t ∨ " -> ".toList <+: t ∧ ':' ∈ t

instance (t : Text) : Decidable (IsEnding t) :=
  inferInstanceAs (Decidable (_ ∨ _ ∧ _))

/-- An ending is read wherever a header can end. -/
lemma ending?_eq_none_iff {t : Text} : ending? t = none ↔ ¬ IsEnding t := by
  unfold ending?
  split
  · rename_i trailing
    exact iff_of_false (by simp) (not_not.2 (Or.inl ⟨trailing, rfl⟩))
  · rename_i hcolon
    have hstart : ¬ [':'] <+: t := by
      rintro ⟨rest, rfl⟩
      exact hcolon rest rfl
    rw [IsEnding, or_iff_right hstart]
    cases hstrip : strip? " -> " t with
    | none =>
      refine iff_of_true rfl ?_
      rintro ⟨⟨rest, hrest⟩, -⟩
      rw [strip?_eq_some_iff.2 hrest.symm] at hstrip
      cases hstrip
    | some rest =>
      have ht := strip?_eq_some_iff.1 hstrip
      have harrow : " -> ".toList <+: t := ⟨rest, ht.symm⟩
      have hmem : ':' ∈ t ↔ ':' ∈ rest := by simp [ht]
      rw [and_iff_right harrow, hmem, Option.bind_some]
      by_cases hrest : ':' ∈ rest
      · obtain ⟨before, after, rfl, hbefore⟩ := List.eq_append_cons_of_mem hrest
        simp [cutAtChar?_append hbefore]
      · simp [cutAtChar?_eq_none hrest, hrest]

/-! ### The last parenthesis -/

/-- Parameters are found if some closing parenthesis stands in front of an ending. -/
lemma cutParams?_eq_none_iff {t : Text} :
    cutParams? t = none ↔ ∀ before after, t = before ++ ')' :: after → ¬ IsEnding after := by
  induction t with
  | nil => simp [cutParams?]
  | cons c t ih =>
    rw [cutParams?]
    cases hcut : cutParams? t with
    | some found =>
      obtain ⟨before, after, rfl, hending⟩ : ∃ before after, t = before ++ ')' :: after ∧
          IsEnding after := by
        by_contra hnone
        refine absurd (ih.2 ?_) (by simp [hcut])
        exact fun before after heq hending => hnone ⟨before, after, heq, hending⟩
      refine iff_of_false (by simp) fun hall => ?_
      exact hall (c :: before) after rfl hending
    | none =>
      have hrest := ih.1 hcut
      by_cases hc : c = ')'
      · subst hc
        simp only [↓reduceIte, Option.map_eq_none_iff, ending?_eq_none_iff]
        constructor
        · rintro hnot before after heq
          cases before with
          | nil =>
            obtain rfl : t = after := by simpa using heq
            exact hnot
          | cons d before => exact hrest before after (List.cons.inj heq).2
        · exact fun hall => hall [] t rfl
      · refine iff_of_true (if_neg hc) fun before after heq => ?_
        cases before with
        | nil => exact absurd (List.cons.inj heq).1 hc
        | cons d before => exact hrest before after (List.cons.inj heq).2

/-- Parameters that are found in the end of a text are found in the whole text. -/
lemma cutParams?_append_of_some {t params : Text} {ending : Option Text × Text}
    (h : cutParams? t = some (params, ending)) (u : Text) :
    cutParams? (u ++ t) = some (u ++ params, ending) := by
  induction u with
  | nil => exact h
  | cons c u ih => rw [List.cons_append, cutParams?, ih]; rfl

/-- A text without closing parentheses adds no parameters in front. -/
lemma cutParams?_append_eq_none {t u : Text} (hu : ')' ∉ u) (h : cutParams? t = none) :
    cutParams? (u ++ t) = none := by
  induction u with
  | nil => exact h
  | cons c u ih =>
    rw [List.mem_cons, not_or] at hu
    rw [List.cons_append, cutParams?, ih hu.2]
    exact if_neg (Ne.symm hu.1)

/-- What follows an ending is shorter than the ending and what follows it. -/
lemma length_lt_of_ending? {t trailing : Text} {result? : Option Text}
    (h : ending? t = some (result?, trailing)) : trailing.length < t.length := by
  unfold ending? at h
  split at h
  · cases h
    simp
  · obtain ⟨rest, hrest, hmap⟩ := Option.bind_eq_some_iff.1 h
    obtain ⟨⟨before, after⟩, hcut, hparts⟩ := Option.map_eq_some_iff.1 hmap
    cases hparts
    rw [strip?_eq_some_iff.1 hrest, (cutAtChar?_eq_some hcut).1]
    simp
    omega

lemma length_lt_of_cutParams? {t params trailing : Text} {result? : Option Text}
    (h : cutParams? t = some (params, result?, trailing)) : trailing.length < t.length := by
  induction t generalizing params with
  | nil => cases h
  | cons c t ih =>
    rw [cutParams?] at h
    split at h
    · rename_i found ending hcut
      cases h
      exact Nat.lt_succ_of_lt (ih hcut)
    · obtain ⟨-, hmap⟩ := Option.ite_none_right_eq_some.1 h
      obtain ⟨ending, hending, hparts⟩ := Option.map_eq_some_iff.1 hmap
      cases hparts
      exact Nat.lt_succ_of_lt (length_lt_of_ending? hending)

end Signature

/-! ### Headers with a body on their line -/

/-- A function header and what stands behind its colon. -/
structure DefLine where
  /-- The number of spaces in front. -/
  indent : Nat
  /-- The name. -/
  name : Identifier
  /-- The text between the parentheses. -/
  params : Text
  /-- The result type as it is written, if one is given. -/
  result? : Option Text
  /-- What follows the colon. -/
  trailing : Text
  /-- An indented header has an owner as its first parameter. -/
  owner : indent = 0 ∨ ∃ first ∈ (splitTop ',' params).head?, Signature.isOwner first = true
  /-- The result type has neither a colon nor a closing parenthesis. -/
  notMem_result : ∀ result ∈ result?, ':' ∉ result ∧ ')' ∉ result

namespace DefLine

/-- The result type behind its arrow, and the colon. -/
def printResult (l : DefLine) : Text :=
  match l.result? with
  | some result => " -> " ++ result ++ ":"
  | none => ":"

/-- The line. -/
def print (l : DefLine) : Text :=
  spaces l.indent ++ ("def " ++ (l.name.text ++ '(' ::
    (l.params ++ ')' :: (l.printResult ++ l.trailing))))

/-- The header that is meant: its parameters are the segments between the parentheses, without the
owner if it is indented. -/
def signature (l : DefLine) : Signature where
  indent := l.indent
  kind := if l.indent = 0 then .function else .method
  name := l.name.text
  params := join ", " ((splitTop ',' l.params).drop (if l.indent = 0 then 0 else 1))
  result? := l.result?.map trim
  trailing := l.trailing

variable (l : DefLine)

lemma ending?_printResult_append :
    Signature.ending? (l.printResult ++ l.trailing) = some (l.result?.map trim, l.trailing) := by
  have hnotMem := l.notMem_result
  unfold printResult
  split
  · rename_i result hsome
    have hcut := cutAtChar?_append (hnotMem result hsome).1 l.trailing
    simp [Signature.ending?, strip?, hsome, hcut]
  · rename_i hnone
    simp [Signature.ending?, hnone]

lemma paren_notMem_printResult : ')' ∉ l.printResult := by
  have hnotMem := l.notMem_result
  unfold printResult
  split
  · rename_i result hsome
    simp [(hnotMem result hsome).2]
  · decide

lemma kindOf?_params :
    Signature.kindOf? l.indent (splitTop ',' l.params) =
      some (l.signature.kind, l.signature.params) := by
  unfold Signature.kindOf? signature
  by_cases hindent : l.indent = 0
  · simp [hindent]
  · obtain ⟨first, hfirst, howner⟩ := l.owner.resolve_left hindent
    obtain ⟨rest, hsegments⟩ : ∃ rest, splitTop ',' l.params = first :: rest := by
      cases hsplit : splitTop ',' l.params with
      | nil => simp [hsplit] at hfirst
      | cons other rest =>
        obtain rfl : other = first := by simpa [hsplit] using hfirst
        exact ⟨rest, rfl⟩
    simp [hindent, hsegments, howner]

/-- What a header is read from, behind its parenthesis, decides what it is read as. -/
lemma parse?_print_eq_some_iff (s : Signature) :
    Signature.parse? l.print = some s ↔
      '\n' ∉ l.print ∧ s.indent = l.indent ∧ s.name = l.name.text ∧ ∃ text,
        Signature.cutParams? (l.params ++ ')' :: (l.printResult ++ l.trailing)) =
            some (text, s.result?, s.trailing) ∧
          Signature.kindOf? l.indent (splitTop ',' text) = some (s.kind, s.params) := by
  have hindent : leadingSpaces l.print = l.indent :=
    leadingSpaces_spaces_append_cons _ (by decide) _
  have hdrop : l.print.drop l.indent = "def " ++ (l.name.text ++ '(' ::
      (l.params ++ ')' :: (l.printResult ++ l.trailing))) := by
    rw [print, drop_spaces_append]
  have hname := takeName?_append l.name (c := '(') (by decide)
    (l.params ++ ')' :: (l.printResult ++ l.trailing))
  rw [Signature.parse?_eq_some_iff, hindent, hdrop]
  constructor
  · rintro ⟨hnl, hs, afterDef, inside, text, hdef, htake, hcut, hkind⟩
    obtain rfl := List.append_cancel_left hdef
    rw [hname, Option.some.injEq, Prod.mk.injEq, List.cons.injEq] at htake
    obtain ⟨htext, -, rfl⟩ := htake
    exact ⟨hnl, hs, htext.symm, text, hcut, hs ▸ hkind⟩
  · rintro ⟨hnl, hs, htext, text, hcut, hkind⟩
    exact ⟨hnl, hs, _, _, text, rfl, htext ▸ hname, hcut, hs ▸ hkind⟩

/-- **A function header on one line is read up to its own colon exactly if no closing parenthesis
behind that colon stands in front of another ending.**  Otherwise a part of what follows the colon
is taken for parameters. -/
theorem parse?_print_eq_iff :
    Signature.parse? l.print = some l.signature ↔
      '\n' ∉ l.print ∧
        ∀ before after, l.trailing = before ++ ')' :: after → ¬ Signature.IsEnding after := by
  rw [← Signature.cutParams?_eq_none_iff, parse?_print_eq_some_iff]
  have hending := l.ending?_printResult_append
  constructor
  · rintro ⟨hnl, -, -, text, hcut, -⟩
    refine ⟨hnl, ?_⟩
    by_contra hsome
    obtain ⟨⟨params, result?, trailing⟩, hfound⟩ := Option.ne_none_iff_exists'.1 hsome
    -- the ending that is found stands behind the parenthesis that is meant
    have hother := Signature.cutParams?_append_of_some hfound
      (l.params ++ ')' :: l.printResult)
    rw [List.append_assoc, List.cons_append, hcut, Option.some.injEq, Prod.mk.injEq,
      Prod.mk.injEq] at hother
    have hlength := Signature.length_lt_of_cutParams? hfound
    rw [← hother.2.2] at hlength
    exact lt_irrefl _ hlength
  · rintro ⟨hnl, hnone⟩
    refine ⟨hnl, rfl, rfl, l.params, ?_, l.kindOf?_params⟩
    have hrest := Signature.cutParams?_append_eq_none l.paren_notMem_printResult hnone
    have hcut : Signature.cutParams? (')' :: (l.printResult ++ l.trailing)) =
        some ([], l.result?.map trim, l.trailing) := by
      rw [Signature.cutParams?, hrest]
      simp [hending]
    simpa [signature] using Signature.cutParams?_append_of_some hcut l.params

/-- A body with a call, a slice and a comment behind the colon of a method. -/
theorem parse?_print_eq_of_slice :
    Signature.parse? "    def f(self, x: int) -> List[int]: return g(x)[1:]  # see h()" =
      some { indent := 4, kind := .method, name := "f", params := "x: int",
             result? := some "List[int]".toList, trailing := " return g(x)[1:]  # see h()" } := by
  let l : DefLine :=
    { indent := 4, name := ⟨"f", by decide, forall_mem_of_all (by decide)⟩,
      params := "self, x: int", result? := some "List[int]".toList,
      trailing := " return g(x)[1:]  # see h()",
      owner := by decide, notMem_result := by simp }
  have hline : l.print =
      "    def f(self, x: int) -> List[int]: return g(x)[1:]  # see h()".toList := by decide
  have hnone : Signature.cutParams? l.trailing = none := by decide
  have hnl : '\n' ∉ l.print := by decide
  rw [← hline, l.parse?_print_eq_iff.2 ⟨hnl, Signature.cutParams?_eq_none_iff.1 hnone⟩]
  decide

/-- A call as the key of a dictionary display: the body is read as parameters up to that call. -/
theorem parse?_print_ne_of_call_key :
    ∃ l : DefLine, l.print = "def f(a): return \x7bg(a): 1\x7d".toList ∧
      l.params = "a".toList ∧ l.trailing = " return \x7bg(a): 1\x7d".toList ∧
      Signature.parse? l.print ≠ some l.signature ∧
      Signature.parse? l.print =
        some { indent := 0, kind := .function, name := "f", params := "a): return \x7bg(a",
               result? := none, trailing := " 1\x7d" } := by
  let l : DefLine :=
    { indent := 0, name := ⟨"f", by decide, forall_mem_of_all (by decide)⟩, params := "a",
      result? := none, trailing := " return \x7bg(a): 1\x7d", owner := by decide,
      notMem_result := by simp }
  exact ⟨l, by decide, rfl, rfl, by decide, by decide⟩

end DefLine

end Rebrace
