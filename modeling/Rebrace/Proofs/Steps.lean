import Mathlib.Data.List.Basic
import Rebrace.Pass.Pipeline

/-!
# One step of a pass

The results of the passes, without the events that they report, one line at a time.  A line that is
no header is passed over; a header is rendered, its block gets a closing brace, and the pass goes on
with the first line below the header.  Everything else that is known of the passes is derived from
these equations.  What every step of a pass keeps is kept by a pass that succeeds:
`Clause.braceFrom_ok_induction` and `Declaration.braceFrom_ok_induction`.

`result_runAll` is the same for the sequence of passes: each one works on the lines that the one
before it has left, and the first failure ends the sequence.
-/

namespace Rebrace

open Text

/-! ### Results -/

/-- Two steps succeed if the first does and the second does on its result. -/
lemma bind_eq_ok_iff {α β : Type} {x : Except Error α} {f : α → Except Error β} {b : β} :
    x >>= f = .ok b ↔ ∃ a, x = .ok a ∧ f a = .ok b := by
  cases x with
  | error e => simp [bind, Except.bind]
  | ok a => simp [bind, Except.bind]

/-- A function of a result succeeds if the result does. -/
lemma map_eq_ok_iff {α β : Type} {x : Except Error α} {f : α → β} {b : β} :
    f <$> x = .ok b ↔ ∃ a, x = .ok a ∧ f a = b := by
  cases x with
  | error e => simp [Functor.map, Except.map]
  | ok a => simp [Functor.map, Except.map]

/-! ### Outcomes -/

/-- Lines put in front of an outcome are put in front of its result. -/
@[simp] lemma Outcome.result_after (o : Outcome) (lines : List Text) (events : List Event) :
    (o.after lines events).result = (lines ++ ·) <$> o.result := by
  obtain ⟨olines, failure?, oevents⟩ := o
  cases failure? <;> rfl

/-- Events alone do not change the result. -/
lemma Outcome.result_after_nil (o : Outcome) (events : List Event) :
    (o.after [] events).result = o.result := by
  rw [Outcome.result_after]
  exact id_map' _

/-- The outcome of a pass that cannot fail. -/
@[simp] lemma Outcome.result_mk_none (lines : List Text) (events : List Event) :
    (Outcome.mk lines none events).result = .ok lines := rfl

/-! ### Clauses -/

namespace Clause

@[simp] lemma result_braceFrom_nil (above : List Text) :
    (braceFrom above []).result = .ok above.reverse := by
  simp [braceFrom]

/-- A line that opens no clause is passed over. -/
lemma braceFrom_cons_of_none {line : Text} (h : parse? line = none) (above below : List Text) :
    braceFrom above (line :: below) = braceFrom (line :: above) below := by
  rw [braceFrom]
  split
  · rfl
  · rename_i c hc
    rw [h] at hc
    cases hc

/-- Lines that open no clauses are passed over. -/
lemma braceFrom_append_of_none {passed : List Text} (h : ∀ line ∈ passed, parse? line = none)
    (above below : List Text) :
    braceFrom above (passed ++ below) = braceFrom (passed.reverse ++ above) below := by
  induction passed generalizing above with
  | nil => rfl
  | cons line passed ih =>
    rw [List.cons_append, braceFrom_cons_of_none (h line (by simp)),
      ih fun other hmem => h other (List.mem_cons_of_mem _ hmem)]
    simp

/-- A clause with no brace to join starts a line of its own. -/
lemma joinAbove_of_not_joins {c : Clause} {above : List Text}
    (h : ¬(c.keyword.chains ∧ above.head? = some (closingLine c.indent))) :
    c.joinAbove above = .ok ([], above) := by
  cases above with
  | nil => rfl
  | cons closing rest => exact if_neg (by simpa using h)

/-- A clause that continues another one takes the closing brace directly above into its line, unless
it is an `else` that is refused. -/
lemma joinAbove_of_joins {c : Clause} (hchains : c.keyword.chains) (rest : List Text) :
    c.joinAbove (closingLine c.indent :: rest) =
      match c.blockedBy? rest with
      | some keyword => .error (.unsupportedElse keyword)
      | none => .ok ("\x7d ", rest) :=
  if_pos ⟨hchains, rfl⟩

/-- A clause takes nothing but the closing brace directly above it, and stands behind that brace. -/
lemma joinAbove_cases {c : Clause} {above kept : List Text} {leading : Text}
    (h : c.joinAbove above = .ok (leading, kept)) :
    (leading = [] ∧ above = kept) ∨ (leading = "\x7d " ∧ above = closingLine c.indent :: kept) := by
  by_cases hjoins : c.keyword.chains ∧ above.head? = some (closingLine c.indent)
  · obtain ⟨rest, rfl⟩ := List.head?_eq_some_iff.1 hjoins.2
    rw [joinAbove_of_joins hjoins.1] at h
    split at h
    · cases h
    · cases h
      exact Or.inr ⟨rfl, rfl⟩
  · rw [joinAbove_of_not_joins hjoins] at h
    cases h
    exact Or.inl ⟨rfl, rfl⟩

/-- A clause takes nothing but the closing brace directly above it. -/
lemma eq_or_eq_cons_of_joinAbove {c : Clause} {above kept : List Text} {leading : Text}
    (h : c.joinAbove above = .ok (leading, kept)) :
    above = kept ∨ above = closingLine c.indent :: kept :=
  (joinAbove_cases h).imp And.right And.right

/-- A clause header joins the line above it or not, is rendered, and its block is closed. -/
lemma result_braceFrom_cons_of_some {line : Text} {c : Clause} (h : parse? line = some c)
    (above below : List Text) :
    (braceFrom above (line :: below)).result =
      (do
        let joined ← c.joinAbove above
        let header ← c.render joined.1
        (braceFrom (header :: joined.2)
          (blockBody c.indent below ++
            closingLine c.indent :: blockRest c.indent below)).result) := by
  rw [braceFrom]
  split
  · rename_i hnone
    rw [h] at hnone
    cases hnone
  · rename_i c' hc
    rw [h, Option.some.injEq] at hc
    subst hc
    cases hjoin : c.joinAbove above with
    | error e => rfl
    | ok joined =>
      obtain ⟨leading, kept⟩ := joined
      simp only [bind, Except.bind]
      cases c.render leading with
      | error e => rfl
      | ok header =>
        exact Outcome.result_after_nil _ _

/-- A clause header that joins and is rendered without failure stands below the kept lines. -/
lemma result_braceFrom_cons_of_render {line leading header : Text} {c : Clause}
    {above kept : List Text} (h : parse? line = some c)
    (hjoin : c.joinAbove above = .ok (leading, kept)) (hrender : c.render leading = .ok header)
    (below : List Text) :
    (braceFrom above (line :: below)).result =
      (braceFrom (header :: kept)
        (blockBody c.indent below ++ closingLine c.indent :: blockRest c.indent below)).result := by
  rw [result_braceFrom_cons_of_some h, hjoin]
  simp only [bind, Except.bind, hrender]

/-- **Induction over a pass that succeeds**, from its end on: all lines are finished, or a line is
passed over, or a clause is rendered below the lines that it keeps and its block is closed. -/
lemma braceFrom_ok_induction {out : List Text} {motive : List Text → List Text → Prop}
    (nil : ∀ above, out = above.reverse → motive above [])
    (keep : ∀ above line below, parse? line = none → motive (line :: above) below →
      motive above (line :: below))
    (header : ∀ above line below c leading kept rendered, parse? line = some c →
      c.joinAbove above = .ok (leading, kept) → c.render leading = .ok rendered →
      motive (rendered :: kept)
        (blockBody c.indent below ++ closingLine c.indent :: blockRest c.indent below) →
      motive above (line :: below))
    {above below : List Text} (h : (braceFrom above below).result = .ok out) :
    motive above below := by
  fun_induction braceFrom above below with
  | case1 above =>
    cases h
    exact nil above rfl
  | case2 above line below hparse ih => exact keep above line below hparse (ih h)
  | case3 => cases h
  | case4 => cases h
  | case5 above line below c hparse leading kept hjoin rendered hrender body first last hlt ih =>
    rw [Outcome.result_after_nil] at h
    exact header above line below c leading kept rendered hparse hjoin hrender (ih h)

end Clause

/-! ### Classes and functions -/

namespace Declaration

@[simp] lemma result_braceFrom_nil (kind : DeclarationKind) (row : Nat) :
    (braceFrom kind row []).result = .ok [] := by
  simp [braceFrom]

/-- A line that opens no declaration is kept. -/
lemma result_braceFrom_cons_of_none {kind : DeclarationKind} {line : Text}
    (h : parse? kind line = none) (row : Nat) (below : List Text) :
    (braceFrom kind row (line :: below)).result =
      (line :: ·) <$> (braceFrom kind (row + 1) below).result := by
  rw [braceFrom]
  split
  · rw [Outcome.result_after]
    rfl
  · rename_i d hd
    rw [h] at hd
    cases hd

/-- A declaration is rendered below its documentation, and what remains of its block is closed. -/
lemma result_braceFrom_cons_of_some {kind : DeclarationKind} {line : Text} {d : Declaration}
    (h : parse? kind line = some d) (row : Nat) (below : List Text) :
    (braceFrom kind row (line :: below)).result =
      (do
        let header ← d.render
        let parts := BlockParts.ofBody d.indent (blockBody d.indent below)
        (parts.doc ++ [header] ++ ·) <$> (braceFrom kind (row + parts.doc.length + 1)
          (parts.body ++ closingLine d.indent :: blockRest d.indent below)).result) := by
  rw [braceFrom]
  split
  · rename_i hnone
    rw [h] at hnone
    cases hnone
  · rename_i d' hd
    rw [h, Option.some.injEq] at hd
    subst hd
    cases d.render with
    | error e => rfl
    | ok header =>
      simp only [Outcome.result_after]
      rfl

/-- The number of the first row has no influence on the result. -/
lemma result_braceFrom_row (kind : DeclarationKind) (row row' : Nat) (below : List Text) :
    (braceFrom kind row below).result = (braceFrom kind row' below).result := by
  fun_induction braceFrom kind row below generalizing row' with
  | case1 => simp
  | case2 row line below h ih =>
    rw [result_braceFrom_cons_of_none h, Outcome.result_after, ih (row' + 1)]
    rfl
  | case3 row line below d h e hrender =>
    rw [result_braceFrom_cons_of_some h, hrender]
    rfl
  | case4 row line below d h body parts header hrender last hlt ih =>
    rw [result_braceFrom_cons_of_some h, hrender, Outcome.result_after,
      ih (row' + parts.doc.length + 1)]
    rfl

@[simp] lemma result_brace_nil (kind : DeclarationKind) : (brace kind []).result = .ok [] :=
  result_braceFrom_nil kind 0

/-- A line that opens no declaration is kept. -/
lemma result_brace_cons_of_none {kind : DeclarationKind} {line : Text} (h : parse? kind line = none)
    (below : List Text) :
    (brace kind (line :: below)).result = (line :: ·) <$> (brace kind below).result := by
  unfold brace
  rw [result_braceFrom_cons_of_none h, result_braceFrom_row kind _ 0]

/-- Lines that open no declarations are kept. -/
lemma result_brace_append_of_none {kind : DeclarationKind} {passed : List Text}
    (h : ∀ line ∈ passed, parse? kind line = none) (below : List Text) :
    (brace kind (passed ++ below)).result = (passed ++ ·) <$> (brace kind below).result := by
  induction passed with
  | nil => exact (id_map' _).symm
  | cons line passed ih =>
    rw [List.cons_append, result_brace_cons_of_none (h line (by simp)),
      ih fun other hmem => h other (List.mem_cons_of_mem _ hmem), Functor.map_map]
    rfl

/-- A declaration is rendered below its documentation, and what remains of its block is closed. -/
lemma result_brace_cons_of_some {kind : DeclarationKind} {line : Text} {d : Declaration}
    (h : parse? kind line = some d) (below : List Text) :
    (brace kind (line :: below)).result =
      (do
        let header ← d.render
        let parts := BlockParts.ofBody d.indent (blockBody d.indent below)
        (parts.doc ++ [header] ++ ·) <$>
          (brace kind
            (parts.body ++ closingLine d.indent :: blockRest d.indent below)).result) := by
  unfold brace
  rw [result_braceFrom_cons_of_some h]
  refine bind_congr fun header => ?_
  exact congrArg (Functor.map _) (result_braceFrom_row kind _ 0 _)

/-- **Induction over a pass that succeeds**: a line is kept, or a header is rendered below its
documentation and what remains of its block is closed. -/
lemma braceFrom_ok_induction (kind : DeclarationKind) {motive : List Text → List Text → Prop}
    (nil : motive [] [])
    (keep : ∀ line below out, parse? kind line = none → motive below out →
      motive (line :: below) (line :: out))
    (header : ∀ line below d rendered out, parse? kind line = some d → d.render = .ok rendered →
      motive ((BlockParts.ofBody d.indent (blockBody d.indent below)).body ++
        closingLine d.indent :: blockRest d.indent below) out →
      motive (line :: below)
        ((BlockParts.ofBody d.indent (blockBody d.indent below)).doc ++ [rendered] ++ out))
    {row : Nat} {lines out : List Text} (h : (braceFrom kind row lines).result = .ok out) :
    motive lines out := by
  fun_induction braceFrom kind row lines generalizing out
  case case1 =>
    cases h
    exact nil
  case case2 row line below hparse ih =>
    rw [Outcome.result_after] at h
    obtain ⟨rest, hrest, rfl⟩ := map_eq_ok_iff.1 h
    exact keep line below rest hparse (ih hrest)
  case case3 => cases h
  case case4 row line below d hparse body parts rendered hrender last hlt ih =>
    rw [Outcome.result_after] at h
    obtain ⟨rest, hrest, rfl⟩ := map_eq_ok_iff.1 h
    exact header line below d rendered rest hparse hrender (ih hrest)

end Declaration

/-! ### The sequence of passes -/

/-- Passes run one after the other, each on the result of the one before it. -/
lemma Pass.result_runAll (widths : Widths) (lines : List Text) (passes : List Pass) :
    (runAll widths lines passes).result =
      passes.foldlM (fun lines pass => (pass.run widths lines).result) lines := by
  induction passes generalizing lines with
  | nil => rfl
  | cons pass passes ih =>
    rw [List.foldlM_cons, runAll]
    generalize pass.run widths lines = outcome
    obtain ⟨olines, failure?, oevents⟩ := outcome
    cases failure? with
    | some e => rfl
    | none =>
      simp only [Outcome.result_after, List.nil_append, Outcome.result_mk_none]
      rw [id_map', ih]
      rfl

/-- The first pass runs on the given lines, the others on what it leaves. -/
lemma Pass.result_runAll_cons (widths : Widths) (lines : List Text) (pass : Pass)
    (passes : List Pass) :
    (runAll widths lines (pass :: passes)).result =
      (pass.run widths lines).result >>= fun lines => (runAll widths lines passes).result := by
  simp only [result_runAll, List.foldlM_cons]

end Rebrace
