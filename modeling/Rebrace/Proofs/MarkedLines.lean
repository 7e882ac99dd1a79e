import Mathlib.Data.List.Basic
import Rebrace.Proofs.DeclarationLayout
import Rebrace.Proofs.Steps

/-!
# Marked lines

The passes over classes, functions and clauses put headers into the lines, and each pass works on
what the passes before it have left.  To say what becomes of a header, the lines carry marks:
`Declaration.markFrom` and `Clause.markFrom` are the passes on marked lines, and `markHeaders` is
the sequence of them.  `texts_markHeaders` says that the marks have no influence on the texts.
-/

namespace Rebrace

open Text

/-! ### Marked lines -/

/-- A line, and whether a pass has put it there as a header. -/
structure MarkedLine where
  /-- The line itself. -/
  text : Text
  /-- Is the line the header that a pass has rendered? -/
  isHeader : Bool
  deriving DecidableEq

namespace MarkedLine

/-- A line that no pass has put there as a header. -/
def plain (text : Text) : MarkedLine := ⟨text, false⟩

/-- A header that a pass has rendered. -/
def header (text : Text) : MarkedLine := ⟨text, true⟩

/-- The lines without their marks. -/
def texts (lines : List MarkedLine) : List Text := lines.map text

@[simp] lemma texts_nil : texts [] = [] := rfl

@[simp] lemma texts_cons (line : MarkedLine) (lines : List MarkedLine) :
    texts (line :: lines) = line.text :: texts lines := rfl

@[simp] lemma texts_append (lines below : List MarkedLine) :
    texts (lines ++ below) = texts lines ++ texts below := List.map_append

lemma texts_take (n : Nat) (lines : List MarkedLine) :
    texts (lines.take n) = (texts lines).take n := List.map_take

lemma texts_drop (n : Nat) (lines : List MarkedLine) :
    texts (lines.drop n) = (texts lines).drop n := List.map_drop

@[simp] lemma texts_reverse (lines : List MarkedLine) :
    texts lines.reverse = (texts lines).reverse := List.map_reverse

@[simp] lemma text_plain (line : Text) : (plain line).text = line := rfl

@[simp] lemma text_header (line : Text) : (header line).text = line := rfl

@[simp] lemma texts_map_plain (lines : List Text) : texts (lines.map plain) = lines := by
  simp [texts, Function.comp_def]

/-- The block of a header, with marks. -/
lemma texts_take_blockBody (indent : Nat) (below : List MarkedLine) :
    texts (below.take (blockBody indent (texts below)).length) =
      blockBody indent (texts below) := by
  rw [texts_take]
  exact (List.prefix_iff_eq_take.1 (blockBody_isPrefix indent (texts below))).symm

/-- The lines below the block of a header, with marks. -/
lemma texts_drop_blockBody (indent : Nat) (below : List MarkedLine) :
    texts (below.drop (blockBody indent (texts below)).length) = blockRest indent (texts below) :=
  texts_drop _ _

/-- What remains of the block of a header, with marks. -/
lemma texts_drop_take_blockBody (indent : Nat) (below : List MarkedLine) :
    texts ((below.take (blockBody indent (texts below)).length).drop
        (liftedLength (blockBody indent (texts below)))) =
      (BlockParts.ofBody indent (blockBody indent (texts below))).body := by
  rw [texts_drop, texts_take_blockBody, body_ofBody]

end MarkedLine

open MarkedLine

/-! ### The passes on marked lines -/

/-- The pass over declarations on marked lines.  A line keeps its mark as long as it is kept; the
lines that are lifted out of a block are gone with their marks. -/
def Declaration.markFrom (kind : DeclarationKind) (below : List MarkedLine) :
    Except Error (List MarkedLine) :=
  match below with
  | [] => .ok []
  | line :: below =>
    match h : parse? kind line.text with
    | none => (line :: ·) <$> markFrom kind below
    | some d =>
      let body := blockBody d.indent (texts below)
      let kept := (below.take body.length).drop (liftedLength body)
      match d.render with
      | .error e => .error e
      | .ok rendered =>
        have := pending_block h (texts below)
        ((BlockParts.ofBody d.indent body).doc.map plain ++ [header rendered] ++ ·) <$>
          markFrom kind (kept ++ plain (closingLine d.indent) :: below.drop body.length)
termination_by pending (isHeader kind) (texts below)
decreasing_by
  · exact pending_tail_lt _ line.text (texts below)
  · simpa [texts_drop_take_blockBody, texts_drop_blockBody] using this

/-- The pass over clauses on marked lines, below the finished lines `above`, nearest first. -/
def Clause.markFrom (above below : List MarkedLine) : Except Error (List MarkedLine) :=
  match below with
  | [] => .ok above.reverse
  | line :: below =>
    match h : parse? line.text with
    | none => markFrom (line :: above) below
    | some c =>
      match c.joinAbove (texts above) with
      | .error e => .error e
      | .ok (leading, kept) =>
        match c.render leading with
        | .error e => .error e
        | .ok rendered =>
          let size := (blockBody c.indent (texts below)).length
          have := pending_block h (texts below)
          markFrom (header rendered :: above.drop (above.length - kept.length))
            (below.take size ++ plain (closingLine c.indent) :: below.drop size)
termination_by pending isHeader (texts below)
decreasing_by
  · exact pending_tail_lt _ line.text (texts below)
  · simpa [texts_take_blockBody, texts_drop_blockBody] using this

/-- The passes that put headers into the lines of a source, on marked lines. -/
def markHeaders (lines : List Text) : Except Error (List MarkedLine) := do
  let classes ← Declaration.markFrom .classes (lines.map plain)
  let functions ← Declaration.markFrom .functions classes
  Clause.markFrom [] (functions.map fun line => ⟨convertLexical line.text, line.isHeader⟩)

/-- Marks have no influence on the pass over declarations. -/
lemma Declaration.texts_markFrom (kind : DeclarationKind) (below : List MarkedLine) :
    texts <$> markFrom kind below = (brace kind (texts below)).result := by
  fun_induction markFrom kind below with
  | case1 => exact (result_brace_nil kind).symm
  | case2 line below h ih =>
    rw [texts_cons, result_brace_cons_of_none h, ← ih, Functor.map_map, Functor.map_map]
    rfl
  | case3 line below d h e hrender =>
    rw [texts_cons, result_brace_cons_of_some h, hrender]
    rfl
  | case4 line below d h body kept rendered hrender hlt ih =>
    rw [texts_append, texts_cons, texts_drop_take_blockBody, texts_drop_blockBody,
      text_plain] at ih
    rw [texts_cons, result_brace_cons_of_some h, hrender]
    simp only [bind, Except.bind]
    rw [← ih, Functor.map_map, Functor.map_map]
    simp only [texts_append, texts_map_plain, texts_cons, texts_nil, text_header]
    rfl

/-- Marks have no influence on the pass over clauses. -/
lemma Clause.texts_markFrom (above below : List MarkedLine) :
    texts <$> markFrom above below = (braceFrom (texts above) (texts below)).result := by
  fun_induction markFrom above below with
  | case1 above =>
    rw [texts_nil, result_braceFrom_nil]
    exact congrArg Except.ok (texts_reverse above)
  | case2 above line below h ih => rw [ih, texts_cons, texts_cons, braceFrom_cons_of_none h]
  | case3 above line below c h e hjoin =>
    rw [texts_cons, result_braceFrom_cons_of_some h, hjoin]
    rfl
  | case4 above line below c h leading kept hjoin e hrender =>
    rw [texts_cons, result_braceFrom_cons_of_some h, hjoin]
    simp only [bind, Except.bind, hrender]
    rfl
  | case5 above line below c h leading kept hjoin rendered hrender size hlt ih =>
    have hkept : texts (above.drop (above.length - kept.length)) = kept := by
      have hlength : (texts above).length = above.length := List.length_map _
      rcases eq_or_eq_cons_of_joinAbove hjoin with habove | habove
      · rw [texts_drop, ← hlength, habove]
        simp
      · rw [texts_drop, ← hlength, habove]
        simp
    rw [ih, texts_cons, texts_append, texts_cons, texts_take_blockBody, texts_drop_blockBody,
      hkept, texts_cons, result_braceFrom_cons_of_render h hjoin hrender]
    rfl

/-- Marks have no influence on the passes. -/
lemma texts_markHeaders (widths : Widths) (lines : List Text) :
    texts <$> markHeaders lines =
      (Pass.runAll widths lines [.classes, .functions, .lexical, .controlFlow]).result := by
  have hclasses := Declaration.texts_markFrom .classes (lines.map plain)
  rw [texts_map_plain] at hclasses
  simp only [Pass.result_runAll_cons, Pass.run]
  rw [← hclasses, bind_map_left, markHeaders, map_bind]
  refine bind_congr fun classes => ?_
  rw [← Declaration.texts_markFrom, bind_map_left, map_bind]
  refine bind_congr fun functions => ?_
  have htexts : texts (functions.map fun line => ⟨convertLexical line.text, line.isHeader⟩) =
      (texts functions).map convertLexical := by
    simp [texts, Function.comp_def]
  rw [Clause.texts_markFrom, htexts]
  simp only [Outcome.result_mk_none, bind, Except.bind]
  change (Clause.brace ((texts functions).map convertLexical)).result = _
  cases (Clause.brace ((texts functions).map convertLexical)).result <;> rfl

end Rebrace
