import Rebrace.Proofs.Headers
import Rebrace.Proofs.Layout
import Rebrace.Proofs.Steps

/-!
# Braces for clauses, from the given lines alone

The pass over clauses works on lines that it keeps changing: it reads the block of a header from
lines that already hold the closing braces of earlier headers, and it removes the brace that a
continuing clause joins.  `Clause.layout` says what comes out without any of this.  It goes through
the given lines once, adds each of them in its form in the target, and after each line the closing
braces of the blocks that end there; where a block ends is asked of the given lines only.

The main statement is `Clause.result_clauses_eq_layout`: on every buffer the pass has the result of
`Clause.layout`, lines or failure.
-/

namespace Rebrace

open Text

namespace Clause

/-! ### The layout of the given lines -/

/-- The indentation of the clause that row `k` of a buffer opens. -/
def indentAt? (b : Buffer) (k : Nat) : Option Nat :=
  ((b.line? k).bind parse?).map indent

/-- The lines `out` with a clause header added to them.  A clause that continues another one takes
the place of the closing brace that `out` ends with, if this has its indentation; an `else` may not
continue a loop or a handler. -/
def addHeader (out : List Text) (c : Clause) : Except Error (List Text) :=
  if c.keyword.chains ∧ out.getLast? = some (closingLine c.indent) then
    match (if c.keyword = .otherwise then elseBlocker? c.indent out.dropLast.reverse else none) with
    | some keyword => .error (.unsupportedElse keyword)
    | none => (fun header => out.dropLast ++ [header]) <$> c.render "\x7d "
  else (fun header => out ++ [header]) <$> c.render []

/-- The lines `out` with one more of the given lines added to them. -/
def addLine (out : List Text) (line : Text) : Except Error (List Text) :=
  match parse? line with
  | some c => addHeader out c
  | none => .ok (out ++ [line])

/-- The lines `out` with a row of the buffer added to them: the line in its form in the target, and
the closing braces of the blocks that end there. -/
def addRow (b : Buffer) (out : List Text) (row : Text × Nat) : Except Error (List Text) :=
  (· ++ b.closingsAt (indentAt? b) row.2) <$> addLine out row.1

/-- All rows of a buffer, with the clauses in their form in the target. -/
def layout (b : Buffer) : Except Error (List Text) :=
  b.lines.zipIdx.foldlM (addRow b) []

/-! ### The pass follows the layout -/

/-- Clause headers are rows of the buffer with the indentation of their line. -/
lemma marksHeaders_indentAt? (b : Buffer) : MarksHeaders b (indentAt? b) := by
  intro k indent h
  obtain ⟨c, hc, rfl⟩ := Option.map_eq_some_iff.1 h
  obtain ⟨line, hline, hparse⟩ := Option.bind_eq_some_iff.1 hc
  exact ⟨line, hline, isBlank_eq_false_of_parse? hparse, (indent_eq_of_parse? hparse).symm⟩

/-- Adding a header to the finished lines is joining it to the line above and rendering it. -/
lemma addHeader_reverse (above : List Text) (c : Clause) :
    addHeader above.reverse c =
      (do
        let joined ← c.joinAbove above
        let header ← c.render joined.1
        return (header :: joined.2).reverse) := by
  by_cases hjoins : c.keyword.chains ∧ above.head? = some (closingLine c.indent)
  · obtain ⟨hchains, hhead⟩ := hjoins
    obtain ⟨rest, rfl⟩ := List.head?_eq_some_iff.1 hhead
    rw [joinAbove_of_joins hchains, addHeader, if_pos ⟨hchains, by simp⟩, List.reverse_cons,
      List.dropLast_concat, List.reverse_reverse]
    change (match c.blockedBy? rest with | some keyword => _ | none => _) = _
    cases c.blockedBy? rest with
    | some keyword => rfl
    | none =>
      rw [map_eq_pure_bind]
      simp [bind, Except.bind]
  · rw [joinAbove_of_not_joins hjoins, addHeader, if_neg (by simpa using hjoins)]
    rw [map_eq_pure_bind]
    simp [bind, Except.bind]

/-- After row `k` the pass goes over the closing braces that belong there. -/
lemma braceFrom_weave_after {b : Buffer} {k : Nat} (hk : k < b.lines.length) (above : List Text) :
    braceFrom above (weave ((indentAt? b k).toList ++ b.opensAt (indentAt? b) k)
        (b.lines.drop (k + 1))) =
      braceFrom ((b.closingsAt (indentAt? b) k).reverse ++ above)
        (weave (b.opensAt (indentAt? b) (k + 1)) (b.lines.drop (k + 1))) := by
  have hpassed : ∀ closing ∈ b.closingsAt (indentAt? b) k, parse? closing = none := by
    intro closing hmem
    obtain ⟨indent, rfl⟩ := Buffer.exists_eq_closingLine_of_mem_closingsAt hmem
    exact parse?_closingLine indent
  have hweave := weave_opensAt (marksHeaders_indentAt? b) hk 0 fun _ _ => Nat.zero_le _
  rw [Nat.add_zero] at hweave
  rw [hweave, braceFrom_append_of_none hpassed]

/-- From row `k` on, the pass over the lines below, with the closing braces of the open blocks among
them, adds to the finished lines what the layout adds. -/
lemma result_braceFrom_weave (b : Buffer) (k : Nat) (above below : List Text)
    (hbelow : b.lines.drop k = below) :
    (braceFrom above (weave (b.opensAt (indentAt? b) k) below)).result =
      (below.zipIdx k).foldlM (addRow b) above.reverse := by
  have hmarks := marksHeaders_indentAt? b
  induction below generalizing k above with
  | nil =>
    rw [Buffer.opensAt_eq_nil (List.drop_eq_nil_iff.1 hbelow)]
    simp [pure, Except.pure]
  | cons line below ih =>
    obtain ⟨hk, hline, hnext⟩ := Buffer.row_of_drop_eq_cons hbelow
    have hrow : ∀ finished : List Text,
        (braceFrom finished
          (weave ((indentAt? b k).toList ++ b.opensAt (indentAt? b) k) below)).result =
        (below.zipIdx (k + 1)).foldlM (addRow b)
          (finished.reverse ++ b.closingsAt (indentAt? b) k) := by
      intro finished
      have hafter := braceFrom_weave_after hk finished
      rw [hnext] at hafter
      rw [hafter, ih (k + 1) _ hnext]
      simp
    rw [weave_opensAt_cons hmarks hbelow, List.zipIdx_cons, List.foldlM_cons]
    cases hparse : parse? line with
    | none =>
      have hindent : indentAt? b k = none := by simp [indentAt?, hline, hparse]
      have hadd : addRow b above.reverse (line, k) =
          .ok ((line :: above).reverse ++ b.closingsAt (indentAt? b) k) := by
        simp [addRow, addLine, hparse]
      rw [hindent] at hrow
      rw [braceFrom_cons_of_none hparse, hadd]
      exact hrow (line :: above)
    | some c =>
      have hindent : indentAt? b k = some c.indent := by simp [indentAt?, hline, hparse]
      have hnested : ∀ outer ∈ b.opensAt (indentAt? b) k, outer < c.indent := by
        intro outer hmem
        rw [indent_eq_of_parse? hparse]
        exact lt_leadingSpaces_of_mem_opensAt hmarks hbelow (isBlank_eq_false_of_parse? hparse) hmem
      rw [hindent] at hrow
      rw [result_braceFrom_cons_of_some hparse, ← weave_cons_eq_blockBody_append hnested below]
      simp only [addRow, addLine, hparse, addHeader_reverse]
      cases c.joinAbove above with
      | error e => rfl
      | ok joined =>
        simp only [bind, Except.bind]
        cases c.render joined.1 with
        | error e => rfl
        | ok header => exact hrow (header :: joined.2)

/-- On every buffer the pass over clauses gives what the layout of the given lines says: the same
lines, or the same failure. -/
theorem result_clauses_eq_layout (b : Buffer) : (brace b.lines).result = layout b := by
  have h := result_braceFrom_weave b 0 [] b.lines rfl
  rwa [Buffer.opensAt_zero, weave_nil_left] at h

end Clause

end Rebrace
