import Mathlib
import Rebrace.Proofs.Pieces

/-!
# Texts that are cut at a delimiter

The scanner cuts a text at a delimiter while it keeps count of literals and brackets, and passes
over the whole delimiter at once.  `BracketPair.CutInto` says without a scanner on its way where the
cuts are: each piece ends at the first delimiter that begins outside of brackets and literals, the
next piece starts behind it, and no such delimiter is left in the last piece.  A delimiter may be of
any length, overlap itself and hold quotation marks or brackets behind its first character.

Every text is cut in this way, and the scanner finds these pieces, `CutInto.pieces_eq`.  Since
nothing is open where a piece starts, each piece read on its own is not cut any more:
`BracketPair.split_complete_and_uncut`.
-/

namespace Rebrace

open Text

namespace BracketPair

variable {pair : BracketPair} {delimiter : Text}

/-! ### Where a delimiter cuts -/

/-- A delimiter outside of brackets and literals begins between `before` and `after`. -/
structure Delimits (pair : BracketPair) (delimiter before after : Text) : Prop where
  /-- The text goes on with the delimiter. -/
  starts : delimiter <+: after
  /-- The first character behind `before` is exposed. -/
  exposes : ∃ c ∈ after.head?, (Scan.run pair.nest {} before).exposes pair.nest c = true

/-- A text in which no delimiter begins outside of brackets and literals. -/
def IsUncut (pair : BracketPair) (delimiter t : Text) : Prop :=
  ∀ u v, t = u ++ v → ¬ pair.Delimits delimiter u v

/-- A text is cut into pieces and a last piece. -/
inductive CutInto (pair : BracketPair) (delimiter : Text) : Text → List Text → Text → Prop where
  /-- No delimiter cuts the text. -/
  | last {t : Text} (huncut : pair.IsUncut delimiter t) : CutInto pair delimiter t [] t
  /-- The piece ends at a delimiter, no other one begins in it, and the rest is cut from there. -/
  | cons {piece rest last : Text} {pieces : List Text}
      (hends : pair.Delimits delimiter piece (delimiter ++ rest))
      (hfirst : ∀ u v, piece = u ++ v → v ≠ [] →
        ¬ pair.Delimits delimiter u (v ++ (delimiter ++ rest)))
      (hrest : CutInto pair delimiter rest pieces last) :
    CutInto pair delimiter (piece ++ (delimiter ++ rest)) (piece :: pieces) last

namespace Delimits

variable {before after : Text}

/-- Where a delimiter cuts a text, nothing is open. -/
lemma run_eq (h : pair.Delimits delimiter before after) : Scan.run pair.nest {} before = {} := by
  obtain ⟨c, -, hexposes⟩ := h.exposes
  exact Scan.eq_of_exposes hexposes

lemma ne_nil (h : pair.Delimits delimiter before after) : after ≠ [] := by
  rintro rfl
  obtain ⟨c, hc, -⟩ := h.exposes
  simp at hc

/-- A delimiter that cuts a text cuts it also if more text follows. -/
lemma append (h : pair.Delimits delimiter before after) (t : Text) :
    pair.Delimits delimiter before (after ++ t) := by
  refine ⟨h.starts.trans (List.prefix_append _ _), ?_⟩
  rw [List.head?_append_of_ne_nil _ h.ne_nil]
  exact h.exposes

end Delimits

/-! ### The pieces of the scanner -/

/-- A part in which no delimiter begins is passed over. -/
lemma cutFrom_append_of_not_delimits {u t : Text}
    (h : ∀ before after, u = before ++ after → after ≠ [] →
      ¬ pair.Delimits delimiter before (after ++ t)) :
    pair.cutFrom delimiter {} 0 (u ++ t) =
      (u ++ (pair.cutFrom delimiter (Scan.run pair.nest {} u) 0 t).1,
        (pair.cutFrom delimiter (Scan.run pair.nest {} u) 0 t).2) := by
  refine cutFrom_append_of_forall fun before c after hu hexposes hstarts => ?_
  exact h before (c :: after) hu (List.cons_ne_nil _ _) ⟨hstarts, c, rfl, hexposes⟩

namespace CutInto

variable {t last : Text} {ps : List Text}

/-- Nothing of a text is lost. -/
lemma text_eq (h : pair.CutInto delimiter t ps last) :
    t = ps.flatMap (· ++ delimiter) ++ last := by
  induction h with
  | last => rfl
  | cons _ _ _ ih => rw [List.flatMap_cons, List.append_assoc, List.append_assoc, ← ih]

/-- No piece is cut any more. -/
lemma isUncut (h : pair.CutInto delimiter t ps last) :
    ∀ piece ∈ ps ++ [last], pair.IsUncut delimiter piece := by
  induction h with
  | last huncut => simpa using huncut
  | cons _ hfirst _ ih =>
    refine List.forall_mem_cons.2 ⟨fun u v hpiece hdelimits => ?_, ih⟩
    exact hfirst u v hpiece hdelimits.ne_nil (hdelimits.append _)

/-- **The scanner finds the pieces of a text.** -/
lemma pieces_eq (hne : delimiter ≠ []) (h : pair.CutInto delimiter t ps last) :
    pair.pieces delimiter t = ps ++ [last] := by
  obtain ⟨d, start, rfl⟩ := List.exists_cons_of_ne_nil hne
  induction h with
  | @last t huncut =>
    have hcut : pair.cutFrom (d :: start) {} 0 (t ++ []) = _ :=
      cutFrom_append_of_not_delimits fun before after ht _ => by
        rw [List.append_nil]
        exact huncut before after ht
    rw [List.append_nil] at hcut
    simp [pieces, hcut, cutFrom]
  | cons hends hfirst _ ih =>
    have hcut := cutFrom_append_of_not_delimits hfirst
    have hexposes : Scan.exposes pair.nest {} d = true := by
      obtain ⟨c, hc, hexposes⟩ := hends.exposes
      obtain rfl : d = c := by simpa using hc
      rwa [hends.run_eq] at hexposes
    -- the search goes on behind the delimiter in the state that it started in
    rw [hends.run_eq, List.cons_append, cutFrom_delimiter_append hexposes, List.append_nil] at hcut
    rw [pieces, List.cons_append (a := d), hcut, List.cons_append, ← ih]
    rfl

/-- The last piece is left out if it is blank. -/
lemma split_eq (hne : delimiter ≠ []) (h : pair.CutInto delimiter t ps last) :
    pair.split delimiter t = if isBlank last then ps else ps ++ [last] := by
  rw [split, h.pieces_eq hne, dropBlankLast_append (List.cons_ne_nil _ _), dropBlankLast]
  split
  · exact List.append_nil ps
  · rfl

end CutInto

/-- Every text is cut into pieces: the first delimiter that cuts it ends the first piece. -/
lemma exists_cutInto (pair : BracketPair) (hne : delimiter ≠ []) (t : Text) :
    ∃ ps last, pair.CutInto delimiter t ps last := by
  classical
  induction hlength : t.length using Nat.strong_induction_on generalizing t with
  | _ n ih =>
    by_cases huncut : pair.IsUncut delimiter t
    · exact ⟨[], t, .last huncut⟩
    · have hcut : ∃ k u v, u.length = k ∧ t = u ++ v ∧ pair.Delimits delimiter u v := by
        simpa [IsUncut] using huncut
      obtain ⟨piece, v, hpiece, rfl, hends⟩ := Nat.find_spec hcut
      obtain ⟨rest, rfl⟩ := hends.starts
      have hshorter : rest.length < n := by
        have hpos := List.length_pos_iff.2 hne
        simp only [List.length_append] at hlength
        omega
      obtain ⟨ps, last, hrest⟩ := ih rest.length hshorter rest rfl
      refine ⟨piece :: ps, last, .cons hends (fun u w hu hw hdelimits => ?_) hrest⟩
      have hlt : u.length < Nat.find hcut := by
        have hpos := List.length_pos_iff.2 hw
        rw [← hpiece, hu, List.length_append]
        omega
      exact Nat.find_min hcut hlt ⟨u, _, rfl, by rw [hu, List.append_assoc], hdelimits⟩

/-- **Splitting loses nothing and leaves nothing to cut.** Every text is cut into pieces and a last
piece at the delimiters outside of brackets and literals, and it consists of the pieces, each with
the delimiter behind it, and the last piece.  The result is the list of the pieces, with the last
one if it is not blank.  Each member of the result that is split again stays as it is.  With
trimming, the members are the same, but without the white space at their ends. -/
theorem split_complete_and_uncut (pair : BracketPair) (hne : delimiter ≠ []) (t : Text) :
    (∃ ps last, pair.CutInto delimiter t ps last ∧ t = ps.flatMap (· ++ delimiter) ++ last ∧
        pair.split delimiter t = if isBlank last then ps else ps ++ [last]) ∧
      (∀ piece ∈ pair.split delimiter t,
        pair.split delimiter piece = if isBlank piece then [] else [piece]) ∧
      pair.splitTrim delimiter t = (pair.split delimiter t).map trim := by
  obtain ⟨ps, last, hcut⟩ := pair.exists_cutInto hne t
  refine ⟨⟨ps, last, hcut, hcut.text_eq, hcut.split_eq hne⟩, fun piece hpiece => ?_, rfl⟩
  have hmem : piece ∈ ps ++ [last] := by
    rw [← hcut.pieces_eq hne]
    exact mem_of_mem_dropBlankLast hpiece
  exact (CutInto.last (hcut.isUncut piece hmem)).split_eq hne

/-- A delimiter that overlaps itself, and stands in brackets and in a literal as well. -/
theorem split_complete_and_uncut_of_overlap :
    square.split "::" "é[a::b]:::\x27::\x27::  " = ["é[a::b]".toList, ":\x27::\x27".toList] ∧
      (∃ ps last, square.CutInto "::" "é[a::b]:::\x27::\x27::  " ps last ∧
        "é[a::b]:::\x27::\x27::  ".toList = ps.flatMap (· ++ "::".toList) ++ last) ∧
      square.split "::" ":\x27::\x27" = [":\x27::\x27".toList] := by
  have hne : "::".toList ≠ [] := by decide
  have hsplit : square.split "::" "é[a::b]:::\x27::\x27::  " =
      ["é[a::b]".toList, ":\x27::\x27".toList] := by decide
  obtain ⟨⟨ps, last, hcut, htext, -⟩, hagain, -⟩ :=
    split_complete_and_uncut square hne "é[a::b]:::\x27::\x27::  "
  refine ⟨hsplit, ⟨ps, last, hcut, htext⟩, ?_⟩
  exact hagain ":\x27::\x27" (by rw [hsplit]; decide)

end BracketPair

end Rebrace
