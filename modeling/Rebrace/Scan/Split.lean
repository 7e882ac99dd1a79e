import Rebrace.Scan.Basic
import Rebrace.Scan.Bracket

/-!
# Splitting outside brackets

A text is cut at every delimiter that begins at an exposed character, where one pair of brackets
counts.  The pieces joined by the delimiter give the text back; the last piece is left out of the
result when it is blank.
-/

namespace Rebrace

open Text

/-- The pieces without the last one if that is blank. -/
def dropBlankLast : List Text → List Text
  | [] => []
  | [t] => if isBlank t then [] else [t]
  | t :: u :: ts => t :: dropBlankLast (u :: ts)

theorem mem_of_mem_dropBlankLast {t : Text} {ts : List Text} (h : t ∈ dropBlankLast ts) :
    t ∈ ts := by
  fun_induction dropBlankLast ts with
  | case1 => exact h
  | case2 => simp at h
  | case3 => exact h
  | case4 u v ts ih =>
    rcases List.mem_cons.1 h with rfl | h
    · simp
    · exact List.mem_cons_of_mem _ (ih h)

theorem length_dropBlankLast_le (ts : List Text) : (dropBlankLast ts).length ≤ ts.length := by
  fun_induction dropBlankLast ts with
  | case1 | case2 | case3 => simp
  | case4 _ _ _ ih => simpa using ih

namespace BracketPair

/-- The first piece and the further pieces of a text from state `s` on; `skip` characters of a
delimiter are still to be passed over, during which the state rests. -/
def cutFrom (pair : BracketPair) (delimiter : Text) :
    (s : Scan) → (skip : Nat) → Text → Text × List Text
  | _, _, [] => ([], [])
  | s, skip + 1, _ :: t => cutFrom pair delimiter s skip t
  | s, 0, c :: t =>
    if s.exposes pair.nest c && !delimiter.isEmpty && startsWith delimiter (c :: t) then
      let pieces := cutFrom pair delimiter s (delimiter.length - 1) t
      ([], pieces.1 :: pieces.2)
    else
      let pieces := cutFrom pair delimiter (s.next pair.nest c) 0 t
      (c :: pieces.1, pieces.2)

/-- All pieces of a text between the delimiters outside this pair of brackets. -/
def pieces (pair : BracketPair) (delimiter t : Text) : List Text :=
  let cut := pair.cutFrom delimiter {} 0 t
  cut.1 :: cut.2

/-- The pieces of a text between the delimiters outside this pair of brackets, without a blank
last one. -/
def split (pair : BracketPair) (delimiter t : Text) : List Text :=
  dropBlankLast (pair.pieces delimiter t)

/-- The pieces of `split`, each without the white space at its ends. -/
def splitTrim (pair : BracketPair) (delimiter t : Text) : List Text :=
  (pair.split delimiter t).map trim

/-! ### The pieces give the text back -/

theorem join_cutFrom (pair : BracketPair) (delimiter : Text) (s : Scan) (skip : Nat) (t : Text) :
    join delimiter
        ((pair.cutFrom delimiter s skip t).1 :: (pair.cutFrom delimiter s skip t).2) =
      t.drop skip := by
  induction t generalizing s skip with
  | nil => simp [cutFrom, join]
  | cons c t ih =>
    cases skip with
    | succ skip => simpa [cutFrom] using ih s skip
    | zero =>
      rw [cutFrom]
      split
      · rename_i h
        simp only [Bool.and_eq_true] at h
        obtain ⟨rest, hrest⟩ := Option.isSome_iff_exists.1 h.2
        rw [strip?_eq_some_iff] at hrest
        cases delimiter with
        | nil => simp at h
        | cons d ds =>
          have hds : t.drop ds.length = rest := by
            simp only [List.cons_append, List.cons.injEq] at hrest
            simp [hrest.2]
          have hjoin := ih s ds.length
          simp only [join, hds] at hjoin
          simp [join, List.intercalate_cons_cons, hjoin, hrest]
      · have hjoin := ih (s.next pair.nest c) 0
        cases hp : (pair.cutFrom delimiter (s.next pair.nest c) 0 t).2 with
        | nil => simp_all [join]
        | cons p ps => simp_all [join, List.intercalate_cons_cons]

/-- The pieces joined by the delimiter give the text back. -/
theorem join_pieces (pair : BracketPair) (delimiter t : Text) :
    join delimiter (pair.pieces delimiter t) = t := by
  simpa [pieces] using join_cutFrom pair delimiter {} 0 t

end BracketPair

/-- A piece is no longer than what it is joined into, and shorter by a delimiter if there are other
pieces. -/
theorem length_le_join (delimiter : Text) {t : Text} {ts : List Text} (h : t ∈ ts) :
    t.length + (if ts.length = 1 then 0 else delimiter.length) ≤ (join delimiter ts).length := by
  induction ts with
  | nil => simp at h
  | cons u us ih =>
    cases us with
    | nil => simp_all [join]
    | cons v vs =>
      rw [join, List.intercalate_cons_cons]
      rcases List.mem_cons.1 h with rfl | h
      · simp
      · have := ih h
        simp only [join] at this
        simp
        split at this <;> omega

namespace BracketPair

theorem length_le_of_mem_splitTrim {pair : BracketPair} {delimiter t piece : Text}
    (h : piece ∈ pair.splitTrim delimiter t) : piece.length ≤ t.length := by
  obtain ⟨raw, hraw, rfl⟩ := List.mem_map.1 h
  have := length_le_join delimiter (mem_of_mem_dropBlankLast hraw)
  rw [join_pieces] at this
  have := length_trim_le raw
  omega

theorem length_lt_of_mem_splitTrim {pair : BracketPair} {delimiter t piece : Text}
    (hd : delimiter ≠ []) (hmany : 1 < (pair.splitTrim delimiter t).length)
    (h : piece ∈ pair.splitTrim delimiter t) : piece.length < t.length := by
  obtain ⟨raw, hraw, rfl⟩ := List.mem_map.1 h
  have hlen := length_dropBlankLast_le (pair.pieces delimiter t)
  simp only [splitTrim, split, List.length_map] at hmany
  have hjoin := length_le_join delimiter (mem_of_mem_dropBlankLast hraw)
  rw [join_pieces, if_neg (by omega)] at hjoin
  have := List.length_pos_iff.2 hd
  have := length_trim_le raw
  omega

end BracketPair

end Rebrace
