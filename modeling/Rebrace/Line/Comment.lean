import Rebrace.Scan.Basic

/-!
# Comment markers

A `#` outside string literals starts a comment, which the target marks by two slashes.  Of a run of
such characters only the first is changed.
-/

namespace Rebrace

/-- The part of a line that follows `previous` and is read from state `q` on, with the comment
markers of the target. -/
def slashCommentsFrom : (previous : Option Char) → (q : QuoteState) → Text → Text
  | _, _, [] => []
  | previous, q, c :: t =>
    if q = .outside ∧ c = '#' ∧ previous ≠ some '#' then
      '/' :: '/' :: slashCommentsFrom (some c) q t
    else c :: slashCommentsFrom (some c) (q.next c) t

/-- A line with the comment markers of the target. -/
def slashComments (line : Text) : Text :=
  slashCommentsFrom none .outside line

end Rebrace
