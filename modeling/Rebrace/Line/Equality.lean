import Rebrace.Text.Basic

/-!
# Strict equality

The comparisons `==` and `!=` become `===` and `!==`.  A run of equals signs that is longer, or that
belongs to `<=` or `>=`, is left alone.
-/

namespace Rebrace

/-- Does `c`, after `previous` and in front of a single `=`, begin a comparison? -/
def beginsComparison (previous : Option Char) (c : Char) : Bool :=
  (c == '=' && !previous.any fun p => p == '=' || p == '!' || p == '<' || p == '>') || c == '!'

/-- The part of a line that follows `previous`, with strict comparisons. -/
def strictEqualityFrom : (previous : Option Char) → Text → Text
  | _, [] => []
  | _, [c] => [c]
  | previous, c :: d :: t =>
    if d = '=' ∧ t.head? ≠ some '=' ∧ beginsComparison previous c then
      c :: '=' :: '=' :: strictEqualityFrom (some '=') t
    else c :: strictEqualityFrom (some c) (d :: t)

/-- A line with strict comparisons. -/
def strictEquality (line : Text) : Text :=
  strictEqualityFrom none line

end Rebrace
