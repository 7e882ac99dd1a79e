import Rebrace.Text.Basic

/-!
# Indentation

A line is indented by whole levels and perhaps some spaces more.  Rescaling changes the width of a
level and keeps the surplus.

The width of all levels of a line is a machine word.  A product that needs more than a word wraps
around, and a product that is longer than a text can be is a fault.  Below that the new width is the
product: `rescaleIndent` is the line that comes out if there is no fault, and `rescaleIndent?` tells
whether there is one.
-/

namespace Rebrace

open Text

/-! ### Widths -/

/-- The number of spaces per level of indentation, before and after the conversion. -/
structure Widths where
  /-- Spaces per level in the source. -/
  source : Nat := 4
  /-- Spaces per level in the target. -/
  target : Nat := 2
  deriving DecidableEq

/-- A width for which there are no levels. -/
inductive WidthError where
  /-- The source width is zero. -/
  | source
  /-- The target width is zero. -/
  | target
  deriving DecidableEq

/-- The sentence that tells an unusable width. -/
def WidthError.message : WidthError → Text
  | source => "source indentation width must be at least 1"
  | target => "target indentation width must be at least 1"

/-- Both widths have to be positive; the source width is looked at first. -/
def Widths.validate (w : Widths) : Except WidthError Unit :=
  if w.source = 0 then .error .source
  else if w.target = 0 then .error .target
  else .ok ()

/-! ### Lines -/

/-- The number of values of a machine word. -/
def wordSize : Nat := UInt64.size

/-- The number of bytes that a text can have at most: the largest signed word. -/
def maxLength : Nat := wordSize / 2 - 1

/-- The width of some levels of `target` spaces each, as a machine word. -/
def levelsWidth (levels target : Nat) : Nat :=
  levels * target % wordSize

/-- The line with each whole level of `source` leading spaces as `target` spaces. The width of the
new levels wraps around where it does not fit into a word. -/
def rescaleIndent (source target : Nat) (line : Text) : Text :=
  let levels := leadingSpaces line / source
  if source = 0 ∨ levels = 0 then line
  else spaces (levelsWidth levels target) ++ line.drop (levels * source)

/-- The rescaled line, unless its new levels are longer than a text can be: that is a fault. -/
def rescaleIndent? (source target : Nat) (line : Text) : Option Text :=
  if levelsWidth (leadingSpaces line / source) target ≤ maxLength then
    some (rescaleIndent source target line)
  else none

end Rebrace
