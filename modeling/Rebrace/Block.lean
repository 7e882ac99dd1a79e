import Rebrace.Text.Basic

/-!
# Blocks

The block of a header is the longest run of lines below it that are blank or indented deeper, less
the blank lines at its end.  In the target it ends with a line that holds a closing brace at the
indentation of the header.
-/

namespace Rebrace

open Text

/-! ### Where a block ends -/

/-- The lines without the blank ones at the end. -/
def dropBlankEnd (lines : List Text) : List Text :=
  (lines.reverse.dropWhile isBlank).reverse

/-- Can a line stand inside a block whose header has this indentation? -/
def isInside (indent : Nat) (line : Text) : Bool :=
  isBlank line || indent < leadingSpaces line

/-- The block of a header with this indentation, among the lines below the header. -/
def blockBody (indent : Nat) (below : List Text) : List Text :=
  dropBlankEnd (below.takeWhile (isInside indent))

/-- The lines below the block of a header with this indentation. -/
def blockRest (indent : Nat) (below : List Text) : List Text :=
  below.drop (blockBody indent below).length

/-- The line that closes a block. -/
def closingLine (indent : Nat) : Text :=
  spaces indent ++ "\x7d"

theorem dropBlankEnd_isPrefix (lines : List Text) : dropBlankEnd lines <+: lines := by
  have h := List.dropWhile_suffix isBlank (l := lines.reverse)
  rw [← List.reverse_suffix]
  simpa [dropBlankEnd] using h

theorem blockBody_isPrefix (indent : Nat) (below : List Text) :
    blockBody indent below <+: below :=
  (dropBlankEnd_isPrefix _).trans ( List.takeWhile_prefix _)

/-- A block and the lines below it are all lines below the header. -/
theorem blockBody_append_blockRest (indent : Nat) (below : List Text) :
    blockBody indent below ++ blockRest indent below = below :=
  List.prefix_iff_eq_append.1 (blockBody_isPrefix indent below)

@[simp] theorem leadingSpaces_closingLine (indent : Nat) :
    leadingSpaces (closingLine indent) = indent := by
  simp [leadingSpaces, closingLine, spaces]

@[simp] theorem drop_closingLine (indent : Nat) :
    (closingLine indent).drop indent = ['\x7d'] := by
  simp [closingLine, spaces]

/-! ### Lines still to be gone through

A pass over headers either passes a line, or puts a header in its place and a closing brace below
its block, and goes through the block as well. It comes to an end since a closing brace is no
header. -/

/-- The measure of the lines still to be gone through: their number and the headers among them. -/
def pending (isHeader : Text → Bool) (below : List Text) : Nat :=
  below.length + below.countP isHeader

theorem pending_tail_lt (isHeader : Text → Bool) (line : Text) (below : List Text) :
    pending isHeader below < pending isHeader (line :: below) := by
  simp only [pending, List.length_cons, List.countP_cons]
  omega

/-- A header that is passed takes more away than the closing brace of its block adds, whatever lines
of the block are left out. -/
theorem pending_block_lt {isHeader : Text → Bool} {line : Text} (hline : isHeader line = true)
    {indent : Nat} (hclosing : isHeader (closingLine indent) = false)
    {body below : List Text} (hbody : body.Sublist (blockBody indent below)) :
    pending isHeader (body ++ closingLine indent :: blockRest indent below) <
      pending isHeader (line :: below) := by
  have hlen := hbody.length_le
  have hcount := hbody.countP_le (p := isHeader)
  have hall := blockBody_append_blockRest indent below
  have hallLen := congrArg List.length hall
  have hallCount := congrArg (List.countP isHeader) hall
  simp only [List.length_append, List.countP_append] at hallLen hallCount
  simp only [pending, List.length_append, List.length_cons, List.countP_append,
    List.countP_cons, hclosing, hline]
  simp
  omega

end Rebrace
