import Rebrace.DocComment

/-!
# Line buffers

A buffer holds the lines of a source and whether the last of them was ended.  Lines end with a line
feed; one carriage return in front of it belongs to the ending.  Operations that name a line fail
when there is no such line.
-/

namespace Rebrace

open Text

/-- The lines of a source. -/
structure Buffer where
  /-- The lines, without their endings. -/
  lines : List Text
  /-- Does the source end with a line feed? -/
  newlineAtEnd : Bool := false
  deriving DecidableEq

/-- The lines of a text that end with a line feed, and what follows the last of them. -/
def cutLines : Text → List Text × Text
  | [] => ([], [])
  | c :: t =>
    let cut := cutLines t
    if c = '\n' then ([] :: cut.1, cut.2)
    else
      match cut.1 with
      | [] => ([], c :: cut.2)
      | line :: lines => ((c :: line) :: lines, cut.2)

/-- A line without one carriage return at its end. -/
def dropCarriageReturn (line : Text) : Text :=
  (stripEnd? "\r" line).getD line

namespace Buffer

/-- The lines of a source text. -/
def ofSource (source : Text) : Buffer where
  lines :=
    let cut := cutLines source
    cut.1.map dropCarriageReturn ++ (if cut.2.isEmpty then [] else [cut.2])
  newlineAtEnd := source.getLast? == some '\n'

/-- The source text of the lines. -/
def toSource (b : Buffer) : Text :=
  join "\n" b.lines ++ (if b.newlineAtEnd then ['\n'] else [])

/-- The buffer with each line changed by `f`. -/
def mapLines (f : Text → Text) (b : Buffer) : Buffer :=
  { b with lines := b.lines.map f }

/-- The line at `index`. -/
def line? (b : Buffer) (index : Nat) : Option Text :=
  b.lines[index]?

/-- The line at `index`, and the buffer without it. -/
def remove? (b : Buffer) (index : Nat) : Option (Text × Buffer) :=
  (b.line? index).map fun line => (line, { b with lines := b.lines.eraseIdx index })

/-- The buffer with the lines from `first` to `last` replaced, and the index after the last new
line. With `first = last + 1` the lines are inserted in front of `first`. -/
def splice? (b : Buffer) (first last : Nat) (replacement : List Text) : Option (Buffer × Nat) :=
  if first ≤ last + 1 ∧ last < b.lines.length then
    some ({ b with lines := b.lines.take first ++ replacement ++ b.lines.drop (last + 1) },
      first + replacement.length)
  else none

/-- The index of the last line of the block that the line at `index` opens; `index` itself when
there is none. -/
def blockEnd? (b : Buffer) (index : Nat) : Option Nat :=
  (b.line? index).map fun line =>
    if isBlank line then index
    else index + (blockBody (leadingSpaces line) (b.lines.drop (index + 1))).length

/-- The lines after `first` up to `last`, with their documentation apart. -/
def blockParts? (b : Buffer) (first last indent : Nat) : Option BlockParts :=
  if last ≤ first then some (.ofBody indent [])
  else if last < b.lines.length then
    some (.ofBody indent ((b.lines.take (last + 1)).drop (first + 1)))
  else none

end Buffer

end Rebrace
