import Rebrace.Block
import Rebrace.Header.Clause
import Rebrace.Pass.Outcome

/-!
# Clauses of control flow

The pass over clauses keeps the finished lines, nearest first, above the lines still to be gone
through.  A header gets its form in the target and its block a closing brace.  A clause that
continues another one joins the closing brace directly above it, if that has the same indentation;
an `else` may not join a loop or a handler.
-/

namespace Rebrace

open Text

namespace Clause

/-! ### The clause above -/

/-- The keyword that opened the block closed directly below the finished lines `above`, if no `else`
may follow it. The header is the nearest line that is not blank and no deeper than `indent`. -/
def elseBlocker? (indent : Nat) (above : List Text) : Option Keyword :=
  (above.find? fun line => !isBlank line && leadingSpaces line ≤ indent).bind fun line =>
    let text := trimStart line
    let head := (strip? "\x7d " text).getD text
    let word := head.takeWhile fun c => c != ' ' && c != '('
    Keyword.all.find? fun k => k.refusesElse && k.target == word

/-- The keyword of the block above a clause that the clause may not continue. -/
def blockedBy? (c : Clause) (above : List Text) : Option Keyword :=
  if c.keyword = .otherwise then elseBlocker? c.indent above else none

/-- What stands in front of the keyword of a clause, and the finished lines above it: a clause that
continues another takes the closing brace above it into its own line. -/
def joinAbove (c : Clause) (above : List Text) : Except Error (Text × List Text) :=
  match above with
  | closing :: rest =>
    if c.keyword.chains ∧ closing = closingLine c.indent then
      match c.blockedBy? rest with
      | some keyword => .error (.unsupportedElse keyword)
      | none => .ok ("\x7d ", rest)
    else .ok ([], above)
  | [] => .ok ([], above)

/-- A closing brace opens no clause. -/
@[simp] theorem parse?_closingLine (n : Nat) : parse? (closingLine n) = none := by
  have h : Keyword.ofStart? ['\x7d'] = none := rfl
  simp [parse?, h]

/-! ### The pass -/

/-- Does a line open a clause? -/
def isHeader (line : Text) : Bool :=
  (parse? line).isSome

theorem isHeader_of_parse? {line : Text} {c : Clause} (h : parse? line = some c) :
    isHeader line = true := by
  simp [isHeader, h]

@[simp] theorem isHeader_closingLine (n : Nat) : isHeader (closingLine n) = false := by
  simp [isHeader]

/-- A clause takes more away from the lines still to be gone through than it adds. -/
theorem pending_block {line : Text} {c : Clause} (h : parse? line = some c) (below : List Text) :
    pending isHeader
        (blockBody c.indent below ++ closingLine c.indent :: blockRest c.indent below) <
      pending isHeader (line :: below) :=
  pending_block_lt (isHeader_of_parse? h) (isHeader_closingLine _) (List.Sublist.refl _)

/-- Gives every clause among the lines `below` its form in the target, under the finished lines
`above`, nearest first. -/
def braceFrom (above below : List Text) : Outcome :=
  match below with
  | [] => { lines := above.reverse }
  | line :: below =>
    match h : parse? line with
    | none => braceFrom (line :: above) below
    | some c =>
      match c.joinAbove above with
      | .error e => { lines := above.reverse ++ line :: below, failure? := some e }
      | .ok (leading, kept) =>
        match c.render leading with
        | .error e => { lines := kept.reverse ++ line :: below, failure? := some e }
        | .ok header =>
          let body := blockBody c.indent below
          let first := kept.length
          let last := first + body.length
          have := pending_block h below
          (braceFrom (header :: kept)
              (body ++ closingLine c.indent :: blockRest c.indent below)).after []
            [.clauseFound header first last, .replaced first last (body.length + 2)]
termination_by pending isHeader below
decreasing_by
  · exact pending_tail_lt _ line below
  · assumption

/-- Gives every clause its form in the target. -/
def brace (lines : List Text) : Outcome :=
  braceFrom [] lines

end Clause

end Rebrace
