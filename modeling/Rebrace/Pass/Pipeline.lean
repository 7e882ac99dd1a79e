import Rebrace.Buffer
import Rebrace.Line.Comment
import Rebrace.Line.Equality
import Rebrace.Line.Indentation
import Rebrace.Pass.Clauses
import Rebrace.Pass.Declarations

/-!
# The pipeline

A source is converted by six passes over its lines, in a fixed order.  The first failure ends the
conversion.  A failure is part of the result; a fault, which would end the program, is none, and the
passes are followed as if there were room for every text.
-/

namespace Rebrace

open Text

/-- One pass over the lines of a source. -/
inductive Pass where
  /-- Class headers and their blocks. -/
  | classes
  /-- Function headers and their blocks. -/
  | functions
  /-- Names and comparisons. -/
  | lexical
  /-- Clauses of control flow and their blocks. -/
  | controlFlow
  /-- The width of a level of indentation. -/
  | indentation
  /-- Comment markers. -/
  | comments
  deriving DecidableEq

/-- A line with names and comparisons in the target. -/
def convertLexical (line : Text) : Text :=
  strictEquality (spellNames line)

namespace Pass

/-- The passes in the order in which they run. -/
def order : List Pass :=
  [classes, functions, lexical, controlFlow, indentation, comments]

/-- The name of a pass. -/
def name : Pass → Text
  | classes => "classes"
  | functions => "functions"
  | lexical => "lexical"
  | controlFlow => "control-flow"
  | indentation => "indentation"
  | comments => "comments"

/-- A pass over some lines. -/
def run (widths : Widths) (lines : List Text) : Pass → Outcome
  | classes => Declaration.brace .classes lines
  | functions => Declaration.brace .functions lines
  | lexical => { lines := lines.map convertLexical }
  | controlFlow => Clause.brace lines
  | indentation => { lines := lines.map (rescaleIndent widths.source widths.target) }
  | comments => { lines := lines.map slashComments }

/-- Some passes over some lines, each over the lines that the one before it left, until one
fails. -/
def runAll (widths : Widths) (lines : List Text) : List Pass → Outcome
  | [] => { lines }
  | pass :: passes =>
    let outcome := pass.run widths lines
    let events := .passStarted pass.name lines.length :: outcome.events
    match outcome.failure? with
    | some _ => { outcome with events }
    | none => (runAll widths outcome.lines passes).after [] events

end Pass

/-- A converted source, or the failure that prevents it, and what happened on the way. -/
structure Conversion where
  /-- The source in the target. -/
  result : Except Error Text
  /-- What happened. -/
  events : List Event

/-- Converts a source by all passes. -/
def Conversion.run (widths : Widths) (source : Text) : Conversion :=
  let buffer := Buffer.ofSource source
  let outcome := Pass.runAll widths buffer.lines Pass.order
  { result := (fun lines => { buffer with lines }.toSource) <$> outcome.result
    events := outcome.events }

/-- The converted source. -/
def convert (widths : Widths) (source : Text) : Except Error Text :=
  (Conversion.run widths source).result

end Rebrace
