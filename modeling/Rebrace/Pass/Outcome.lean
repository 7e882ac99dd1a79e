import Rebrace.Error
import Rebrace.Log

/-!
# Outcomes

A pass works from the first line to the last.  When it fails, the lines above the failure have been
changed and those from there on have not.
-/

namespace Rebrace

/-- What a pass leaves behind. -/
structure Outcome where
  /-- The lines, as far as the pass came. -/
  lines : List Text
  /-- The failure that stopped the pass. -/
  failure? : Option Error := none
  /-- What happened. -/
  events : List Event := []
  deriving DecidableEq

/-- An outcome below some finished lines and after some events. -/
def Outcome.after (o : Outcome) (lines : List Text) (events : List Event) : Outcome :=
  { o with lines := lines ++ o.lines, events := events ++ o.events }

/-- The lines of a pass that did not fail. -/
def Outcome.result (o : Outcome) : Except Error (List Text) :=
  match o.failure? with
  | some e => .error e
  | none => .ok o.lines

end Rebrace
