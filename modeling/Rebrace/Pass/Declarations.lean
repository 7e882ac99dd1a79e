import Rebrace.DocComment
import Rebrace.Header.ClassHeader
import Rebrace.Header.Signature
import Rebrace.Pass.Outcome

/-!
# Classes and functions

A declaration is a class or a function.  The pass over declarations replaces each header by its form
in the target with its documentation above it, and closes its block by a brace.  It goes on right
below the new header, so that declarations inside the block are reached.
-/

namespace Rebrace

open Text

/-! ### Declarations -/

/-- The two sorts of declarations. -/
inductive DeclarationKind where
  /-- Classes. -/
  | classes
  /-- Functions and methods. -/
  | functions
  deriving DecidableEq

/-- The header of a declaration. -/
inductive Declaration where
  /-- A class. -/
  | ofClass (header : ClassHeader)
  /-- A function or method. -/
  | ofFunction (header : Signature)
  deriving DecidableEq

namespace Declaration

/-- The declaration of the given sort that a line opens. -/
def parse? (kind : DeclarationKind) (line : Text) : Option Declaration :=
  match kind with
  | .classes => (ClassHeader.parse? line).map ofClass
  | .functions => (Signature.parse? line).map ofFunction

/-- The indentation of a header. -/
def indent : Declaration → Nat
  | ofClass header => header.indent
  | ofFunction header => header.indent

/-- The header line in the target. -/
def render : Declaration → Except Error Text
  | ofClass header => header.render
  | ofFunction header => header.render

/-- The warnings that a header gives rise to. -/
def warnings : Declaration → List Event
  | ofClass _ => []
  | ofFunction header => (header.looseBindings?.map Event.looseObject).toList

/-- The event that tells a declaration with the new header line `rendered`. -/
def found (d : Declaration) (first last : Nat) (rendered : Text) : Event :=
  match d with
  | ofClass header => .classFound header.name first last
  | ofFunction header => .functionFound header.name first last rendered

/-- A closing brace opens no declaration. -/
@[simp] theorem parse?_closingLine (kind : DeclarationKind) (n : Nat) :
    parse? kind (closingLine n) = none := by
  cases kind <;> simp [parse?, ClassHeader.parse?, Signature.parse?, strip?]

/-! ### The pass -/

/-- Does a line open a declaration of the given sort? -/
def isHeader (kind : DeclarationKind) (line : Text) : Bool :=
  (parse? kind line).isSome

theorem isHeader_of_parse? {kind : DeclarationKind} {line : Text} {d : Declaration}
    (h : parse? kind line = some d) : isHeader kind line = true := by
  simp [isHeader, h]

@[simp] theorem isHeader_closingLine (kind : DeclarationKind) (n : Nat) :
    isHeader kind (closingLine n) = false := by
  simp [isHeader]

/-- A declaration takes more away from the lines still to be gone through than it adds. -/
theorem pending_block {kind : DeclarationKind} {line : Text} {d : Declaration}
    (h : parse? kind line = some d) (below : List Text) :
    pending (isHeader kind) ((BlockParts.ofBody d.indent (blockBody d.indent below)).body
        ++ closingLine d.indent :: blockRest d.indent below) <
      pending (isHeader kind) (line :: below) :=
  pending_block_lt (isHeader_of_parse? h) (isHeader_closingLine kind _)
    (BlockParts.body_suffix d.indent (blockBody d.indent below)).sublist

/-- Gives every declaration of the given sort among the lines `below` its form in the target. The
first of the lines has the number `row`. -/
def braceFrom (kind : DeclarationKind) (row : Nat) (below : List Text) : Outcome :=
  match below with
  | [] => { lines := [] }
  | line :: below =>
    match h : parse? kind line with
    | none => (braceFrom kind (row + 1) below).after [line] []
    | some d =>
      let body := blockBody d.indent below
      let parts := BlockParts.ofBody d.indent body
      match d.render with
      | .error e => { lines := line :: below, failure? := some e, events := d.warnings }
      | .ok header =>
        let last := row + body.length
        have := pending_block h below
        (braceFrom kind (row + parts.doc.length + 1)
            (parts.body ++ closingLine d.indent :: blockRest d.indent below)).after
          (parts.doc ++ [header])
          (d.warnings ++ [d.found row last header,
            .replaced row last (parts.doc.length + 1 + parts.body.length + 1)])
termination_by pending (isHeader kind) below
decreasing_by
  · exact pending_tail_lt _ line below
  · assumption

/-- Gives every declaration of the given sort its form in the target. -/
def brace (kind : DeclarationKind) (lines : List Text) : Outcome :=
  braceFrom kind 0 lines

end Declaration

end Rebrace
