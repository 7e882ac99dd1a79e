import Rebrace.Line.Identifier
import Rebrace.Scan.TopLevel
import Rebrace.TypeExpr.Basic

/-!
# Class headers

A class header is `class`, a name, perhaps bases in parentheses, and a colon.  The bases extend to
the first closing parenthesis with a colon behind it.  A base is a keyword argument, which has no
equivalent; a list of type parameters; a name that the target does not need; or a class to extend,
of which there may be one.
-/

namespace Rebrace

open Text

/-- The header of a class. -/
structure ClassHeader where
  /-- The number of spaces in front. -/
  indent : Nat
  /-- The name. -/
  name : Text
  /-- The bases as they are written. -/
  bases : List Text
  /-- What follows the colon. -/
  trailing : Text
  deriving DecidableEq

/-- What a base contributes to the header in the target. -/
inductive BaseRole where
  /-- Names of type parameters. -/
  | typeParams (names : List Text)
  /-- Nothing. -/
  | dropped
  /-- A class to extend. -/
  | parent (name : Text)
  deriving DecidableEq

namespace BaseRole

/-- The type parameters that a base contributes. -/
def names : BaseRole → List Text
  | typeParams names => names
  | dropped | parent _ => []

/-- The class that a base contributes. -/
def parent? : BaseRole → Option Text
  | parent name => some name
  | typeParams _ | dropped => none

end BaseRole

namespace ClassHeader

/-- The parts of a text before and after its first `)` with a colon behind it. -/
def cutBases? : Text → Option (Text × Text)
  | [] => none
  | c :: t =>
    match strip? "):" (c :: t) with
    | some trailing => some ([], trailing)
    | none => (cutBases? t).map fun parts => (c :: parts.1, parts.2)

/-- The bases and what follows the colon, in a text that follows a class name. -/
def ending? : Text → Option (List Text × Text)
  | ':' :: trailing => some ([], trailing)
  | '(' :: t =>
    (cutBases? t).map fun parts => ((splitTop ',' parts.1).filter (!·.isEmpty), parts.2)
  | _ => none

/-- The class header that a line holds. -/
def parse? (line : Text) : Option ClassHeader :=
  if '\n' ∈ line then none
  else do
    let indent := leadingSpaces line
    let afterClass ← strip? "class " (line.drop indent)
    let (name, afterName) ← takeName? afterClass
    let (bases, trailing) ← ending? afterName
    return { indent, name, bases, trailing }

/-- What a base of the class `className` contributes. -/
def roleOf (className base : Text) : Except Error BaseRole :=
  match cutAtChar? '=' base with
  | some (argument, _) => .error (.unsupportedClassArgument className (trim argument))
  | none =>
    if startsWith "Generic[" base then
      (fun span => .typeParams (BracketPair.square.splitTrim "," span.inner))
        <$> BracketSpan.first base true
    else if base = "object" ∨ base = "ABC" then .ok .dropped
    else if base = "Exception" ∨ base = "BaseException" then .ok (.parent "Error")
    else .parent <$> TypeExpr.convert .value base

/-- The header line in the target. -/
def render (h : ClassHeader) : Except Error Text := do
  let roles ← h.bases.mapM (roleOf h.name)
  let typeParams := roles.flatMap BaseRole.names
  let generics : Text :=
    if typeParams.isEmpty then [] else "<" ++ join ", " typeParams ++ ">"
  let start := spaces h.indent ++ "class " ++ h.name ++ generics
  match roles.filterMap BaseRole.parent? with
  | [] => return start ++ " \x7b" ++ h.trailing
  | [parent] => return start ++ " extends " ++ parent ++ " \x7b" ++ h.trailing
  | parents => throw (.multipleInheritance h.name parents)

end ClassHeader

end Rebrace
