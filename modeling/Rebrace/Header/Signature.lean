import Rebrace.Header.Param

/-!
# Function headers

A function header is `def`, a name, parameters in parentheses, perhaps a result type behind an
arrow, and a colon.  The parameters extend to the last closing parenthesis that such an ending
follows.  An indented header counts only when its first parameter is the owner of the method, which
the target does not name.
-/

namespace Rebrace

open Text

/-- The two kinds of functions. -/
inductive DefKind where
  /-- Indented, with an owner as first parameter. -/
  | method
  /-- In the first column. -/
  | function
  deriving DecidableEq

/-- The header of a function or method. -/
structure Signature where
  /-- The number of spaces in front. -/
  indent : Nat
  /-- Method or function. -/
  kind : DefKind
  /-- The name as it is written. -/
  name : Text
  /-- The parameters without the owner. -/
  params : Text
  /-- The result type as it is written, if one is given. -/
  result? : Option Text
  /-- What follows the colon. -/
  trailing : Text
  deriving DecidableEq

/-- The method names with a spelling of their own. -/
def methodTable : List (Text × Text) :=
  [("__init__", "constructor"), ("__str__", "toString"), ("__repr__", "toRepr"),
   ("__eq__", "equals")]

/-- The spelling of a method name in the target. -/
def spellMethod (name : Text) : Text :=
  (lookup? methodTable name).getD (camelCase name)

namespace Signature

/-- Is the segment an owner parameter, with or without a type? -/
def isOwner (segment : Text) : Bool :=
  let name := trim (segment.takeWhile (· != ':'))
  name == "self".toList || name == "cls".toList

/-- The ending of a header after its closing parenthesis: the result type, if there is one, and what
follows the colon. -/
def ending? : Text → Option (Option Text × Text)
  | ':' :: trailing => some (none, trailing)
  | t =>
    (strip? " -> " t).bind fun rest =>
      (cutAtChar? ':' rest).map fun parts => (some (trim parts.1), parts.2)

/-- The parts of a text before and after its last closing parenthesis that an ending follows. -/
def cutParams? : Text → Option (Text × Option Text × Text)
  | [] => none
  | c :: t =>
    match cutParams? t with
    | some (params, ending) => some (c :: params, ending)
    | none => if c = ')' then (ending? t).map fun ending => ([], ending) else none

/-- The kind of a function with these parameters, and the parameters without the owner. -/
def kindOf? (indent : Nat) (segments : List Text) : Option (DefKind × Text) :=
  if indent = 0 then some (.function, join ", " segments)
  else
    match segments with
    | first :: rest => if isOwner first then some (.method, join ", " rest) else none
    | [] => none

/-- The function header that a line holds. -/
def parse? (line : Text) : Option Signature :=
  if '\n' ∈ line then none
  else do
    let indent := leadingSpaces line
    let afterDef ← strip? "def " (line.drop indent)
    let (name, afterName) ← takeName? afterDef
    let inside ← strip? "(" afterName
    let (text, result?, trailing) ← cutParams? inside
    let (kind, params) ← kindOf? indent (splitTop ',' text)
    return { indent, kind, name, params, result?, trailing }

/-- The result type in the target; a constructor has none. -/
def renderResult (s : Signature) : Except Error Text :=
  match s.result? with
  | none => .ok []
  | some type =>
    if spellMethod s.name = "constructor" then .ok []
    else (": " ++ ·) <$> TypeExpr.convert .result type

/-- The header line in the target. -/
def render (s : Signature) : Except Error Text := do
  let params ← convertParams s.params
  let result ← s.renderResult
  let start : Text := match s.kind with
    | .method => spaces s.indent
    | .function => "function "
  return start ++ spellMethod s.name ++ "(" ++ params ++ ")" ++ result ++ " \x7b" ++ s.trailing

/-- The bindings to warn of: those of an object for keyword-only parameters that callers may leave
out although some of its fields are required. -/
def looseBindings? (s : Signature) : Option (List Text) :=
  match ParamList.parse s.params with
  | .ok list => list.looseBindings?
  | .error _ => none

end Signature

end Rebrace
