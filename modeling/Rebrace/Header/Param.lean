import Rebrace.Line.Identifier
import Rebrace.Scan.TopLevel
import Rebrace.TypeExpr.Basic

/-!
# Parameters

A parameter is a name with an optional type and an optional default value.  Those after a lone `*`
can be passed by keyword only; the target collects them in one destructured object, whose fields
need a type.
-/

namespace Rebrace

open Text

/-! ### Single parameters -/

/-- The literals with a spelling of their own. -/
def valueTable : List (Text × Text) :=
  [("None", "null"), ("True", "true"), ("False", "false")]

/-- The spelling of a default value in the target. -/
def spellValue (value : Text) : Text :=
  (lookup? valueTable value).getD value

/-- One parameter: its name in camel case, and its type and default value as they are written. -/
structure Param where
  /-- The name in camel case. -/
  name : Text
  /-- The type, if one is given. -/
  type? : Option Text := none
  /-- The default value, if one is given. -/
  default? : Option Text := none
  deriving DecidableEq

namespace Param

/-- Reads `name`, `name: type`, `name = default` or `name: type = default`. The default value is
cut off first, so that a colon inside it does not count. -/
def parse (segment : Text) : Param :=
  let text := trim segment
  let (head, default?) :=
    match cutDefault? text with
    | some (head, value) => (head, some (trim value))
    | none => (text, none)
  match cutAtChar? ':' head with
  | some (name, type) =>
    { name := camelCase (trim name)
      type? := if isBlank type then none else some (trim type)
      default? }
  | none => { name := camelCase (trim head), default? }

/-- The type in the target, if one is given. -/
def convertType (p : Param) : Except Error (Option Text) :=
  match p.type? with
  | some type => some <$> TypeExpr.convert .value type
  | none => .ok none

/-- The default value in the target, if one is given. -/
def value? (p : Param) : Option Text :=
  p.default?.map spellValue

/-- A positional parameter in the target. -/
def render (p : Param) : Except Error Text := do
  let type? ← p.convertType
  let annotation : Text := match type? with
    | some type => ": " ++ type
    | none => []
  let default : Text := match p.value? with
    | some value => " = " ++ value
    | none => []
  return p.name ++ annotation ++ default

end Param

/-! ### Parameters passed by keyword -/

/-- A field of the object that collects the keyword-only parameters. -/
structure Field where
  /-- The name in camel case. -/
  name : Text
  /-- The type in the target. -/
  type : Text
  /-- The default value in the target; a field without one is required. -/
  value? : Option Text
  deriving DecidableEq

namespace Field

/-- The field of a keyword-only parameter. A fault in its type is reported before a missing type
of a later one. -/
def ofParam (p : Param) : Except Error Field :=
  match p.convertType with
  | .error e => .error e
  | .ok none => .error (.missingKeywordType p.name)
  | .ok (some type) => .ok ⟨p.name, type, p.value?⟩

/-- The field in the destructuring pattern. -/
def binding (f : Field) : Text :=
  match f.value? with
  | some value => f.name ++ " = " ++ value
  | none => f.name

/-- The field in the type of the object. -/
def signature (f : Field) : Text :=
  match f.value? with
  | some _ => f.name ++ "?: " ++ f.type
  | none => f.name ++ ": " ++ f.type

/-- Must a caller supply the field? -/
def isRequired (f : Field) : Bool :=
  f.value?.isNone

end Field

/-! ### Parameter lists -/

/-- A parameter list, cut at the lone `*`. -/
structure ParamList where
  /-- The parameters before it. -/
  positional : List Param := []
  /-- The parameters after it. -/
  keywordOnly : List Param := []
  deriving DecidableEq

namespace ParamList

/-- The parameter list of some segments; `keyword` after a lone `*`. Empty segments and the mark `/`
do not count, and a segment that collects arguments has no equivalent. -/
def ofSegments : (keyword : Bool) → List Text → Except Error ParamList
  | _, [] => .ok {}
  | keyword, segment :: rest =>
    if segment.isEmpty ∨ segment = "/" then ofSegments keyword rest
    else if segment = "*" then ofSegments true rest
    else if startsWith "*" segment then .error (.unsupportedParameter segment)
    else
      (fun list =>
        if keyword then { list with keywordOnly := Param.parse segment :: list.keywordOnly }
        else { list with positional := Param.parse segment :: list.positional })
      <$> ofSegments keyword rest

/-- Reads the text between the parentheses of a signature. -/
def parse (text : Text) : Except Error ParamList :=
  ofSegments false (splitTop ',' text)

/-- Does some positional parameter have a default value? -/
def hasOptional (list : ParamList) : Bool :=
  list.positional.any fun p => p.default?.isSome

/-- The object that collects the keyword-only parameters, as one parameter of the target. It may be
left out if no field is required, and must be optional after an optional parameter. -/
def renderObject (fields : List Field) (afterOptional : Bool) : Text :=
  let default : Text :=
    if fields.any Field.isRequired ∧ ¬ afterOptional then [] else " = \x7b\x7d"
  "\x7b " ++ join ", " (fields.map Field.binding) ++ " \x7d: \x7b "
    ++ join ", " (fields.map Field.signature) ++ " \x7d" ++ default

/-- The fields of the keyword-only parameters. -/
def fields (list : ParamList) : Except Error (List Field) :=
  list.keywordOnly.mapM Field.ofParam

/-- The parameter list in the target. -/
def render (list : ParamList) : Except Error Text := do
  let positional ← list.positional.mapM Param.render
  if list.keywordOnly.isEmpty then return join ", " positional
  let fields ← list.fields
  return join ", " (positional ++ [renderObject fields list.hasOptional])

/-- The bindings of the object for keyword-only parameters, when callers may leave it out although
some of its fields are required. -/
def looseBindings? (list : ParamList) : Option (List Text) :=
  match list.positional.mapM Param.render, list.fields with
  | .ok _, .ok fields =>
    if fields.any Field.isRequired ∧ list.hasOptional then some (fields.map Field.binding)
    else none
  | _, _ => none

end ParamList

/-- The parameter list between the parentheses of a signature, in the target. -/
def convertParams (text : Text) : Except Error Text :=
  ParamList.parse text >>= ParamList.render

end Rebrace
