import Mathlib.Data.List.Basic
import Rebrace.Header.Signature
import Rebrace.Proofs.TypeSyntax

/-!
# Trees of function headers

`SignatureTree` is the syntax of function headers as a tree.  Its parts carry the proofs that they
are well formed: names are names, types are well-formed and applied to the right numbers of
arguments, and a default value is a text whose brackets and literals are closed and which has no
comma outside of them.  `SignatureTree.print` writes a header down, and `SignatureTree.target` says
what its form in the target is, or why it has none.
-/

namespace Rebrace

open Text

/-- A name. -/
structure Identifier where
  /-- The name itself. -/
  text : Text
  /-- A name is not empty. -/
  ne_nil : text ≠ []
  /-- A name is made of letters, digits and underscores. -/
  chars : ∀ c ∈ text, isNameChar c = true

/-- A type that can be translated. -/
structure Annotation where
  /-- The tree of the type. -/
  tree : TypeTree
  /-- The tree is well formed. -/
  isWellFormed : tree.isWellFormed = true
  /-- Every name is applied to the number of arguments that it needs. -/
  isArityCorrect : tree.isArityCorrect = true

/-- A default value. -/
structure DefaultValue where
  /-- The value as it is written. -/
  text : Text
  /-- There is a value. -/
  ne_nil : text ≠ []
  /-- There is no white space at its ends. -/
  trim_eq : trim text = text
  /-- Brackets and string literals are closed. -/
  run_eq : Scan.run nestAll {} text = {}
  /-- There is no comma outside of brackets and string literals. -/
  comma_notMem : ',' ∉ Scan.exposed nestAll {} text
  /-- The value stands on one line. -/
  newline_notMem : '\n' ∉ text

/-- A name, with a type if one is given. -/
def printTyped (name : Text) (type? : Option TypeTree) : Text :=
  match type? with
  | some type => name ++ ": " ++ type.print
  | none => name

/-! ### Parameters -/

/-- A parameter. -/
structure ParamTree where
  /-- The name. -/
  name : Identifier
  /-- The type, if one is given. -/
  type? : Option Annotation
  /-- The default value, if one is given. -/
  default? : Option DefaultValue

namespace ParamTree

/-- The name and the type of a parameter. -/
def printHead (p : ParamTree) : Text :=
  printTyped p.name.text (p.type?.map Annotation.tree)

/-- The text of a parameter. -/
def print (p : ParamTree) : Text :=
  match p.default? with
  | some default => p.printHead ++ " = " ++ default.text
  | none => p.printHead

/-- The default value in the target. -/
def value? (p : ParamTree) : Option Text :=
  p.default?.map fun default => spellValue default.text

/-- The type in the target. -/
def targetType? (p : ParamTree) : Option Text :=
  p.type?.map fun type => type.tree.target .value

/-- A positional parameter in the target. -/
def target (p : ParamTree) : Text :=
  camelCase p.name.text
    ++ (match p.targetType? with
      | some type => ": " ++ type
      | none => [])
    ++ (match p.value? with
      | some value => " = " ++ value
      | none => [])

/-- A keyword-only parameter in the pattern of the object in the target. -/
def binding (p : ParamTree) : Text :=
  match p.value? with
  | some value => camelCase p.name.text ++ " = " ++ value
  | none => camelCase p.name.text

/-- A keyword-only parameter in the type of the object in the target, where its own type is
`type`. -/
def field (p : ParamTree) (type : Text) : Text :=
  match p.value? with
  | some _ => camelCase p.name.text ++ "?: " ++ type
  | none => camelCase p.name.text ++ ": " ++ type

end ParamTree

/-- A segment of a parameter list. -/
inductive Segment where
  /-- The mark `/`. -/
  | slash
  /-- The mark `*`, after which parameters are keyword-only. -/
  | star
  /-- A parameter. -/
  | param (p : ParamTree)
  /-- A parameter that collects arguments: `*x`, or `**x` if `twice`. -/
  | variadic (twice : Bool) (p : ParamTree)

namespace Segment

/-- The text of a segment. -/
def print : Segment → Text
  | slash => "/"
  | star => "*"
  | param p => p.print
  | variadic false p => "*" ++ p.print
  | variadic true p => "**" ++ p.print

/-- The parameter of a segment. -/
def param? : Segment → Option ParamTree
  | param p => some p
  | slash | star | variadic _ _ => none

/-- Does the segment collect arguments? -/
def isVariadic : Segment → Bool
  | variadic _ _ => true
  | slash | star | param _ => false

/-- Is the segment the mark in front of keyword-only parameters? -/
def isStar : Segment → Bool
  | star => true
  | slash | param _ | variadic _ _ => false

/-- The parameters that can be passed by position. -/
def positional (segments : List Segment) : List ParamTree :=
  (segments.takeWhile (!·.isStar)).filterMap param?

/-- The parameters that can be passed by keyword only. -/
def keywordOnly (segments : List Segment) : List ParamTree :=
  (segments.dropWhile (!·.isStar)).filterMap param?

/-- The object that collects keyword-only parameters in the target.  It may be left out if every
field of it has a default value, and also behind a positional parameter with one. -/
def targetObject (positional keywordOnly : List ParamTree) : Text :=
  let default : Text :=
    if keywordOnly.all (·.value?.isSome) || positional.any (·.value?.isSome) then " = \x7b\x7d"
    else []
  "\x7b " ++ join ", " (keywordOnly.map ParamTree.binding) ++ " \x7d: \x7b "
    ++ join ", " (keywordOnly.map fun p => p.field (p.targetType?.getD [])) ++ " \x7d" ++ default

/-- The parameters in the target. -/
def targetParams (segments : List Segment) : List Text :=
  (positional segments).map ParamTree.target
    ++ (if (keywordOnly segments).isEmpty then []
      else [targetObject (positional segments) (keywordOnly segments)])

end Segment

/-! ### Headers -/

/-- The first parameter of a method. -/
structure Owner where
  /-- The number of spaces in front of the method. -/
  indent : Nat
  /-- A method is indented. -/
  indent_pos : 0 < indent
  /-- The name. -/
  name : Text
  /-- The name is one of two. -/
  name_eq : name = "self" ∨ name = "cls"
  /-- The type, if one is given. -/
  type? : Option { t : TypeTree // t.isWellFormed = true }

/-- The text of an owner. -/
def Owner.print (o : Owner) : Text :=
  printTyped o.name (o.type?.map Subtype.val)

/-- The header of a function, or of a method if there is an owner. -/
structure SignatureTree where
  /-- The name. -/
  name : Identifier
  /-- The owner of a method. -/
  owner? : Option Owner
  /-- The parameter list. -/
  segments : List Segment
  /-- The type of the result, if one is given. -/
  result? : Option Annotation
  /-- What follows the colon. -/
  trailing : Text
  /-- No parenthesis follows the colon. -/
  paren_notMem : ')' ∉ trailing
  /-- The header stands on one line. -/
  newline_notMem : '\n' ∉ trailing

namespace SignatureTree

/-- The number of spaces in front. -/
def indent (t : SignatureTree) : Nat :=
  (t.owner?.map Owner.indent).getD 0

/-- The texts between the parentheses. -/
def printParams (t : SignatureTree) : List Text :=
  (t.owner?.map Owner.print).toList ++ t.segments.map Segment.print

/-- The text behind the parentheses. -/
def printEnding (t : SignatureTree) : Text :=
  match t.result? with
  | some result => " -> " ++ result.tree.print ++ ":" ++ t.trailing
  | none => ":" ++ t.trailing

/-- The header line. -/
def print (t : SignatureTree) : Text :=
  spaces t.indent ++ "def " ++ t.name.text ++ "(" ++ join ", " t.printParams ++ ")" ++ t.printEnding

/-- The type of the result in the target; a constructor has none. -/
def targetResult (t : SignatureTree) : Text :=
  match t.result? with
  | some result =>
    if spellMethod t.name.text = "constructor" then [] else ": " ++ result.tree.target .result
  | none => []

/-- What a header starts with in the target. -/
def targetStart (t : SignatureTree) : Text :=
  if t.indent = 0 then "function " else spaces t.indent

/-- The header line in the target.  Collecting parameters are refused first, and then keyword-only
parameters without a type. -/
def target (t : SignatureTree) : Except Error Text :=
  match t.segments.find? Segment.isVariadic with
  | some segment => .error (.unsupportedParameter segment.print)
  | none =>
    match (Segment.keywordOnly t.segments).find? (·.type?.isNone) with
    | some p => .error (.missingKeywordType (camelCase p.name.text))
    | none =>
      .ok (t.targetStart ++ spellMethod t.name.text ++ "("
        ++ join ", " (Segment.targetParams t.segments) ++ ")" ++ t.targetResult ++ " \x7b"
        ++ t.trailing)

end SignatureTree

end Rebrace
