import Rebrace.Scan.TopLevel

/-!
# Clauses

A clause of control flow is a keyword, perhaps a condition, and a colon: the first one outside
brackets and string literals.  A loop over items has a membership as its condition, which becomes a
binding.
-/

namespace Rebrace

open Text

/-- The header of a clause. -/
structure Clause where
  /-- The number of spaces in front. -/
  indent : Nat
  /-- The keyword. -/
  keyword : Keyword
  /-- The condition, if there is one. -/
  condition? : Option Text
  /-- What follows the colon. -/
  trailing : Text
  deriving DecidableEq

/-- The target of a loop without parentheses around it. -/
def stripParens (t : Text) : Text :=
  ((strip? "(" t).bind (stripEnd? ")")).getD t

/-- The binding of a loop target: several targets are destructured. -/
def loopBinding (target : Text) : Text :=
  let names := BracketPair.round.splitTrim "," target
  if 1 < names.length then "[" ++ join ", " names ++ "]" else target

/-- The condition `x in xs` of a loop, as the binding `const x of xs`. -/
def convertMembership (condition : Text) : Except Error Text :=
  match BracketPair.square.split " in " condition with
  | [target, items] =>
    .ok ("const " ++ loopBinding (stripParens (trim target)) ++ " of " ++ trim items)
  | parts => .error (.malformedMembership condition parts.length)

namespace Clause

/-- May the text in front of the colon be the condition of a clause with this keyword? -/
def admits (keyword : Keyword) (condition : Text) : Bool :=
  match keyword.condition with
  | .required => !isBlank condition
  | .optional => true
  | .forbidden => isBlank condition

/-- The clause header that a line holds. -/
def parse? (line : Text) : Option Clause :=
  if '\n' ∈ line then none
  else do
    let indent := leadingSpaces line
    let (keyword, rest) ← Keyword.ofStart? (line.drop indent)
    let (condition, trailing) ← cutHeaderColon? rest
    let condition? := if isBlank condition then none else some (trim condition)
    if admits keyword condition then some { indent, keyword, condition?, trailing } else none

/-- The condition in the target, in parentheses. -/
def renderCondition (c : Clause) : Except Error Text :=
  match c.condition? with
  | none => .ok []
  | some condition =>
    if c.keyword = .forEach then
      (fun binding => " (" ++ binding ++ ")") <$> convertMembership condition
    else .ok (" (" ++ condition ++ ")")

/-- The header line in the target, with `leading` in front of the keyword. -/
def render (c : Clause) (leading : Text) : Except Error Text :=
  (fun condition =>
    spaces c.indent ++ leading ++ c.keyword.target ++ condition ++ " \x7b" ++ c.trailing)
  <$> c.renderCondition

end Clause

end Rebrace
