import Rebrace.Text.Basic
import Rebrace.Text.Word

/-!
# Clause keywords

The eight keywords that open a block of control flow: how each is spelled in the source and in the
target, whether it continues the clause above it, and whether a condition follows it.
-/

namespace Rebrace

/-- The keyword that opens a clause. -/
inductive Keyword where
  /-- `if` -/
  | ifTrue
  /-- `elif` -/
  | elseIf
  /-- `while` -/
  | whileTrue
  /-- `for` -/
  | forEach
  /-- `except` -/
  | handle
  /-- `else` -/
  | otherwise
  /-- `try` -/
  | attempt
  /-- `finally` -/
  | cleanUp
  deriving DecidableEq

/-- Whether a header has a condition between its keyword and its colon. -/
inductive ConditionPolicy where
  /-- There has to be one. -/
  | required
  /-- There may be one. -/
  | optional
  /-- There must not be one. -/
  | forbidden
  deriving DecidableEq

namespace Keyword

open Text

/-- Every keyword. -/
def all : List Keyword :=
  [ifTrue, elseIf, whileTrue, forEach, handle, otherwise, attempt, cleanUp]

/-- The spelling of a keyword in the source. -/
def source : Keyword → Text
  | ifTrue => "if"
  | elseIf => "elif"
  | whileTrue => "while"
  | forEach => "for"
  | handle => "except"
  | otherwise => "else"
  | attempt => "try"
  | cleanUp => "finally"

/-- The spelling of a keyword in the target. -/
def target : Keyword → Text
  | elseIf => "else if"
  | handle => "catch"
  | k => k.source

/-- Does a clause with this keyword continue the block that ends directly above it? -/
def chains : Keyword → Bool
  | elseIf | handle | otherwise | cleanUp => true
  | ifTrue | whileTrue | forEach | attempt => false

/-- Whether a condition follows the keyword. -/
def condition : Keyword → ConditionPolicy
  | ifTrue | elseIf | whileTrue | forEach => .required
  | handle => .optional
  | otherwise | attempt | cleanUp => .forbidden

/-- Loops and handlers, after which the target has no form of `else`. -/
def refusesElse : Keyword → Bool
  | forEach | whileTrue | handle => true
  | ifTrue | elseIf | otherwise | attempt | cleanUp => false

/-- The keyword that a text begins with, and the rest of the text, which does not begin with a
word character: `iffy` does not begin with a keyword. -/
def ofStart? (t : Text) : Option (Keyword × Text) :=
  all.findSome? fun k =>
    (strip? k.source t).bind fun rest =>
      if rest.head?.any isWord then none else some (k, rest)

theorem mem_all (k : Keyword) : k ∈ all := by
  cases k <;> simp [all]

end Keyword

end Rebrace
