import Rebrace.Keyword

/-!
# Failures

A failure stops the whole conversion.  It is structural when the text is malformed, and an
assumption when the text is well formed but outside the supported subset.
-/

namespace Rebrace

open Text

/-- The two kinds of failure. -/
inductive Category where
  /-- Malformed brackets, type arguments or loop headers. -/
  | structural
  /-- Well-formed text without an equivalent in the target. -/
  | assumption
  deriving DecidableEq

/-- The cause of a failure. -/
inductive Error where
  /-- The bracket at byte offset `index` of `text` is never closed. -/
  | unmatchedBracket (text : Text) (index : Nat)
  /-- There is no opening bracket where `text` needs one. -/
  | noBracketFound (text : Text)
  /-- The bracket that closes the first one of `text` is not its last character. -/
  | trailingContent (text : Text)
  /-- The type constructor `construct` is applied to `found` arguments in `text`. -/
  | arityMismatch (construct : Text) (expected found : Nat) (text : Text)
  /-- The loop header `condition` falls into `parts` parts at ` in `. -/
  | malformedMembership (condition : Text) (parts : Nat)
  /-- The keyword-only parameter `name` has no type. -/
  | missingKeywordType (name : Text)
  /-- The class `className` extends each of `bases`. -/
  | multipleInheritance (className : Text) (bases : List Text)
  /-- The parameter `segment` collects any number of arguments. -/
  | unsupportedParameter (segment : Text)
  /-- The header of the class `className` has the keyword argument `argument`. -/
  | unsupportedClassArgument (className argument : Text)
  /-- An `else` belongs to a clause of the keyword `after`. -/
  | unsupportedElse (after : Keyword)
  deriving DecidableEq

/-- The word for a kind of failure in a report. -/
def Category.word : Category → Text
  | .structural => "structural"
  | .assumption => "assumption"

namespace Error

/-- The kind of a failure. -/
def category : Error → Category
  | unmatchedBracket .. | noBracketFound .. | arityMismatch .. | malformedMembership .. =>
    .structural
  | trailingContent .. | missingKeywordType .. | multipleInheritance .. | unsupportedParameter ..
  | unsupportedClassArgument .. | unsupportedElse .. => .assumption

/-- The stable code of a failure. Structural failures count from 1, assumptions from 101. -/
def code : Error → Text
  | unmatchedBracket .. => "PYTS001"
  | noBracketFound .. => "PYTS002"
  | arityMismatch .. => "PYTS003"
  | malformedMembership .. => "PYTS004"
  | trailingContent .. => "PYTS101"
  | missingKeywordType .. => "PYTS102"
  | multipleInheritance .. => "PYTS103"
  | unsupportedParameter .. => "PYTS104"
  | unsupportedClassArgument .. => "PYTS105"
  | unsupportedElse .. => "PYTS106"

/-- A text between backticks. -/
def ticked (t : Text) : Text :=
  "`" ++ t ++ "`"

/-- The sentence that tells a failure. -/
def message : Error → Text
  | unmatchedBracket text index =>
    "unmatched opening bracket at byte " ++ decimal index ++ " in " ++ ticked text
  | noBracketFound text => "no opening bracket found in " ++ ticked text
  | trailingContent text =>
    "closing bracket is not the final character of " ++ ticked text
  | arityMismatch construct expected found text =>
    ticked construct ++ " expects " ++ decimal expected ++ " type argument(s), got "
      ++ decimal found ++ " in " ++ ticked text
  | malformedMembership condition parts =>
    "loop header " ++ ticked condition ++ " must split into exactly two parts at ` in `, got "
      ++ decimal parts
  | missingKeywordType name =>
    "keyword-only parameter " ++ ticked name ++ " has no type annotation"
  | multipleInheritance className bases =>
    "class " ++ ticked className ++ " lists several base classes (" ++ join ", " bases
      ++ "); only single inheritance is supported"
  | unsupportedParameter segment =>
    "parameter " ++ ticked segment ++ " has no equivalent in the target signature"
  | unsupportedClassArgument className argument =>
    "class " ++ ticked className ++ " passes keyword argument " ++ ticked argument
      ++ " in its header"
  | unsupportedElse after =>
    "`else` after a " ++ ticked after.source ++ " block has no equivalent in the target"

/-- The line that reports a failure: code, kind and sentence. -/
def report (e : Error) : Text :=
  "error[" ++ e.code ++ "][" ++ e.category.word ++ "]: " ++ e.message

end Error

end Rebrace
