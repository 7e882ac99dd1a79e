import Rebrace.Text.Basic
import Rebrace.Text.Word

/-!
# Names

Names are written in camel case in the target.  Inside a line, a name is a maximal run of ASCII
letters, digits and underscores that starts with no digit and follows no word character; four names
have a spelling of their own.
-/

namespace Rebrace

open Text

/-- An ASCII lower-case letter or digit. -/
def isLowerOrDigit (c : Char) : Bool :=
  c.isLower || c.isDigit

/-- Camel case of a text that follows a character of which `joins` tells whether it is a lower-case
letter or digit. -/
def camelCaseFrom : (joins : Bool) → Text → Text
  | _, [] => []
  | _, [c] => [c]
  | joins, c :: d :: t =>
    if c = '_' ∧ joins ∧ isLowerOrDigit d then d.toUpper :: camelCaseFrom true t
    else c :: camelCaseFrom (isLowerOrDigit c) (d :: t)

/-- Camel case: an underscore between two characters that are lower-case letters or digits is
dropped, and the character after it is written in upper case. All other underscores stay. -/
def camelCase (name : Text) : Text :=
  camelCaseFrom false name

/-- Can `c` start a name? -/
def isNameStart (c : Char) : Bool :=
  c.isAlpha || c == '_'

/-- Can `c` stand inside a name? -/
def isNameChar (c : Char) : Bool :=
  c.isAlphanum || c == '_'

/-- The characters of a name that a text begins with, and the rest of the text. -/
def takeName? (t : Text) : Option (Text × Text) :=
  match t.takeWhile isNameChar with
  | [] => none
  | name => some (name, t.dropWhile isNameChar)

/-- The names with a spelling of their own. -/
def nameTable : List (Text × Text) :=
  [("self", "this"), ("None", "null"), ("True", "true"), ("False", "false")]

/-- The spelling of a name in the target. -/
def spellName (name : Text) : Text :=
  (lookup? nameTable name).getD (camelCase name)

/-- The part of a line that follows a character of which `inWord` tells whether it is a word
character, with its names spelled for the target. -/
def spellNamesFrom (inWord : Bool) : Text → Text
  | [] => []
  | c :: t =>
    if !inWord && isNameStart c then
      spellName (c :: t.takeWhile isNameChar) ++ spellNamesFrom true (t.dropWhile isNameChar)
    else c :: spellNamesFrom (isWord c) t
termination_by t => t.length
decreasing_by
  · have := (List.dropWhile_sublist isNameChar (l := t)).length_le
    simp
    omega
  · simp

/-- A line with its names spelled for the target. -/
def spellNames (line : Text) : Text :=
  spellNamesFrom false line

end Rebrace
