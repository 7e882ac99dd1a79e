import Rebrace.Text.Basic

/-!
# Control sequences

A stream that is no terminal gets texts without the control sequences in them.  A sequence begins
with the escape character: one more character may complete it, or it goes on as a control sequence
up to a letter, as a title up to a bell, or as a string up to the next escape character or string
terminator.  Cancel and substitute end every sequence.  Outside sequences the control characters are
hidden, white space excepted.
-/

namespace Rebrace.Terminal

open Text

/-- Where a reader stands with respect to control sequences. -/
inductive Sequence where
  /-- Outside every sequence. -/
  | ground
  /-- After the escape character. -/
  | escape
  /-- After the escape character and some intermediate characters. -/
  | intermediate
  /-- In a control sequence. -/
  | control
  /-- At the start of a device string. -/
  | deviceEntry
  /-- In the parameters of a device string. -/
  | deviceParam
  /-- In the intermediate characters of a device string. -/
  | deviceIntermediate
  /-- In the contents of a string. -/
  | string
  /-- In a title. -/
  | title
  deriving DecidableEq

/-- White space that is shown even between the characters of a short sequence. -/
def isLayout (c : Char) : Bool :=
  c == '\t' || c == '\n' || c == '\x0c' || c == '\r'

namespace Sequence

/-- The state after one more character of a sequence begun with the escape character. -/
def nextEscape (c : Char) : Sequence :=
  if c < ' ' ∨ '\x7f' ≤ c then escape
  else if c ≤ '/' then intermediate
  else if c = '[' then control
  else if c = ']' then title
  else if c = 'P' then deviceEntry
  else if c = 'X' ∨ c = '^' ∨ c = '_' then string
  else ground

/-- The state after one more character of a device string whose contents have not begun, where
`param` is the state that a parameter leads to and `mark` the one that a private mark leads to. -/
def nextDevice (s param mark : Sequence) (c : Char) : Sequence :=
  if c < ' ' ∨ '\x7f' ≤ c then s
  else if c ≤ '/' then deviceIntermediate
  else if c ≤ ';' then param
  else if c ≤ '?' then mark
  else string

/-- Does the UTF-8 form of `c` hold the byte that ends a string? -/
def endsString (c : Char) : Bool :=
  (String.utf8EncodeChar c).contains 0x9c

/-- The state after one more character. -/
def next (s : Sequence) (c : Char) : Sequence :=
  if c = '\x1b' then escape
  else if c = '\x18' ∨ c = '\x1a' then ground
  else
    match s with
    | ground => ground
    | escape => nextEscape c
    | intermediate => if '0' ≤ c ∧ c < '\x7f' then ground else intermediate
    | control => if '@' ≤ c ∧ c < '\x7f' then ground else control
    | deviceEntry => nextDevice deviceEntry deviceParam deviceParam c
    | deviceParam => nextDevice deviceParam deviceParam string c
    | deviceIntermediate => nextDevice deviceIntermediate string string c
    | string => if endsString c then ground else string
    | title => if c = '\x07' then ground else title

/-- Is `c` shown when it is read in this state? -/
def shows (s : Sequence) (c : Char) : Bool :=
  match s with
  | ground => isLayout c || (' ' ≤ c && c != '\x7f')
  | escape | intermediate | control => isLayout c
  | deviceEntry | deviceParam | deviceIntermediate | string | title => false

end Sequence

/-- The characters of a text that are shown. Shown characters are read as a run that lasts until one
is hidden. White space may start such a run inside a sequence; the sequence then goes on after the
run, unless a character beyond ASCII has ended it. -/
def plainFrom : (inRun : Bool) → (s : Sequence) → Text → Text
  | _, _, [] => []
  | inRun, s, c :: t =>
    if if inRun then Sequence.ground.shows c else s.shows c then
      c :: plainFrom true (if c.toNat < 128 then s else .ground) t
    else plainFrom false (s.next c) t

/-- A text without control sequences and control characters. -/
def plain (t : Text) : Text :=
  plainFrom false .ground t

/-- The sequence that ends a style. -/
def resetStyle : Text := "\x1b[0m"

/-- A styled part of a text, without control sequences: what the part leaves open ends with the
style. -/
def plainStyled (t : Text) : Text :=
  plain (t ++ resetStyle)

end Rebrace.Terminal
