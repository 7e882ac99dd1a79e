import Rebrace.Terminal

/-!
# The log

What a conversion does is told by events, in the order in which they happen.  A listener hears
warnings always, and the finer levels on demand.
-/

namespace Rebrace

open Text

/-- How fine an event is. -/
inductive Level where
  /-- Something a user should look at. -/
  | warn
  /-- A step of the conversion. -/
  | debug
  /-- A change of lines within a step. -/
  | trace
  deriving DecidableEq

/-- One thing that happened. Lines are counted from zero and ranges include both ends. -/
inductive Event where
  /-- A source of `count` lines was read. -/
  | sourceRead (count : Nat) (origin : Text)
  /-- A pass starts over `count` lines. -/
  | passStarted (name : Text) (count : Nat)
  /-- A class was found. -/
  | classFound (name : Text) (first last : Nat)
  /-- A function was found, and got the header `header`. -/
  | functionFound (name : Text) (first last : Nat) (header : Text)
  /-- A clause was found, and got the header `header`. -/
  | clauseFound (header : Text) (first last : Nat)
  /-- A range of lines was replaced by `count` lines. -/
  | replaced (first last count : Nat)
  /-- Callers may leave out an object with required fields. -/
  | looseObject (bindings : List Text)
  deriving DecidableEq

/-- The word for a level, five characters wide. -/
def Level.word : Level → Text
  | warn => "WARN "
  | debug => "DEBUG"
  | trace => "TRACE"

namespace Event

/-- The level of an event. -/
def level : Event → Level
  | sourceRead .. | passStarted .. | classFound .. | functionFound .. | clauseFound .. => .debug
  | replaced .. => .trace
  | looseObject .. => .warn

/-- The part of the program that tells an event. -/
def origin : Event → Text
  | sourceRead .. => "pyts"
  | passStarted .. => "pyts::transpile_main"
  | classFound .. => "pyts::translate::class_def_translate"
  | functionFound .. => "pyts::translate::function_def_translate"
  | clauseFound .. => "pyts::control_flow"
  | replaced .. => "pyts::lowering::line_buffer"
  | looseObject .. => "pyts::function"

/-- A range of lines. -/
def range (first last : Nat) : Text :=
  decimal first ++ "..=" ++ decimal last

/-- What an event tells. -/
def message : Event → Text
  | sourceRead count origin => "read " ++ decimal count ++ " lines from " ++ origin
  | passStarted name count => "pass `" ++ name ++ "` over " ++ decimal count ++ " line(s)"
  | classFound name first last => "class `" ++ name ++ "` (lines " ++ range first last ++ ")"
  | functionFound name first last header =>
    "def `" ++ name ++ "` (lines " ++ range first last ++ ") -> " ++ trim header
  | clauseFound header first last =>
    "block `" ++ trim header ++ "` (lines " ++ range first last ++ ")"
  | replaced first last count =>
    "splice lines " ++ range first last ++ " -> " ++ decimal count ++ " line(s)"
  | looseObject bindings =>
    "keyword-only object \x7b " ++ join ", " bindings
      ++ " \x7d defaults to \x7b\x7d after an optional parameter; "
      ++ "required fields may be omitted by callers"

/-- A text with the lines after its first one set in by four spaces. -/
def hang (t : Text) : Text :=
  t.flatMap fun c => if c = '\n' then "\n    " else [c]

/-- What an event adds to the log: a line, or more if the message breaks, without control
sequences. -/
def entry (e : Event) : Text :=
  Terminal.plain ("[" ++ e.level.word ++ " " ++ e.origin ++ "] " ++ hang e.message ++ "\n")

end Event

end Rebrace
