import Rebrace.Line.Indentation
import Rebrace.Terminal

/-!
# The arguments of a run

Arguments are read from left to right.  An option that takes a value, and the input path, wait until
the next accepted argument before their value is checked and stored; an argument that is not known
is reported at once, even if the waiting value is faulty.
-/

namespace Rebrace.CommandLine

open Text

/-! ### Widths -/

/-- Why a text is no width. -/
inductive NumberError where
  /-- There is no digit. -/
  | empty
  /-- Some character is no digit. -/
  | invalidDigit
  /-- The number does not fit into a machine word. -/
  | tooLarge
  deriving DecidableEq

/-- The sentence that tells why a text is no width. -/
def NumberError.message : NumberError → Text
  | empty => "cannot parse integer from empty string"
  | invalidDigit => "invalid digit found in string"
  | tooLarge => "number too large to fit in target type"

/-- The number with the digits of `value` before those of a text. -/
def readDigits (value : Nat) : Text → Except NumberError Nat
  | [] => .ok value
  | c :: t =>
    if c.isDigit then
      let next := value * 10 + (c.toNat - '0'.toNat)
      if next < wordSize then readDigits next t else .error .tooLarge
    else .error .invalidDigit

/-- Reads a width: decimal digits, perhaps with a plus sign in front. -/
def readWidth : Text → Except NumberError Nat
  | [] => .error .empty
  | ['+'] => .error .invalidDigit
  | '+' :: digits => readDigits 0 digits
  | digits => readDigits 0 digits

/-! ### Arguments and their faults -/

/-- The arguments that have a value. -/
inductive Slot where
  /-- The path to read from. -/
  | input
  /-- The path to write to. -/
  | output
  /-- The source width. -/
  | sourceWidth
  /-- The target width. -/
  | targetWidth
  deriving DecidableEq

/-- How a message names an argument with a value. -/
def Slot.display : Slot → Text
  | input => "[INPUT]"
  | output => "--output <OUTPUT>"
  | sourceWidth => "--from-indent <FROM_INDENT>"
  | targetWidth => "--to-indent <TO_INDENT>"

/-- The arguments without a value. -/
inductive Flag where
  /-- No stage messages. -/
  | quiet
  /-- More log lines. -/
  | verbose
  /-- The version, and nothing else. -/
  | version
  /-- The help text, and nothing else. -/
  | help
  deriving DecidableEq

/-- How a message names an argument without a value. -/
def Flag.display : Flag → Text
  | quiet => "--quiet"
  | verbose => "--verbose..."
  | version => "--version"
  | help => "--help"

/-- A fault in the arguments. -/
inductive ArgumentError where
  /-- An argument that is not known, or a second input. -/
  | unexpected (argument : Text)
  /-- A value for an argument that takes none. -/
  | unexpectedValue (value : Text) (flag : Flag)
  /-- An argument without its value. -/
  | missingValue (slot : Slot)
  /-- A value that is no width. -/
  | invalidValue (value : Text) (slot : Slot) (cause : NumberError)
  /-- An argument with a value, given twice. -/
  | repeated (slot : Slot)
  /-- An argument without a value, given twice. -/
  | repeatedFlag (flag : Flag)
  deriving DecidableEq

/-- A text between apostrophes. -/
def quoted (t : Text) : Text :=
  "'" ++ t ++ "'"

/-- An argument between apostrophes, without control sequences. -/
def quotedPlain (t : Text) : Text :=
  quoted (Terminal.plainStyled t)

/-- The sentence that tells a fault in the arguments. -/
def ArgumentError.message : ArgumentError → Text
  | unexpected argument => "unexpected argument " ++ quotedPlain argument ++ " found"
  | unexpectedValue value flag =>
    "unexpected value " ++ quotedPlain value ++ " for " ++ quoted flag.display
      ++ " found; no more were expected"
  | missingValue slot =>
    "a value is required for " ++ quoted slot.display ++ " but none was supplied"
  | invalidValue value slot cause =>
    "invalid value " ++ quotedPlain value ++ " for " ++ quoted slot.display ++ ": " ++ cause.message
  | repeated slot =>
    "the argument " ++ quoted slot.display ++ " cannot be used multiple times"
  | repeatedFlag flag =>
    "the argument " ++ quoted flag.display ++ " cannot be used multiple times"

/-- What ends the reading of arguments before the last one. -/
inductive Stop where
  /-- A fault. -/
  | failed (error : ArgumentError)
  /-- The version is asked for. -/
  | version
  /-- The help text is asked for. -/
  | help
  deriving DecidableEq

/-! ### Accepted arguments -/

/-- The accepted arguments. -/
structure Options where
  /-- The path to read from. -/
  input? : Option Text := none
  /-- The path to write to. -/
  output? : Option Text := none
  /-- The source width, if it is given. -/
  sourceWidth? : Option Nat := none
  /-- The target width, if it is given. -/
  targetWidth? : Option Nat := none
  /-- Are stage messages suppressed? -/
  quiet : Bool := false
  /-- How often more log lines were asked for. -/
  verbosity : Nat := 0
  deriving DecidableEq

/-- The widths that the arguments ask for. -/
def Options.widths (o : Options) : Widths :=
  { source := o.sourceWidth?.getD ({} : Widths).source
    target := o.targetWidth?.getD ({} : Widths).target }

/-- A stored path must not be empty. -/
def checkPath (slot : Slot) (value : Text) : Except Stop Text :=
  if value.isEmpty then .error (.failed (.missingValue slot)) else .ok value

/-- A stored width must be a number. -/
def checkWidth (slot : Slot) (value : Text) : Except Stop Nat :=
  match readWidth value with
  | .ok n => .ok n
  | .error cause => .error (.failed (.invalidValue value slot cause))

/-- Is a value stored already? -/
def Options.has (o : Options) : Slot → Bool
  | .input => o.input?.isSome
  | .output => o.output?.isSome
  | .sourceWidth => o.sourceWidth?.isSome
  | .targetWidth => o.targetWidth?.isSome

/-- Stores a value, which must be the first one for its slot. -/
def Options.store (o : Options) (slot : Slot) (value : Text) : Except Stop Options :=
  if o.has slot then .error (.failed (.repeated slot))
  else
    match slot with
    | .input => (fun path => { o with input? := some path }) <$> checkPath slot value
    | .output => (fun path => { o with output? := some path }) <$> checkPath slot value
    | .sourceWidth => (fun n => { o with sourceWidth? := some n }) <$> checkWidth slot value
    | .targetWidth => (fun n => { o with targetWidth? := some n }) <$> checkWidth slot value

/-! ### The reader -/

/-- The state of a reader of arguments. -/
structure Reader where
  /-- What was stored. -/
  options : Options := {}
  /-- The slot that waits, with its value once that was read. -/
  waiting? : Option (Slot × Option Text) := none
  /-- Was an input path read? -/
  inputRead : Bool := false

namespace Reader

/-- Stores the value that waits. -/
def settle (r : Reader) : Except Stop Reader :=
  match r.waiting? with
  | none => .ok r
  | some (slot, none) => .error (.failed (.missingValue slot))
  | some (slot, some value) =>
    (fun options => { r with options, waiting? := none }) <$> r.options.store slot value

/-- Reads an argument without a value. -/
def flag (r : Reader) (f : Flag) : Except Stop Reader := do
  let r ← r.settle
  match f with
  | .quiet =>
    if r.options.quiet then throw (.failed (.repeatedFlag .quiet))
    return { r with options := { r.options with quiet := true } }
  | .verbose =>
    return { r with options := { r.options with verbosity := r.options.verbosity + 1 } }
  | .version => throw .version
  | .help => throw .help

/-- Reads an option with its value, if the value is part of the argument. -/
def option (r : Reader) (slot : Slot) (value? : Option Text) : Except Stop Reader := do
  let r ← r.settle
  match value? with
  | none => return { r with waiting? := some (slot, none) }
  | some value => return { r with options := ← r.options.store slot value }

/-- Reads an argument that is neither an option nor the value of one. -/
def positional (r : Reader) (argument : Text) : Except Stop Reader := do
  if r.inputRead then throw (.failed (.unexpected argument))
  let r ← r.settle
  return { r with waiting? := some (.input, some argument), inputRead := true }

/-- Reads the letters of an argument such as `-qv`. The value of `-o` is the rest of it. -/
def letters (r : Reader) : Text → Except Stop Reader
  | [] => .ok r
  | c :: t =>
    if c = 'q' then do letters (← r.flag .quiet) t
    else if c = 'v' then do letters (← r.flag .verbose) t
    else if c = 'V' then do letters (← r.flag .version) t
    else if c = 'h' then do letters (← r.flag .help) t
    else if c = 'o' then
      r.option .output (if t.isEmpty then none else some ((strip? "=" t).getD t))
    else .error (.failed (.unexpected ['-', c]))

/-- Reads an argument such as `--quiet` or `--output=path`, without the two hyphens. -/
def word (r : Reader) (t : Text) : Except Stop Reader :=
  let (name, value?) :=
    match cutAtChar? '=' t with
    | some (name, value) => (name, some value)
    | none => (t, none)
  let flag (f : Flag) : Except Stop Reader :=
    match value? with
    | some value => .error (.failed (.unexpectedValue value f))
    | none => r.flag f
  if name = "output" then r.option .output value?
  else if name = "from-indent" then r.option .sourceWidth value?
  else if name = "to-indent" then r.option .targetWidth value?
  else if name = "quiet" then flag .quiet
  else if name = "verbose" then flag .verbose
  else if name = "version" then flag .version
  else if name = "help" then flag .help
  else .error (.failed (.unexpected ("--" ++ name)))

/-- Reads one argument in front of which no `--` stood. -/
def argument (r : Reader) (t : Text) : Except Stop Reader :=
  match strip? "--" t with
  | some name => r.word name
  | none =>
    match strip? "-" t with
    | some (c :: more) => r.letters (c :: more)
    | _ =>
      match r.waiting? with
      | some (slot, none) => .ok { r with waiting? := some (slot, some t) }
      | _ => r.positional t

/-- Reads the arguments; after `--` all of them are positional. -/
def arguments (r : Reader) : (escaped : Bool) → List Text → Except Stop Reader
  | _, [] => r.settle
  | true, t :: ts => do arguments (← r.positional t) true ts
  | false, t :: ts =>
    if t = "--" then arguments r true ts else do arguments (← r.argument t) false ts

end Reader

/-- The options that some arguments ask for. -/
def readArguments (args : List Text) : Except Stop Options :=
  Reader.options <$> ({} : Reader).arguments false args

end Rebrace.CommandLine
