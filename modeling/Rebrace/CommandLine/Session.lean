import Rebrace.CommandLine.Arguments
import Rebrace.Pass.Pipeline

/-!
# Sessions

A run of the program reads its arguments, then a source, converts it, and writes the result.  Each
stage either goes on or ends the run with a report: `start` is the first stage, `convertSource` is
the conversion, and the reports of the others say that a source could not be read, that a text was
printed or written, or that it could not be written.
-/

namespace Rebrace.CommandLine

open Text

/-! ### Reports -/

/-- The exit code of a run and what it wrote to its two streams. -/
structure Report where
  /-- The exit code. -/
  exit : Nat
  /-- What went to the standard output. -/
  stdout : Text := []
  /-- What went to the standard error stream. -/
  stderr : Text := []
  deriving DecidableEq

/-- Why a file could not be read or written. -/
inductive FileError where
  /-- There is no such file or directory. -/
  | notFound
  /-- The path names a directory. -/
  | isDirectory
  /-- The path leads through something that is no directory. -/
  | notDirectory
  /-- A name or the path is too long. -/
  | tooLong
  /-- There is no room for what is written. -/
  | noSpace
  /-- The device is not there. -/
  | noDevice
  /-- The bytes are no UTF-8 text. -/
  | notText
  /-- Anything else, in the words of the system. -/
  | other (cause : Text)
  deriving DecidableEq

/-- The sentence that tells why a file could not be read or written. -/
def FileError.message : FileError → Text
  | notFound => "No such file or directory (os error 2)"
  | isDirectory => "Is a directory (os error 21)"
  | notDirectory => "Not a directory (os error 20)"
  | tooLong => "File name too long (os error 36)"
  | noSpace => "No space left on device (os error 28)"
  | noDevice => "No such device or address (os error 6)"
  | notText => "stream did not contain valid UTF-8"
  | other cause => cause

/-! ### The stages of a run -/

/-- Where a source comes from. -/
inductive Origin where
  /-- The standard input. -/
  | stdin
  /-- A file. -/
  | file (path : Text)
  deriving DecidableEq

namespace Origin

/-- The name of an origin in messages. -/
def display : Origin → Text
  | stdin => "<stdin>"
  | file path => path

/-- The name of an origin in a failure to read it. -/
def reading : Origin → Text
  | stdin => "reading stdin"
  | file path => "reading " ++ quoted path

end Origin

/-- One line of a stream. -/
def lineOf (t : Text) : Text :=
  t ++ "\n"

/-- The line that reports a failure. -/
def errorLine (message : Text) : Text :=
  lineOf ("error: " ++ message)

namespace Options

/-- Where the source comes from: a path, unless it is left out or a lone hyphen. -/
def origin (o : Options) : Origin :=
  match o.input? with
  | none => .stdin
  | some path => if path = "-" then .stdin else .file path

/-- Does a listener hear events of this level? -/
def hears (o : Options) : Level → Bool
  | .warn => true
  | .debug => 1 ≤ o.verbosity
  | .trace => 2 ≤ o.verbosity

/-- The log of some events. -/
def log (o : Options) (events : List Event) : Text :=
  (events.filter fun e => o.hears e.level).flatMap Event.entry

/-- The line that announces a stage. -/
def stage (o : Options) (number : Nat) (message : Text) : Text :=
  if o.quiet then [] else lineOf ("[Stage " ++ decimal number ++ "] " ++ message)

/-- What is told before the source is read. -/
def beforeReading (o : Options) : Text :=
  o.stage 1 "Reading source..."

/-- The report of a run whose source could not be read. -/
def unreadable (o : Options) (e : FileError) : Report where
  exit := 1
  stderr := o.beforeReading ++ errorLine (o.origin.reading ++ ": " ++ e.message)

/-- Converts a source that was read: the converted text and what was told so far. -/
def convertSource (o : Options) (source : Text) : Except Report (Text × Text) :=
  let origin := o.origin.display
  let conversion := Conversion.run o.widths source
  let told := o.beforeReading
    ++ o.log [.sourceRead (Buffer.ofSource source).lines.length origin]
    ++ o.stage 2 ("Rewriting " ++ origin ++ " (" ++ decimal Pass.order.length ++ " passes)...")
    ++ o.log conversion.events
  match conversion.result with
  | .error e =>
    .error { exit := 1, stderr := told ++ lineOf e.report ++ lineOf ("  --> " ++ origin) }
  | .ok text => .ok (text, told ++ o.stage 3 "Writing output...")

/-- The report of a run whose text went to the standard output. -/
def printed (text told : Text) : Report where
  exit := 0
  stdout := text
  stderr := told

/-- The line that tells where a text was written. -/
def doneLine (o : Options) (path : Text) : Text :=
  if o.quiet then [] else lineOf ("✓ " ++ path)

/-- The report of a run whose text went to the file `path`. -/
def written (o : Options) (told path : Text) : Report where
  exit := 0
  stderr := told ++ o.doneLine path

/-- The report of a run whose text could not be written to `path`. -/
def unwritable (told path : Text) (e : FileError) : Report where
  exit := 1
  stderr := told ++ errorLine ("writing " ++ quoted path ++ ": " ++ e.message)

end Options

/-! ### The start of a run -/

/-- The help text. -/
def helpText : Text :=
  lineOf "Rewrite Python source into TypeScript" ++
  lineOf "" ++
  lineOf "Usage: pyts [OPTIONS] [INPUT]" ++
  lineOf "" ++
  lineOf "Arguments:" ++
  lineOf "  [INPUT]  Input file (stdin when omitted or `-`)" ++
  lineOf "" ++
  lineOf "Options:" ++
  lineOf "  -o, --output <OUTPUT>            Output file (stdout when omitted)" ++
  lineOf ("      --from-indent <FROM_INDENT>  "
    ++ "Spaces per indentation level in the input [default: 4]") ++
  lineOf ("      --to-indent <TO_INDENT>      "
    ++ "Spaces per indentation level in the output [default: 2]") ++
  lineOf "  -q, --quiet                      Suppress stage messages" ++
  lineOf ("  -v, --verbose...                 "
    ++ "Increase log verbosity (-v debug, -vv trace)") ++
  lineOf "  -h, --help                       Print help" ++
  lineOf "  -V, --version                    Print version"

/-- The report of a run that ends with its arguments. -/
def Stop.report : Stop → Report
  | failed e => { exit := 2, stderr := errorLine e.message }
  | version => { exit := 0, stdout := lineOf "pyts 1.0.0" }
  | help => { exit := 0, stdout := helpText }

/-- Reads the arguments by `readArguments` and checks the widths. -/
def start (readArguments : List Text → Except Stop Options) (args : List Text) :
    Except Report Options :=
  match readArguments args with
  | .error stop => .error stop.report
  | .ok options =>
    match options.widths.validate with
    | .error e => .error { exit := 2, stderr := errorLine e.message }
    | .ok () => .ok options

end Rebrace.CommandLine
