import Rebrace.CommandLine.Session

/-!
# Runs in a system

A run reads the standard input or a file, and it may write a file.  What a path names is a matter of
the system, which offers an action for either and tells whether it failed.  `System.run` puts the
stages of a run together, over any system and any reader of arguments.

A run is followed as if there were room for every text.  For which lines there is none,
`rescaleIndent?` tells.
-/

namespace Rebrace.CommandLine

open Text

/-! ### Bytes and texts -/

/-- The text with the given UTF-8 bytes. -/
def decode (bytes : ByteArray) : Except FileError Text :=
  match String.fromUTF8? bytes with
  | some s => .ok s.toList
  | none => .error .notText

/-- The UTF-8 bytes of a text. -/
def encode (t : Text) : ByteArray :=
  (String.ofList t).toUTF8

/-! ### Systems -/

/-- What a run asks of the system that it works in. -/
structure System (m : Type → Type) where
  /-- Reads all bytes of an origin. -/
  read : (origin : Origin) → m (Except FileError ByteArray)
  /-- Puts bytes in place of what the file of a path held. -/
  write : (path : Text) → (bytes : ByteArray) → m (Except FileError Unit)

namespace System

variable {m : Type → Type} [Monad m]

/-- Reads the source text of an origin. -/
def readSource (s : System m) (origin : Origin) : m (Except FileError Text) := do
  return (← s.read origin).bind decode

/-- Prints a converted text, or writes it to the output path. -/
def deliver (s : System m) (o : Options) (text told : Text) : m Report :=
  match o.output? with
  | none => return Options.printed text told
  | some path => do
    match ← s.write path (encode text) with
    | .error e => return Options.unwritable told path e
    | .ok () => return o.written told path

/-- A run of the program with the arguments `args`. -/
def run (s : System m) (readArguments : List Text → Except Stop Options) (args : List Text) :
    m Report :=
  match start readArguments args with
  | .error report => return report
  | .ok o => do
    match ← s.readSource o.origin with
    | .error e => return o.unreadable e
    | .ok source =>
      match o.convertSource source with
      | .error report => return report
      | .ok (text, told) => s.deliver o text told

end System

end Rebrace.CommandLine
