import Rebrace.CommandLine.System

/-!
# The program

The outer layer of a run: the actions that it asks of the system are those of the operating system,
and its report goes to the two streams.
-/

namespace Rebrace.CommandLine

/-- All bytes that are left on a stream. -/
partial def readStream (stream : IO.FS.Stream) (bytes : ByteArray) : IO ByteArray := do
  let chunk ← stream.read 65536
  if chunk.isEmpty then return bytes else readStream stream (bytes ++ chunk)

/-- The cause of a failure of the operating system. -/
def FileError.ofSystem : IO.Error → FileError
  | .noFileOrDirectory .. => .notFound
  | .inappropriateType _ 21 _ => .isDirectory
  | .inappropriateType _ 20 _ => .notDirectory
  | .invalidArgument _ 36 _ => .tooLong
  | .resourceExhausted _ 28 _ => .noSpace
  | .noSuchThing _ 6 _ => .noDevice
  | e => .other (toString e).toList

/-- An action whose failure is told and not thrown. -/
def tell {α : Type} (action : IO α) : IO (Except FileError α) := do
  try return .ok (← action)
  catch e => return .error (.ofSystem e)

/-- The operating system. -/
def System.operating : System IO where
  read
    | .stdin => tell do readStream (← IO.getStdin) .empty
    | .file path => tell (IO.FS.readBinFile (String.ofList path))
  write path bytes := tell do
    IO.FS.withFile (String.ofList path) .write fun file => do
      file.write bytes
      file.flush

/-- Writes a report to the two streams. -/
def emit (report : Report) : IO UInt32 := do
  IO.eprint (String.ofList report.stderr)
  IO.print (String.ofList report.stdout)
  return report.exit.toUInt32

end Rebrace.CommandLine

/-- Converts a Python source to TypeScript. -/
def main (args : List String) : IO UInt32 := do
  let report ← Rebrace.CommandLine.System.operating.run Rebrace.CommandLine.readArguments
    (args.map String.toList)
  Rebrace.CommandLine.emit report
