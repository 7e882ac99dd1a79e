import Rebrace.CommandLine.System

/-!
# Runs in a directory

A run can be followed without a file system: the files are a table of names and bytes, every path
is the name of a file, and the standard input is a sequence of bytes.
-/

namespace Rebrace.CommandLine

/-- The files of a directory, by name. -/
abbrev Directory := List (Text × ByteArray)

namespace Directory

/-- The bytes of the file with a name. -/
def file? (d : Directory) (name : Text) : Option ByteArray :=
  d.lookup name

/-- The files with `bytes` under `name`, in place of what was there. -/
def insert (name : Text) (bytes : ByteArray) : Directory → Directory
  | [] => [(name, bytes)]
  | file :: files =>
    if file.1 = name then (name, bytes) :: files else file :: insert name bytes files

/-- A directory as a system, with a standard input beside it. -/
def system (stdin : ByteArray) : System (StateM Directory) where
  read
    | .stdin => return .ok stdin
    | .file path => return ((← get).file? path).elim (.error .notFound) .ok
  write path bytes := do
    modify (insert path bytes)
    return .ok ()

end Directory

/-- A run of the program in a directory: its report, and the directory after it. -/
def run (args : List Text) (stdin : ByteArray) (d : Directory) : Report × Directory :=
  ((Directory.system stdin).run readArguments args).run d

end Rebrace.CommandLine
