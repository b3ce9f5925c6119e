import Alerting.Daemon.CommandLine

/-!
# The program

The command line on the files of the disk. Commands that fail report why and exit with 1; a command
line that is refused exits with 2.
-/

namespace Alerting

namespace Daemon

def FileError.ofSystem : IO.Error → FileError
  | .noFileOrDirectory .. => .missing
  | .alreadyExists .. => .taken
  | .permissionDenied .. => .refused
  | .inappropriateType _ code _ => if code = 21 then .isFolder else .notFolder
  | .invalidArgument _ 36 _ => .tooLong
  | error => .other (toString error)

def onDisk {A : Type} (operation : IO A) : BaseIO (Except FileError A) := do
  match ← operation.toBaseIO with
  | .ok result => return .ok result
  | .error error => return .error (.ofSystem error)

instance : Files BaseIO where
  read path := onDisk (IO.FS.readFile path)
  write path text := onDisk (IO.FS.writeFile path text)
  makeFolder path := onDisk (IO.FS.createDir path)
  isFolder path := return (← onDisk (IO.FS.readFile path)) matches .error .isFolder

end Daemon

end Alerting

open Alerting.Daemon in
def main (arguments : List String) : IO UInt32 := do
  match ← (execute arguments : BaseIO Report) with
  | .done output =>
      IO.print output
      return 0
  | .failed fault =>
      IO.eprintln ("Error: " ++ fault.message)
      return 1
  | .misused =>
      IO.eprint Command.helpText
      return 2
