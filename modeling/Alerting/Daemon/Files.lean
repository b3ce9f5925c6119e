import Alerting.Daemon.RulesFile
import Alerting.Daemon.Settings

/-!
# Files of the daemon

The daemon reads its settings and rules from files, and writes settings for a start. It works on
any files that can be read, written and put into folders, so the same code serves the disk and a
folder in memory.
-/

namespace Alerting

namespace Daemon

inductive FileError where
  | missing
  | taken
  | notFolder
  | isFolder
  | refused
  | tooLong
  | hasNul
  | other (reason : String)
deriving DecidableEq, Repr

def FileError.message : FileError → String
  | missing => "No such file or directory (os error 2)"
  | taken => "File exists (os error 17)"
  | notFolder => "Not a directory (os error 20)"
  | isFolder => "Is a directory (os error 21)"
  | refused => "Permission denied (os error 13)"
  | tooLong => "File name too long (os error 36)"
  | hasNul => "file name contained an unexpected NUL byte"
  | other reason => reason

class Files (m : Type → Type) where
  read : String → m (Except FileError String)
  write : String → String → m (Except FileError Unit)
  makeFolder : String → m (Except FileError Unit)
  isFolder : String → m Bool

def isName (part : String) : Bool := part != "" && part != "."

def foldersOnWay (path : String) : List String :=
  let parts := path.splitOn "/"
  let ways := (List.range parts.length).map fun count => parts.take (count + 1)
  let named := ways.filter fun way => way.getLast?.any isName
  (named.dropLast.map "/".intercalate).reverse

section

variable {m : Type → Type} [Monad m] [Files m]

/-- Makes the first of some folders, each of which lies in the next one, and those of the others
that are missing. -/
def makeFolders : List String → m (Except FileError Unit)
  | [] => pure (.ok ())
  | path :: around => do
      let unlessFolder (error : FileError) : m (Except FileError Unit) := do
        if ← Files.isFolder path then pure (.ok ()) else pure (.error error)
      match ← Files.makeFolder path with
      | .ok _ => pure (.ok ())
      | .error .missing =>
          match ← makeFolders around with
          | .error error => pure (.error error)
          | .ok _ =>
              match ← Files.makeFolder path with
              | .ok _ => pure (.ok ())
              | .error error => unlessFolder error
      | .error error => unlessFolder error

def readSettings (path : String) : m (Except Fault Settings) := do
  match ← Files.read path with
  | .ok text => pure (Settings.parse text)
  | .error error =>
      pure (.error (.settings
        ("failed to read config file '" ++ path ++ "': " ++ error.message)))

def readRules (path : String) : m (Except Fault (List Rule)) := do
  match ← Files.read path with
  | .ok text => pure (parseRules text)
  | .error error =>
      pure (.error (.rulesFile ("failed to read '" ++ path ++ "': " ++ error.message)))

def saveSettings (settings : Settings) (path : String) : m (Except Fault Unit) := do
  match ← makeFolders (foldersOnWay path) with
  | .error error => pure (.error (.io error.message))
  | .ok _ =>
      match ← Files.write path settings.toJson.pretty with
      | .ok _ => pure (.ok ())
      | .error error => pure (.error (.io error.message))

end

end Daemon

end Alerting
