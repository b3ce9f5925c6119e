import Alerting.Daemon.Files

/-!
# A folder in memory

Files and folders that exist only in memory, in a working folder, around it and below the root. They
behave as those on a disk do.
-/

namespace Alerting

namespace Daemon

inductive Entry where
  | file (text : String)
  | folder (entries : List (String × Entry))

abbrev Entries := List (String × Entry)

namespace Entries

def put (entries : Entries) (entry : Entry) : List String → Entries
  | [] => entries
  | name :: rest =>
      let others := entries.filter fun old => old.1 != name
      match rest, entries.lookup name with
      | [], _ => (name, entry) :: others
      | _ :: _, some (.folder inner) => (name, .folder (put inner entry rest)) :: others
      | _ :: _, _ => entries

end Entries

/-- A folder that paths can begin at: the root, or one a number of levels above the working
folder. -/
inductive Origin where
  | root
  | above (levels : Nat)
deriving DecidableEq, Repr

structure Spot where
  origin : Origin
  trail : List (String × Entries) := []

/-- A path taken apart: the folder at which it begins, the names on it, dots among them, and whether
it ends in a slash. -/
structure Path where
  start : Origin
  names : List String
  slash : Bool
deriving DecidableEq, Repr

namespace Path

def parse (text : String) : Path :=
  { start := if text.toList.head? = some '/' then .root else .above 0
    names := (text.splitOn "/").filter (· != "")
    slash := text.toList.getLast? == some '/' }

end Path

inductive Target where
  | folder
  /-- To a name in a folder, which need not exist. After a slash it has to be a folder. -/
  | entry (spot : Spot) (name : String) (slash : Bool)

structure Folder where
  contents : List (Origin × Entries) := []

namespace Folder

def maxNameLength : Nat := 255

def maxPathLength : Nat := 4095

def entriesAt (folder : Folder) (origin : Origin) : Entries :=
  (folder.contents.lookup origin).getD []

def look (folder : Folder) (spot : Spot) (name : String) : Except FileError (Option Entry) :=
  if maxNameLength < name.utf8ByteSize then .error .tooLong
  else
    match spot.trail with
    | (_, entries) :: _ => .ok (entries.lookup name)
    | [] => .ok ((folder.entriesAt spot.origin).lookup name)

def outward (spot : Spot) : Spot :=
  match spot.trail, spot.origin with
  | _ :: trail, origin => ⟨origin, trail⟩
  | [], .root => spot
  | [], .above levels => ⟨.above (levels + 1), []⟩

def follow (folder : Folder) (spot : Spot) : List String → Except FileError Spot
  | [] => .ok spot
  | "." :: rest => folder.follow spot rest
  | ".." :: rest => folder.follow (outward spot) rest
  | name :: rest => do
      match ← folder.look spot name with
      | some (.folder entries) =>
          folder.follow { spot with trail := (name, entries) :: spot.trail } rest
      | some (.file _) => .error .notFolder
      | none => .error .missing

def resolve (folder : Folder) (text : String) : Except FileError Target :=
  let path := Path.parse text
  if text.toList.contains '\x00' then .error .hasNul
  else if text.isEmpty then .error .missing
  else if maxPathLength < text.utf8ByteSize then .error .tooLong
  else
    match path.names.getLast? with
    | none | some "." | some ".." => do
        let _ ← folder.follow ⟨path.start, []⟩ path.names
        return .folder
    | some name =>
        return .entry (← folder.follow ⟨path.start, []⟩ path.names.dropLast) name path.slash

def put (folder : Folder) (spot : Spot) (name : String) (entry : Entry) : Folder :=
  let names := spot.trail.foldl (fun names passed => passed.1 :: names) [name]
  let entries := (folder.entriesAt spot.origin).put entry names
  ⟨(spot.origin, entries) :: folder.contents.filter fun old => old.1 != spot.origin⟩

def read (folder : Folder) (text : String) : Except FileError String := do
  match ← folder.resolve text with
  | .folder => .error .isFolder
  | .entry spot name slash =>
      match ← folder.look spot name with
      | none => .error .missing
      | some (.folder _) => .error .isFolder
      | some (.file content) => if slash then .error .notFolder else .ok content

def write (folder : Folder) (text content : String) : Except FileError Folder := do
  match ← folder.resolve text with
  | .folder | .entry _ _ true => .error .isFolder
  | .entry spot name false =>
      match ← folder.look spot name with
      | some (.folder _) => .error .isFolder
      | _ => .ok (folder.put spot name (.file content))

def makeFolder (folder : Folder) (text : String) : Except FileError Folder := do
  match ← folder.resolve text with
  | .folder => .error .taken
  | .entry spot name _ =>
      match ← folder.look spot name with
      | some _ => .error .taken
      | none => .ok (folder.put spot name (.folder []))

def isFolder (folder : Folder) (text : String) : Bool :=
  match folder.resolve text with
  | .ok .folder => true
  | .ok (.entry spot name _) =>
      match folder.look spot name with
      | .ok (some (.folder _)) => true
      | _ => false
  | .error _ => false

instance : Files (StateM Folder) where
  read text := do return (← get).read text
  write text content := do
    match (← get).write text content with
    | .ok folder => set folder; return .ok ()
    | .error error => return .error error
  makeFolder text := do
    match (← get).makeFolder text with
    | .ok folder => set folder; return .ok ()
    | .error error => return .error error
  isFolder text := do return (← get).isFolder text

def ofFiles (files : List (String × String)) : Folder :=
  let create (folder : Folder) (file : String × String) : Folder :=
    let work : StateM Folder (Except FileError Unit) := do
      let _ ← makeFolders (foldersOnWay file.1)
      Files.write file.1 file.2
    (work.run folder).2
  files.foldl create {}

end Folder

end Daemon

end Alerting
