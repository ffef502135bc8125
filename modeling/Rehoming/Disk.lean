import Rehoming.Host

/-! A model of a machine's files. Names are looked up part by part, each directory
must be there, and where the last name is a file nothing may follow. Any operation
may also fail for reasons of the machine's own, now and then or always. -/

namespace Rehoming

/-- The names on the way from the root. -/
abbrev Location := List String

inductive DiskEntry where
  | file (content : Bytes)
  | directory
  deriving DecidableEq

structure Disk where
  entries : List (Location × DiskEntry)
  working : Location
  deriving DecidableEq

namespace Disk

def entry? (d : Disk) (location : Location) : Option DiskEntry :=
  if location.isEmpty then some .directory else d.entries.lookup location

/-- The longest name that a directory can hold, and the longest path. -/
def maxName : Nat := 255
def maxPath : Nat := 4095

/-- Follows names from a location, which is that of a directory. -/
def walk (d : Disk) : Location → List String → Except OsError (Location × DiskEntry)
  | here, [] => .ok (here, .directory)
  | here, name :: rest =>
    if name = "" ∨ name = "." then d.walk here rest
    else if name = ".." then d.walk here.dropLast rest
    else if maxName < name.utf8ByteSize then .error .nameTooLong
    else
      match d.entry? (here ++ [name]) with
      | none => .error .notFound
      | some .directory => d.walk (here ++ [name]) rest
      | some (.file content) =>
        if rest.isEmpty then .ok (here ++ [name], .file content) else .error .notDirectory

/-- Where following a path begins, and the names on it. -/
def start (d : Disk) (path : FilePath) : Except OsError (Location × List String) :=
  if path.text.toList.contains '\x00' then .error .invalidName
  else if path.text.isEmpty then .error .notFound
  else if maxPath < path.text.utf8ByteSize then .error .nameTooLong
  else .ok (if path.isAbsolute then [] else d.working, path.parts.map String.ofList)

/-- What a path leads to. -/
def resolve (d : Disk) (path : FilePath) : Except OsError (Location × DiskEntry) := do
  let (here, names) ← d.start path
  d.walk here names

def fileExists (d : Disk) (path : FilePath) : Bool := (d.resolve path).toOption.isSome

def read (d : Disk) (path : FilePath) : Except OsError Bytes := do
  match ← d.resolve path with
  | (_, .file content) => return content
  | (_, .directory) => throw .isDirectory

/-- The content of the file at a path, if there is one. -/
def content? (d : Disk) (path : FilePath) : Option Bytes := (d.read path).toOption

/-- The location that a file of this name gets. Behind the name of a file no slash
may stand. -/
def place (d : Disk) (path : FilePath) : Except OsError Location := do
  let (here, names) ← d.start path
  let names' := (names.reverse.dropWhile (· == "")).reverse
  let name := names'.getLastD "."
  let (here, entry) ← d.walk here (names'.dropLast)
  if entry ≠ .directory then throw .notDirectory
  if name = "." ∨ name = ".." then throw .busy
  if maxName < name.utf8ByteSize then throw .nameTooLong
  if names'.length < names.length then throw .notDirectory
  if d.entry? (here ++ [name]) = some .directory then throw .isDirectory
  return here ++ [name]

def remove (d : Disk) (location : Location) : Disk :=
  { d with entries := d.entries.filter fun e => e.1 ≠ location }

def put (d : Disk) (location : Location) (entry : DiskEntry) : Disk :=
  { d with entries := (location, entry) :: (d.remove location).entries }

/-- A name longer than any there is. -/
def freshName (d : Disk) : String :=
  let longest := (d.entries.map fun e => (String.join e.1).length).foldl max 0
  String.ofList (".tmp".toList ++ List.replicate longest 'x')

/-- A new file in a directory. -/
def createTemp (d : Disk) (directory : FilePath) : Except OsError (Location × Disk) := do
  let (here, entry) ← d.resolve directory
  if entry ≠ .directory then throw .notDirectory
  let location := here ++ [d.freshName]
  return (location, d.put location (.file []))

/-- The content of the file at a location; nothing, if there is none. -/
def contentAt (d : Disk) (location : Location) : Bytes :=
  match d.entry? location with
  | some (.file content) => content
  | _ => []

/-- The names in the directory at a location, in order. -/
def list (d : Disk) (location : Location) : List String :=
  (d.entries.filterMap fun e =>
    if e.1.dropLast = location ∧ ¬e.1.isEmpty then e.1.getLast? else none).mergeSort

end Disk

/-- An operation that can fail. -/
inductive Operation where
  | read (path : FilePath)
  | createTemp (directory : FilePath)
  | append
  | sync
  | persist (path : FilePath)
  | discard
  | print
  | flush
  deriving DecidableEq

/-- A machine: its files, what has been reported and printed, and the failures that
come of its own. -/
structure Machine where
  disk : Disk
  reports : List (LogFormat × Event)
  printed : String
  /-- How many operations that can fail there have been. -/
  attempts : Nat
  /-- What the attempt of this number fails with, if it is at such an operation. -/
  trouble : Nat → Operation → Option OsError

namespace Machine

variable {α : Type}

/-- After one more attempt. -/
def later (w : Machine) : Machine := { w with attempts := w.attempts + 1 }

/-- An operation that trouble may keep from taking place. -/
def attempt (operation : Operation)
    (act : Machine → Except OsError α × Machine) : StateM Machine (Except OsError α) :=
  fun w =>
    match w.trouble w.attempts operation with
    | some e => (.error e, w.later)
    | none =>
      let (result, w') := act w
      (result, w'.later)

def host : Host (StateM Machine) Location where
  fileExists path := fun w => (w.disk.fileExists path, w)
  read path := attempt (.read path) fun w => (w.disk.read path, w)
  createTemp directory := attempt (.createTemp directory) fun w =>
    match w.disk.createTemp directory with
    | .ok (location, disk) => (.ok location, { w with disk })
    | .error e => (.error e, w)
  append temp bytes := attempt .append fun w =>
    (.ok (), { w with disk := w.disk.put temp (.file (w.disk.contentAt temp ++ bytes)) })
  sync _ := attempt .sync fun w => (.ok (), w)
  persist temp path := attempt (.persist path) fun w =>
    match w.disk.place path with
    | .ok location =>
      (.ok (), { w with disk := (w.disk.remove temp).put location (.file (w.disk.contentAt temp)) })
    | .error e => (.error e, w)
  discard temp := do
    let _ ← attempt .discard fun w => (.ok (), { w with disk := w.disk.remove temp })
  report format event := fun w => ((), { w with reports := w.reports ++ [(format, event)] })
  print text := attempt .print fun w => (.ok (), { w with printed := w.printed ++ text })
  flush := attempt .flush fun w => (.ok (), w)

end Machine
end Rehoming
