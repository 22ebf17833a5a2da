import ReverseTunnel.Bytes
import ReverseTunnel.Disk.Path

/-!
Files and folders, and the few things that are done with them.

Paths start from a working folder, or from the root if a slash begins them. The
folders above the working folder hold nothing else. Every name of a path but the last
has to be that of a folder.
-/

namespace ReverseTunnel.Disk

/-- What stands at a place. -/
inductive Entry where
  | file (content : Bytes)
  | folder
  deriving DecidableEq, Repr

/-- Where an entry is: the names that lead to it from the working folder. -/
abbrev Place := List String

structure Folders where
  entries : List (Place × Entry) := []
  deriving DecidableEq, Repr

/-- Why something cannot be done. -/
inductive Fault where
  /-- There is nothing at the path. -/
  | missing
  /-- There is something else than is needed, or the path is no path. -/
  | refused
  deriving DecidableEq, Repr

def root : Place := ["/"]

/-- The longest name, and one more than the longest path, in bytes. -/
def nameLimit : Nat := 255
def pathLimit : Nat := 4096

namespace Folders

/-- Whether a place is the working folder or one above it. -/
def isAbove (place : Place) : Bool := place.all (· = "..")

def entry? (d : Folders) (place : Place) : Option Entry :=
  if isAbove place || place = root then some .folder else d.entries.lookup place

/-- The place of the folder around a folder. -/
def outside (place : Place) : Place :=
  if isAbove place then place ++ [".."]
  else if place = root then root
  else place.dropLast

/-- Goes along names from a place, without looking at what is there in the end. -/
def follow (d : Folders) : Place → List String → Except Fault Place
  | place, [] => .ok place
  | place, name :: rest =>
    -- each place on the way has to be a folder, but not the one it ends at
    match d.entry? place with
    | none => .error .missing
    | some (.file _) => .error .refused
    | some .folder =>
      if name = "" || name = "." then d.follow place rest
      else if name = ".." then d.follow (outside place) rest
      else if nameLimit < name.utf8ByteSize then .error .refused
      else d.follow (place ++ [name]) rest

/-- Whether a text can be a path at all. -/
def isPath (path : String) : Bool :=
  path.utf8ByteSize < pathLimit && !path.toList.contains '\x00'

/-- The place where a path starts. -/
def origin (path : String) : Place := if path.toList.head? = some '/' then root else []

/-- The place that a path leads to, whether or not there is something. -/
def place (d : Folders) (path : String) : Except Fault Place :=
  if path = "" then .error .missing
  else if !isPath path then .error .refused
  else d.follow (origin path) (Path.names path)

/-- What a path leads to. -/
def find (d : Folders) (path : String) : Except Fault Entry := do
  match d.entry? (← d.place path) with
  | some e => return e
  | none => throw .missing

/-- Whether a path leads to a folder. -/
def isFolder (d : Folders) (path : String) : Bool :=
  match d.find path with
  | .ok .folder => true
  | _ => false

/-- Whether a path leads to a file. -/
def isFile (d : Folders) (path : String) : Bool :=
  match d.find path with
  | .ok (.file _) => true
  | _ => false

/-- The content of the file that a path leads to. -/
def read (d : Folders) (path : String) : Except Fault Bytes := do
  match ← d.find path with
  | .file content => return content
  | .folder => throw .refused

def insert (place : Place) (e : Entry) (d : Folders) : Folders :=
  { entries := d.entries ++ [(place, e)] }

/-- The place of something new, where there has to be nothing yet. The last name of
the path has to be a name. -/
def newPlace (d : Folders) (path : String) : Except Fault Place := do
  let place ← d.place path
  if place.getLast? ≠ (Path.names path).getLast? then throw .refused
  if (d.entry? place).isSome then throw .refused
  return place

def create (path : String) (content : Bytes) (d : Folders) : Except Fault Folders := do
  return d.insert (← d.newPlace path) (.file content)

def makeFolder (path : String) (d : Folders) : Except Fault Folders := do
  return d.insert (← d.newPlace (Path.trimmed path)) .folder

/-- Makes a folder and those around it that are missing, along at most a number of
names. Those that were made stay even if another one cannot be. -/
def makeFolders : Nat → String → Folders → Folders × Option Fault
  | 0, _, d => (d, some .refused)
  | depth + 1, path, d =>
    let settle (d : Folders) (fault : Fault) : Folders × Option Fault :=
      (d, if d.isFolder path then none else some fault)
    if path = "" then (d, none)
    else
      match d.makeFolder path with
      | .ok d => (d, none)
      | .error .refused => settle d .refused
      | .error .missing =>
        match Path.parent? path with
        | none => (d, some .missing)
        | some parent =>
          match makeFolders depth parent d with
          | (d, some fault) => (d, some fault)
          | (d, none) =>
            match d.makeFolder path with
            | .ok d => (d, none)
            | .error fault => settle d fault

/-- Makes the folder of a path with those around it. -/
def makeAll (path : String) (d : Folders) : Folders × Option Fault :=
  makeFolders (path.length + 1) path d

/-- Makes sure of a file that something can be written to behind its content. -/
def openFile (path : String) (d : Folders) : Except Fault Folders :=
  match d.find path with
  | .ok (.file _) => .ok d
  | .ok .folder => .error .refused
  | .error .missing => d.create path []
  | .error .refused => .error .refused

/-- The names in the working folder, in order. -/
def top (d : Folders) : List String :=
  let names := (d.entries.filterMap fun (place, _) =>
    match place with
    | [name] => if name = "/" then none else some name
    | _ => none)
  names.mergeSort (· ≤ ·)

end Folders

end ReverseTunnel.Disk
