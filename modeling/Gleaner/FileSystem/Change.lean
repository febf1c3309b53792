import Gleaner.FileSystem.Locate

/-!
# Changing files

Writing a file, adding to one, and making directories. Each operation gives the new file system; one
that fails changes nothing, except that directories made on the way to one that cannot be made stay.
-/

namespace Gleaner

open Gleaner.Utf8 (Bytes)

/-- Put an entry at components from a directory down; where no directory is, nothing changes. -/
def Entries.putAt (entry : Entry) : List Text → Entries → Entries
  | [], entries => entries
  | [name], entries => entries.put name entry
  | name :: rest, entries =>
    entries.map fun (n, e) =>
      match e with
      | .directory inner =>
        if n = name then (n, .directory (Entries.putAt entry rest inner)) else (n, e)
      | _ => (n, e)

/-- Take the entry at components out of a directory. -/
def Entries.removeAt : List Text → Entries → Entries
  | [], entries => entries
  | [name], entries => entries.filter (·.1 ≠ name)
  | name :: rest, entries =>
    entries.map fun (n, e) =>
      match e with
      | .directory inner => if n = name then (n, .directory (Entries.removeAt rest inner)) else (n, e)
      | _ => (n, e)

namespace FileSystem

/-- The file system with an entry put at components. -/
def putAt (fs : FileSystem) (components : List Text) (entry : Entry) : FileSystem :=
  { fs with entries := Entries.putAt entry components fs.entries }

/-- Where a path leads, for an operation that changes something there. -/
def reach (fs : FileSystem) (follow : Bool) (path : Text) : Except AccessError Place :=
  match pathFault? path with
  | some fault => .error (.path fault)
  | none => (fs.locate follow path).mapError fun cause => .os ⟨cause, path⟩

/-- Write a file with a content made from the one before, which is empty for a new file. -/
def modify (fs : FileSystem) (path : Text) (change : Bytes → Bytes) : Except AccessError FileSystem :=
  match fs.reach true path with
  | .error e => .error e
  | .ok place =>
    if place.slashed then .error (.os ⟨.isDirectory, path⟩)
    else
      match place.entry with
      | some (.file bytes) => .ok (fs.putAt place.components (.file (change bytes)))
      | some _ => .error (.os ⟨.isDirectory, path⟩)
      | none => .ok (fs.putAt place.components (.file (change [])))

/-- Write a file. -/
def write (fs : FileSystem) (path : Text) (bytes : Bytes) : Except AccessError FileSystem :=
  fs.modify path fun _ => bytes

/-- Add to the end of a file. -/
def append (fs : FileSystem) (path : Text) (bytes : Bytes) : Except AccessError FileSystem :=
  fs.modify path (· ++ bytes)

/-- Make a directory. -/
def makeDirectory (fs : FileSystem) (path : Text) : Except AccessError FileSystem :=
  match fs.reach false path with
  | .error e => .error e
  | .ok place =>
    match place.entry with
    | some _ => .error (.os ⟨.alreadyThere, path⟩)
    | none => .ok (fs.putAt place.components (.directory []))

/-- Take a file away, if it is there. -/
def remove (fs : FileSystem) (path : Text) : FileSystem :=
  match fs.locate false path with
  | .error _ => fs
  | .ok place => { fs with entries := Entries.removeAt place.components fs.entries }

/-- A path divided before its last name, slashes at its end left out. -/
def splitName (path : Text) : Text × Text :=
  let name := Path.baseName path
  if name.isEmpty then
    let head := Path.parent path
    (Path.parent head, Path.baseName head)
  else (Path.parent path, name)

/-- Whether a failure says that something is there already. -/
def saysPresent : AccessError → Bool
  | .os e => e.cause = .alreadyThere
  | .path _ => false

/-- Make one directory; it is no failure if it is there. -/
def makeLast (fs : FileSystem) (path : Text) : FileSystem × Option AccessError :=
  match fs.makeDirectory path with
  | .ok next => (next, none)
  | .error (.os e) => if fs.isDirectory path then (fs, none) else (fs, some (.os e))
  | .error (.path e) => (fs, some (.path e))

/-- Make a directory with all those above it. Gives the file system even on failure, since some of the
directories may have been made. A directory above that turns out to exist by now is no failure. -/
def makeDirectoriesFrom : (depth : Nat) → FileSystem → Text → FileSystem × Option AccessError
  | 0, fs, path => fs.makeLast path
  | depth + 1, fs, path =>
    let (head, tail) := splitName path
    if head.isEmpty || tail.isEmpty || fs.exists? head then fs.makeLast path
    else
      match makeDirectoriesFrom depth fs head with
      | (next, some e) =>
        if saysPresent e then if tail = "." then (next, none) else next.makeLast path
        else (next, some e)
      | (next, none) => if tail = "." then (next, none) else next.makeLast path

/-- Make a directory with all those above it. -/
def makeDirectories (fs : FileSystem) (path : Text) : FileSystem × Option AccessError :=
  makeDirectoriesFrom path.length fs path

end FileSystem

end Gleaner
