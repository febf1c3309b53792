import Gleaner.FileSystem.Basic

/-!
# Finding entries by path

A path is followed from the root or the working directory, component by component. Links on the way are
always followed, a link at the end only on request, and at most forty links in all. Everything before
the last component has to be a directory, and so has what a slash follows.

Main definitions: `locate`, which says where a path leads even if nothing is there yet, and the
questions `exists`, `isFile`, `isDirectory` and `read`.
-/

namespace Gleaner

open Gleaner.Utf8 (Bytes)

/-- Where a path leads: the components from the root, without links, and what is there. -/
structure Place where
  components : List Text
  entry : Option Entry
  /-- Whether slashes follow the name of a file, or a name that is not there. -/
  slashed : Bool := false

/-- The directories that a walk is inside of, innermost first, the root left out. -/
abbrev Trail := List (Text × Entries)

/-- The entries of the innermost directory. -/
def Trail.here (root : Entries) : Trail → Entries
  | [] => root
  | (_, entries) :: _ => entries

/-- The components of the innermost directory. -/
def Trail.components (trail : Trail) : List Text :=
  (trail.map Prod.fst).reverse

/-- The place of the innermost directory. -/
def Trail.place (root : Entries) (trail : Trail) : Place :=
  ⟨trail.components, some (.directory (trail.here root)), false⟩

/-- Follow the pieces of a path from a directory; `links` is how many links may still be followed. -/
def locateFrom (root : Entries) (follow : Bool) (links : Nat) (trail : Trail) :
    List Text → Except OsCause Place
  | [] => .ok (trail.place root)
  | piece :: rest =>
    if piece = "" || piece = "." then locateFrom root follow links trail rest
    else if piece = ".." then locateFrom root follow links (trail.drop 1) rest
    else
      match (trail.here root).get? piece with
      | none =>
        if rest.all (· = "") then .ok ⟨trail.components ++ [piece], none, !rest.isEmpty⟩
        else .error .missing
      | some (.directory entries) => locateFrom root follow links ((piece, entries) :: trail) rest
      | some (.file bytes) =>
        if rest.all (· = "") then
          .ok ⟨trail.components ++ [piece], some (.file bytes), !rest.isEmpty⟩
        else .error .notDirectory
      | some (.link target) =>
        if rest.isEmpty && !follow then .ok ⟨trail.components ++ [piece], some (.link target), false⟩
        else
          match links with
          | 0 => .error .tooManyLinks
          | links + 1 =>
            locateFrom root follow links (if Path.isAbsolute target then [] else trail)
              (Path.pieces target ++ rest)
termination_by pieces => (links, pieces.length)

/-- How many links may be followed. -/
def maxLinks : Nat := 40

namespace FileSystem

/-- Where a path leads; a link at its end is followed on request. -/
def locate (fs : FileSystem) (follow : Bool) (path : Text) : Except OsCause Place :=
  if path.isEmpty then .error .missing
  else locateFrom fs.entries follow maxLinks [] (Path.pieces (Path.append fs.cwd path))

/-- What is at a path, links followed. No slash may follow a file. -/
def entry (fs : FileSystem) (path : Text) : Except OsCause Entry := do
  let place ← fs.locate true path
  match place.entry with
  | none => .error .missing
  | some entry => if place.slashed then .error .notDirectory else .ok entry

/-- Whether something is at a path. -/
def exists? (fs : FileSystem) (path : Text) : Bool :=
  (fs.entry path).toBool

/-- Whether a file is at a path. -/
def isFile (fs : FileSystem) (path : Text) : Bool :=
  match fs.entry path with
  | .ok entry => entry.isFile
  | .error _ => false

/-- Whether a directory is at a path. -/
def isDirectory (fs : FileSystem) (path : Text) : Bool :=
  match fs.entry path with
  | .ok entry => entry.isDirectory
  | .error _ => false

/-- The bytes of the file at a path. -/
def read (fs : FileSystem) (path : Text) : Except OsError Bytes :=
  match fs.entry path with
  | .error cause => .error ⟨cause, path⟩
  | .ok (.file bytes) => .ok bytes
  | .ok _ => .error ⟨.isDirectory, path⟩

/-- The bytes of the file that a path leads to; the file may refuse to be opened, by its absolute name. -/
def readFile (fs : FileSystem) (path : Text) : Except OsError Bytes := do
  let bytes ← fs.read path
  if fs.unreadable.contains (Path.absolute fs.cwd path) then throw ⟨.denied, path⟩
  return bytes

/-- The bytes of a source file; the file may refuse to be opened by its name. -/
def readSource (fs : FileSystem) (path : Text) : Except OsError Bytes :=
  if fs.unreadable.contains path then .error ⟨.denied, path⟩ else fs.read path

end FileSystem

end Gleaner
