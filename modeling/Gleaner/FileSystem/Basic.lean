import Gleaner.Path
import Gleaner.Text.Quoted
import Gleaner.Text.Utf8

/-!
# File systems

A file system is a value: a tree of directories, files and symbolic links, and a working directory. Two
lists of absolute names say which files refuse to be read, and which directories refuse to be listed and
why.

Names and paths are texts. A byte of a name that is part of no character stands there as the surrogate from
U+DC80 on that has its number; a name has one text in this way. Any other surrogate, and a null character,
can be in no name: a path with one of them is refused before anything is looked up.

Main definitions: `Entry`, `FileSystem`, `OsCause`, `OsError`, `pathFault?` and `AccessError`.
-/

namespace Gleaner

open Gleaner.Utf8 (Bytes)

/-- What a name in a directory stands for. -/
inductive Entry where
  | file (bytes : Bytes)
  | directory (entries : List (Text × Entry))
  | link (target : Text)
deriving Repr, Inhabited

/-- The names in a directory, in no particular order. -/
abbrev Entries := List (Text × Entry)

/-- Whether an entry is a directory itself, not a link to one. -/
def Entry.isDirectory : Entry → Bool
  | .directory _ => true
  | _ => false

/-- Whether an entry is a file itself, not a link to one. -/
def Entry.isFile : Entry → Bool
  | .file _ => true
  | _ => false

/-- The entry with a name. -/
def Entries.get? (entries : Entries) (name : Text) : Option Entry :=
  (List.find? (fun entry => entry.1 = name) entries).map Prod.snd

/-- Put an entry under a name, in its place if the name is there. -/
def Entries.put (name : Text) (entry : Entry) : Entries → Entries
  | [] => [(name, entry)]
  | (n, e) :: rest => if n = name then (n, entry) :: rest else (n, e) :: Entries.put name entry rest

/-- Why an operation on files fails. -/
inductive OsCause where
  | missing
  | denied
  | alreadyThere
  | notDirectory
  | isDirectory
  | tooManyLinks
deriving DecidableEq, Repr

/-- The number of a cause. -/
def OsCause.number : OsCause → Nat
  | .missing => 2
  | .denied => 13
  | .alreadyThere => 17
  | .notDirectory => 20
  | .isDirectory => 21
  | .tooManyLinks => 40

/-- The wording of a cause. -/
def OsCause.text : OsCause → String
  | .missing => "No such file or directory"
  | .denied => "Permission denied"
  | .alreadyThere => "File exists"
  | .notDirectory => "Not a directory"
  | .isDirectory => "Is a directory"
  | .tooManyLinks => "Too many levels of symbolic links"

/-- A tree of files as seen from its root, with a working directory. -/
structure FileSystem where
  entries : Entries := []
  cwd : Text := "/"
  unreadable : List Text := []
  unlistable : List (Text × OsCause) := []

/-- Why the directory at an absolute path cannot be listed, if it cannot. -/
def FileSystem.listingCause? (fs : FileSystem) (path : Text) : Option OsCause :=
  fs.unlistable.lookup path

/-- A failed operation on a path, as the path was given. -/
structure OsError where
  cause : OsCause
  path : Text
deriving DecidableEq, Repr

/-- The wording of a failure. -/
def OsError.message (e : OsError) : String :=
  s!"[Errno {e.cause.number}] {e.cause.text}: {Text.quoted e.path}"

/-- Why a path cannot be handed to the system at all. -/
inductive PathFault where
  | unencodable (cause : Unencodable)
  | embeddedNull
deriving DecidableEq, Repr

/-- The wording of a fault. -/
def PathFault.message : PathFault → String
  | .unencodable e => e.message
  | .embeddedNull => "embedded null byte"

/-- Whether a surrogate stands for a byte. -/
def standsForByte (surrogate : Fin 0x800) : Bool :=
  0x480 ≤ surrogate && surrogate < 0x500

/-- What is wrong with a path before anything is looked up. -/
def pathFault? (path : Text) : Option PathFault :=
  match path.refused? standsForByte with
  | some e => some (.unencodable e)
  | none => if path.toList.contains (.char '\x00') then some .embeddedNull else none

/-- Why a file cannot be written or a directory made: the system fails, or cannot be asked. -/
inductive AccessError where
  | os (cause : OsError)
  | path (cause : PathFault)
deriving DecidableEq, Repr

/-- The wording of a failure. -/
def AccessError.message : AccessError → String
  | .os e => e.message
  | .path e => e.message

end Gleaner
