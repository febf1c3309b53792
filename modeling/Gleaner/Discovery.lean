import Gleaner.Diagnostic
import Gleaner.FileSystem.Locate
import Gleaner.Log.Record
import Gleaner.Settings

/-!
# Discovering source files

A walk through a directory meets its files in the order of their names, and then, in the order of their
names, its subdirectories with all that is in them. Links to files count as files; links to directories
are not entered. A subdirectory that cannot be listed is noted and the walk goes on. It goes down as deep as
the directories do; that a tree could be too deep for a walk is not part of the picture.

Directories with an excluded segment in their path are not entered, and of the files that are met those
with an excluded segment or without a known ending are left out.

Main definitions: `sightings`, `Settings.takes`, `discoverAt` and `discover`.
-/

namespace Gleaner

/-- Whether a file takes part, by its path from the root and its name. -/
def Settings.takes (s : Settings) (relative name : Text) : Bool :=
  !Path.isExcluded s.excludedSegments relative && (s.kindFor? name).isSome

/-- Whether a file takes part. -/
def Settings.includes (s : Settings) (cwd root path : Text) : Except Path.PathError Bool := do
  let relative ← Path.relativeTo cwd root path
  return s.takes relative (Path.baseName path)

/-- Whether a directory is entered, by its path from the root. -/
def Settings.enters (s : Settings) (relative : Text) : Bool :=
  !Path.isExcluded s.excludedSegments (relative ++ "/")

/-- What a walk meets. -/
inductive Sighting where
  | file (path : Text)
  | unlistable (failure : OsError)
deriving DecidableEq, Repr

/-- The path of a file that was met. -/
def Sighting.file? : Sighting → Option Text
  | .file path => some path
  | .unlistable _ => none

/-- The failure to list a directory that was met. -/
def Sighting.unlistable? : Sighting → Option OsError
  | .file _ => none
  | .unlistable failure => some failure

/-- The order of names, by code point. -/
def nameOrder {α : Type} (a b : Text × α) : Bool :=
  decide (a.1 ≤ b.1)

/-- Whether an entry counts as a file; a link does if it leads to one. -/
def FileSystem.showsFile (fs : FileSystem) (path : Text) : Entry → Bool
  | .file _ => true
  | .link _ => fs.isFile path
  | .directory _ => false

/-- The files right in a directory, by name. -/
def FileSystem.filesIn (fs : FileSystem) (path : Text) (entries : Entries) : List Sighting :=
  let files := entries.filter fun (name, entry) => fs.showsFile (Path.append path name) entry
  (files.mergeSort nameOrder).map fun (name, _) => .file (Path.append path name)

mutual

/-- What a walk meets at a path: nothing unless a directory is there. -/
def sightings (fs : FileSystem) (enters : Text → Bool) (path : Text) : Entry → List Sighting
  | .file _ => []
  | .link _ => []
  | .directory entries =>
    match fs.listingCause? path with
    | some cause => [.unlistable ⟨cause, path⟩]
    | none =>
      fs.filesIn path entries ++
        ((branches fs enters path entries).mergeSort nameOrder).flatMap Prod.snd

/-- What a walk meets below each entry of a directory. -/
def branches (fs : FileSystem) (enters : Text → Bool) (path : Text) :
    Entries → List (Text × List Sighting)
  | [] => []
  | (name, entry) :: rest =>
    let below := Path.append path name
    (name, if enters below then sightings fs enters below entry else []) ::
      branches fs enters path rest

end

/-- The source files of a directory, and the failures to list its subdirectories. -/
structure Discovered where
  files : List Text
  unlistable : List OsError
deriving DecidableEq, Repr

/-- Why a directory cannot be walked. -/
inductive DiscoveryError where
  | missing (path : Text)
  | notDirectory (path : Text)
  | unlistable (failure : OsError)
deriving DecidableEq, Repr

/-- The wording of a failure. -/
def DiscoveryError.message : DiscoveryError → Text
  | .missing path => "Directory not found: " ++ path
  | .notDirectory path => "Not a directory: " ++ path
  | .unlistable failure => failure.message

/-- The source files of a walk through a directory at an absolute path. -/
def discoverIn (fs : FileSystem) (settings : Settings) (root : Text) (entries : Entries) :
    Discovered :=
  let met := sightings fs (fun path => settings.enters (Path.relative fs.cwd root path)) root
    (.directory entries)
  { files := (met.filterMap Sighting.file?).filter fun path =>
      settings.takes (Path.relative fs.cwd root path) (Path.baseName path)
    unlistable := met.filterMap Sighting.unlistable? }

/-- The source files of a directory at an absolute path. -/
def discoverAt (fs : FileSystem) (settings : Settings) (root : Text) :
    Except DiscoveryError Discovered :=
  match fs.entry root with
  | .error _ => .error (.missing root)
  | .ok (.directory entries) =>
    match fs.listingCause? root with
    | some cause => .error (.unlistable ⟨cause, root⟩)
    | none => .ok (discoverIn fs settings root entries)
  | .ok _ => .error (.notDirectory root)

/-- The source files of a directory. -/
def discover (fs : FileSystem) (settings : Settings) (directory : Text) :
    Except DiscoveryError Discovered :=
  discoverAt fs settings (Path.absolute fs.cwd directory)

/-- The report of a subdirectory that could not be listed. -/
def unlistableReport (cwd root : Text) (failure : OsError) : Diagnostic where
  filePath := Path.relative cwd root failure.path
  message := s!"Failed to list directory: {failure.cause.text}"
  kind := .traversalError

/-- The reports of a walk. -/
def Discovered.diagnostics (d : Discovered) (cwd root : Text) : List Diagnostic :=
  d.unlistable.map (unlistableReport cwd root)

/-- The record of a report. -/
def Diagnostic.logRecord (d : Diagnostic) : Log.Record :=
  ⟨.warning, "extraction.diagnostics", d.render⟩

/-- The name under which discovery and extraction log. -/
def extractionLogger : String := "extraction.extractor"

/-- The record that a walk starts. -/
def walkRecord (root : Text) : Log.Record :=
  ⟨.info, extractionLogger, "Discovering source files in " ++ root⟩

/-- The records of a walk. -/
def Discovered.logRecords (d : Discovered) (cwd root : Text) : List Log.Record :=
  walkRecord root ::
    d.unlistable.flatMap (fun failure => [
      ⟨.error, extractionLogger,
        "Cannot list directory " ++ failure.path ++ ": " ++ failure.message⟩,
      (unlistableReport cwd root failure).logRecord]) ++
    [⟨.info, extractionLogger, s!"Found {d.files.length} source files"⟩]

/-- The records of a walk that failed. -/
def DiscoveryError.logRecords : DiscoveryError → List Log.Record
  | .unlistable failure => [walkRecord failure.path]
  | _ => []

end Gleaner
