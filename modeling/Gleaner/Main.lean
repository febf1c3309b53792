import Gleaner.CommandLine.Help
import Gleaner.Java.Parse
import Gleaner.Run
import Gleaner.Yaml.Reader
import Std.Time.DateTime.Timestamp

/-!
# The program

Reads the files that a run can see into a file system, runs, writes back the files that changed, and
prints the log. Files are seen under names that are strings.
-/

namespace Gleaner.Program

open Gleaner.Utf8 (Bytes)

/-- The bytes of a list as an array. -/
def toArray (bytes : Bytes) : ByteArray :=
  ⟨bytes.toArray⟩

/-- How deep directories are read. -/
def maxDirectoryDepth : Nat := 256

/-- Whether a name in a directory is a link: it does not lead to its own place. -/
def isLink (path : Text) : IO Bool := do
  let parent ← IO.FS.realPath (Path.parent path).lossy
  let real ← IO.FS.realPath path.lossy
  return real.toString ≠ Path.append parent.toString (Path.baseName path)

/-- The bytes of a file, if it can be read. -/
def bytesOf? (path : Text) : IO (Option Bytes) := do
  try return some (← IO.FS.readBinFile path.lossy).toList catch _ => return none

/-- The names in a directory, if it can be listed. -/
def namesOf? (path : Text) : IO (Option (List Text)) := do
  try
    let found ← (← IO.FS.realPath path.lossy).readDir
    return some (found.toList.map fun entry => .ofString entry.fileName)
  catch _ => return none

/-- Read what is at a path, with everything below it. -/
def readTree : (depth : Nat) → (path : Text) → IO (Option Entry × List Text)
  | 0, _ => return (none, [])
  | depth + 1, path => do
    match ← namesOf? path with
    | none =>
      match ← bytesOf? path with
      | some bytes => return (some (.file bytes), [])
      | none => return (some (.file []), [path])
    | some names =>
      let mut entries : Entries := []
      let mut refused : List Text := []
      for name in names do
        let below := Path.append path name
        if ← (try isLink below catch _ => pure true) then
          let real ← (try pure (← IO.FS.realPath below.lossy).toString catch _ => pure "")
          entries := (name, .link real) :: entries
        else
          let (entry, more) ← readTree depth below
          refused := refused ++ more
          match entry with
          | some e => entries := (name, e) :: entries
          | none => pure ()
      return (some (.directory entries), refused)

/-- The paths of the directories above a path, outermost first. -/
def ancestors (path : Text) : List Text :=
  let parts := Path.components path
  (List.range parts.length).map fun n => "/" ++ Path.join (parts.take n)

/-- Put what is at a path into a file system, with the directories above it. -/
def load (fs : FileSystem) (path : Text) : IO FileSystem := do
  let (entry, refused) ← readTree maxDirectoryDepth path
  let fs := (fs.makeDirectories (Path.parent path)).1
  match entry with
  | none => return fs
  | some e =>
    return { fs.putAt (Path.components path) e with unreadable := fs.unreadable ++ refused }

/-- Whether something is at a path. -/
def isThere (path : Text) : IO Bool := do
  return (← namesOf? path).isSome || (← bytesOf? path).isSome

/-- The directories above a path that are there. -/
def loadAbove (fs : FileSystem) (path : Text) : IO FileSystem := do
  let mut fs := fs
  for directory in ancestors path do
    if (← namesOf? directory).isSome then fs := (fs.makeDirectories directory).1
  if !fs.exists? path && (← isThere path) then
    match ← bytesOf? path with
    | some bytes => return fs.putAt (Path.components path) (.file bytes)
    | none => return (fs.makeDirectories path).1
  return fs

/-- The files and directories of a file system with their paths. -/
def contents : (depth : Nat) → (path : Text) → Entries → List (Text × Entry)
  | 0, _, _ => []
  | depth + 1, path, entries =>
    entries.flatMap fun (name, entry) =>
      let below := Path.append path name
      match entry with
      | .directory inner => (below, .directory []) :: contents depth below inner
      | e => [(below, e)]

/-- Write back what changed. -/
def store (before after : FileSystem) : IO Unit := do
  for (path, entry) in contents maxDirectoryDepth "/" after.entries do
    match entry with
    | .directory _ => if !before.isDirectory path then IO.FS.createDirAll path.lossy
    | .file bytes =>
      match before.read path with
      | .ok old => if old ≠ bytes then IO.FS.writeBinFile path.lossy (toArray bytes)
      | .error _ => IO.FS.writeBinFile path.lossy (toArray bytes)
    | .link _ => pure ()

/-- The paths that a run looks at besides its source directory. -/
def pathsOf (args : CommandLine.Arguments) : List Text :=
  [args.outputFile, args.errorLog] ++ args.config.toList ++ args.reportDir.toList ++ args.logFile.toList

/-- A name for a run that no other run has. -/
def freshId : IO String := do
  let digits (n : Nat) : IO String := do
    let mut cs : List Char := []
    for _ in List.range n do
      cs := Text.hexDigit (← IO.rand 0 15) :: cs
    return String.ofList cs
  let variant := Text.hexDigit (← IO.rand 8 11)
  return s!"{← digits 8}-{← digits 4}-4{← digits 3}-{variant}{← digits 3}-{← digits 12}"

/-- The moment that it is. -/
def now : IO DateTime := do
  let t ← Std.Time.Timestamp.now
  return .ofMicroseconds (t.val.second.val.toNat * 1000000 + t.val.nano.val.toNat / 1000)

/-- The time that lines of the log tell. -/
def logTime (t : DateTime) : String :=
  { t with microsecond := 0, offset := none }.text " " ++ "," ++ padded 3 (t.microsecond / 1000)

end Gleaner.Program

open Gleaner in
/-- Run the program on the files of the machine. -/
def main (arguments : List String) : IO UInt32 := do
  let arguments := arguments.map Text.ofString
  let strict := (← IO.getEnv "STRICT_CONFIG_VALIDATION").map Text.ofString
  let cwd : Text := (← IO.currentDir).toString
  let mut fs : FileSystem := { cwd }
  match CommandLine.parseArguments (switch strict false) arguments with
  | .error .help =>
    IO.print CommandLine.helpText
    return 0
  | .error (.error e) =>
    IO.eprint (CommandLine.usageText e.message).lossy
    return 2
  | .ok args =>
    fs ← Program.loadAbove fs (Path.absolute cwd ".")
    fs ← Program.loadAbove fs (Path.absolute cwd args.sourceDir)
    if ← Program.isThere (Path.absolute cwd args.sourceDir) then
      fs ← Program.load fs (Path.absolute cwd args.sourceDir)
    for path in Program.pathsOf args do
      fs ← Program.loadAbove fs (Path.absolute cwd path)
    let now ← Program.now
    let env : Environment := {
      parse := Java.parse
      yaml := Yaml.reader
      freshId := ← Program.freshId
      timestamp := now.text "T"
      strict }
    match runProgram { fs, logging := { time := Program.logTime now } } env arguments with
    | .usage _ => return 2
    | .unlogged e _ =>
      IO.eprintln e.message
      return 1
    | .ran result =>
      Program.store fs result.world.fs
      for line in result.world.console do
        IO.eprintln line.lossy
      return UInt32.ofNat result.status
