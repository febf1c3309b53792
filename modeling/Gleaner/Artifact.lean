import Gleaner.FileSystem.Change
import Gleaner.Json.Write

/-!
# Artifacts of a run

Three files tell the outcome of a run: the elements as a JSON array, the diagnostics as lines of text,
and a report as a JSON map with sorted keys. The elements become JSON before anything is written; the
report is written while it becomes JSON, so a failure can leave a part of it.

Text is turned into bytes only when the file is open. A text with a surrogate has no bytes. Then the element
file is left empty, and the diagnostics end with the one before.

Every writer gives the file system after it, whether it succeeds or fails.

Main definitions: `writeElements`, `writeDiagnostics` and `writeReport`.
-/

namespace Gleaner

open Gleaner.Utf8 (Bytes)

/-- Why an artifact cannot be written. -/
inductive ArtifactError where
  | notIterable (typeName : String)
  | encoding (cause : Json.WriteError)
  | access (cause : AccessError)
  | unencodable (cause : Unencodable)
deriving DecidableEq, Repr

/-- The wording of a failure. -/
def ArtifactError.message : ArtifactError → String
  | .notIterable typeName => s!"'{typeName}' object is not iterable"
  | .encoding e => e.message
  | .access e => e.message
  | .unencodable e => e.message

/-- A result with the files after it. -/
structure Written (α : Type) where
  result : Except ArtifactError α
  fs : FileSystem

/-- The items of a value: those of a list, the keys of a map, the characters of a text, the numbers of
bytes. -/
def Value.items : Value → Except ArtifactError (List Value)
  | .list items => .ok items
  | .tuple items => .ok items
  | .set items => .ok items
  | .map entries => .ok (entries.map Prod.fst)
  | .text s => .ok (s.toList.map fun c => .text (.ofList [c]))
  | .bytes b => .ok (b.map fun n => .int n.toNat)
  | v => .error (.notIterable v.fullTypeName)

/-- Make the directory in which a file is to be. -/
def ensureParent (fs : FileSystem) (path : Text) : FileSystem × Option AccessError :=
  fs.makeDirectories (Path.parent (Path.absolute fs.cwd path))

/-- Write a file whose directory is made first. -/
def writeFresh (fs : FileSystem) (path : Text) (bytes : Bytes) : Written Unit :=
  match ensureParent fs path with
  | (fs, some e) => ⟨.error (.access e), fs⟩
  | (fs, none) =>
    match fs.write path bytes with
    | .error e => ⟨.error (.access e), fs⟩
    | .ok fs => ⟨.ok (), fs⟩

/-- The result of a writer replaced if it succeeded. -/
def Written.as {α β : Type} (w : Written α) (b : β) : Written β :=
  ⟨w.result.map fun _ => b, w.fs⟩

/-- The failure that shows up after a file was written as far as that. -/
def Written.thenFails {α : Type} (w : Written Unit) (e : ArtifactError) : Written α :=
  ⟨w.result.bind fun _ => .error e, w.fs⟩

/-- How elements are written. -/
def elementStyle : Json.Style := ⟨.unicode, false⟩

/-- The text of the element file. -/
def elementText (items : List Value) : Except Json.WriteError Text :=
  (Json.encode elementStyle (.list items)).map (· ++ "\n")

/-- Write elements as one JSON array with a line end, and count them. Where the array has no bytes, the
file is open by then, and empty. -/
def writeElements (fs : FileSystem) (elements : Value) (path : Text) : Written Nat :=
  match elements.items with
  | .error e => ⟨.error e, fs⟩
  | .ok items =>
    match elementText items with
    | .error e => ⟨.error (.encoding e), fs⟩
    | .ok text =>
      match text.encode with
      | .error e => (writeFresh fs path []).thenFails (.unencodable e)
      | .ok bytes => (writeFresh fs path bytes).as items.length

/-- A diagnostic as it stands in the log: without line ends of its own at the end, but with one. -/
def logLine (line : Text) : Text :=
  .ofList (Text.dropEnd (· = .char '\n') line.toList ++ [.char '\n'])

/-- The bytes of diagnostics up to the first that has none, and why it has none. -/
def logBytes : List Text → Bytes × Option Unencodable
  | [] => ([], none)
  | line :: rest =>
    match (logLine line).encode with
    | .error e => ([], some e)
    | .ok bytes =>
      let later := logBytes rest
      (bytes ++ later.1, later.2)

/-- Write diagnostics, one after the other, and count them. -/
def writeDiagnostics (fs : FileSystem) (lines : List Text) (path : Text) : Written Nat :=
  let written := writeFresh fs path (logBytes lines).1
  match (logBytes lines).2 with
  | some e => written.thenFails (.unencodable e)
  | none => written.as lines.length

/-- How a report is written. -/
def reportStyle : Json.Style := ⟨.ascii, true⟩

/-- Put a value under a key unless the key is there. -/
def putDefault (key : String) (value : Value) (entries : List (Value × Value)) : List (Value × Value) :=
  if (Value.lookup? key entries).isSome then entries else Value.insertEntry (.text key) value entries

/-- Write a report into a directory under the name of its run, and tell where. Whatever is no plain
character is escaped in a report, so its text is made of characters. -/
def writeReport (fs : FileSystem) (report : List (Value × Value)) (runId timestamp : String)
    (directory : Text) : Written Text :=
  match fs.makeDirectories directory with
  | (fs, some e) => ⟨.error (.access e), fs⟩
  | (fs, none) =>
    let entries := putDefault "timestamp_utc" (.text timestamp) (putDefault "run_id" (.text runId) report)
    let path := Path.append directory (runId ++ ".json" : String)
    let draft := Json.write reportStyle 0 (.map entries)
    match fs.write path (Utf8.encode (String.ofList (Text.ofList draft.text).chars)) with
    | .error e => ⟨.error (.access e), fs⟩
    | .ok fs =>
      match draft.failure with
      | some e => ⟨.error (.encoding e), fs⟩
      | none => ⟨.ok path, fs⟩

end Gleaner
