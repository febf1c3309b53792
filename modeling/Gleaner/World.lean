import Gleaner.Log.Handler

/-!
# What a run changes

A run changes files, logs, and prints to the console.
-/

namespace Gleaner

/-- Files, logging, and the lines on the console, oldest first. -/
structure World where
  fs : FileSystem
  logging : Log.Logging := {}
  console : List Text := []

/-- The text of lines that go to a target. -/
def linesFor (target : Log.Target) (written : List (Log.Target × Text)) : List Text :=
  written.filterMap fun (t, line) => if t = target then some line else none

namespace World

/-- The bytes of a line with its end; a line that has none is lost. -/
def lineBytes (line : Text) : Utf8.Bytes :=
  match (line ++ "\n").encode with
  | .ok bytes => bytes
  | .error _ => []

/-- Add lines to a log file. A file that cannot be written is left as it is. -/
def appendLines (fs : FileSystem) (path : Text) (lines : List Text) : FileSystem :=
  match fs.append path (lines.flatMap lineBytes) with
  | .ok fs => fs
  | .error _ => fs

/-- Write records to where they go. -/
def log (w : World) (records : List Log.Record) : World :=
  let written := records.flatMap w.logging.emit
  { w with
    console := w.console ++ linesFor .console written
    fs := w.logging.files.foldl
      (fun fs path => appendLines fs path (linesFor (.file path) written)) w.fs }

/-- Write records inside a phase. -/
def logIn (w : World) (phase : Text) (records : List Log.Record) : World :=
  let w := { w with logging := w.logging.enter phase }.log records
  { w with logging := w.logging.leave }

end World

end Gleaner
