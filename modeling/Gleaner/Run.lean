import Gleaner.Artifact
import Gleaner.CommandLine
import Gleaner.Element.Record
import Gleaner.Extraction
import Gleaner.Settings.Load
import Gleaner.World

/-!
# A run

A run loads the settings, extracts a directory, and writes the elements, the diagnostics and, on
request, a report. It ends with status 0 only if the elements were written. Problems of the settings and
of the directory itself end it early, with one fatal line in the error log. Where the system refuses to
write the error log, that is logged and otherwise passed over. A failure that none of the steps foresees
ends the run too; an error log with a line that has no bytes is one.

Main definitions: `Environment`, the stages `World.load`, `World.traverse`, `World.serialize` and
`World.report`, `World.run` and `runProgram`.
-/

namespace Gleaner

open Gleaner.CommandLine (Arguments Usage)
open Gleaner.Utf8 (Bytes)

/-- What a run takes from outside: how Java is parsed and YAML is read, what happens to the files between
discovery and reading, the name of the run, the times it tells, and whether strictness is on from the
start. -/
structure Environment where
  parse : Bytes → Syntax.Node
  yaml : YamlReader
  between : FileSystem → FileSystem := id
  freshId : String
  timestamp : String
  elapsed : String := "0.00"
  strict : Option Text := none

/-- The name under which a run logs. -/
def runLogger : String := "run_extraction"

/-- A record of a run. -/
def runRecord (level : Log.Level) (message : Text) : Log.Record :=
  ⟨level, runLogger, message⟩

/-- The outcome of a run: its status and the world after it. -/
structure RunResult where
  status : Nat
  world : World

/-- Write the error log. A refusal of the system is logged; any other failure is given. -/
def World.writeErrorLog (w : World) (lines : List Text) (path : Text) : World × Option ArtifactError :=
  let written := writeDiagnostics w.fs lines path
  let w := { w with fs := written.fs }
  match written.result with
  | .ok count => (w.log [runRecord .info (s!"Wrote {count} diagnostics to " ++ path)], none)
  | .error (.access (.os e)) =>
    (w.log [runRecord .error ("Failed to write error log " ++ path ++ ": " ++ e.message)], none)
  | .error e => (w, some e)

/-- The line of the error log for a failure that ends a run. -/
def fatalLine (message : Text) : Text :=
  "FATAL: " ++ message

/-- End a run because of a failure that no step foresees. -/
def World.fail (w : World) (message : Text) : RunResult :=
  ⟨1, w.log [runRecord .error ("Extraction failed: " ++ message)]⟩

/-- End a run because of a failure before anything was reported. -/
def World.abort (w : World) (args : Arguments) (message : Text) : RunResult :=
  let w := w.log [runRecord .error message]
  match w.writeErrorLog [fatalLine message] args.errorLog with
  | (w, none) => ⟨1, w⟩
  | (w, some e) => w.fail e.message

/-- The status that a report tells. -/
def finalStatus (fatal : Bool) (diagnostics : Nat) : String :=
  if fatal then "failed" else if diagnostics = 0 then "success" else "partial_success"

/-- The fields of a report. -/
def reportFields (cwd : Text) (args : Arguments) (stats : Stats) (status : String) :
    List (String × Value) := [
  ("source_dir", .text (Path.absolute cwd args.sourceDir)),
  ("output_file", .text (Path.absolute cwd args.outputFile)),
  ("error_log", .text (Path.absolute cwd args.errorLog)),
  ("files_processed", .int stats.processed),
  ("files_failed", .int stats.failed),
  ("elements_extracted", .int stats.elements),
  ("diagnostics", .int stats.diagnostics),
  ("status", .text status)]

/-- The entries of a report. -/
def reportEntries (cwd : Text) (args : Arguments) (stats : Stats) (status : String) :
    List (Value × Value) :=
  (reportFields cwd args stats status).map fun field => (.text field.1, field.2)

/-- The reports of a run as lines of the error log. -/
def DirectoryRun.lines (run : DirectoryRun) : List Text :=
  run.diagnostics.map Diagnostic.render

/-- Write the elements of a run. -/
def World.writeElements (w : World) (args : Arguments) (run : DirectoryRun) : Written Nat :=
  Gleaner.writeElements w.fs (.list (run.elements.map fun e => e.texts.toValue)) args.outputFile

/-- Write the elements, in a phase that stays open. Gives the fatal lines. -/
def World.writeOutput (w : World) (args : Arguments) (run : DirectoryRun) : World × List Text :=
  let written := w.writeElements args run
  let w := { w with fs := written.fs, logging := w.logging.enter "serialization" }
  match written.result with
  | .ok count => (w.log [runRecord .info (s!"Wrote {count} elements to " ++ args.outputFile)], [])
  | .error e =>
    let message := "Failed to write JSON output to " ++ args.outputFile ++ ": " ++ e.message
    (w.log [runRecord .error message], [fatalLine message])

/-- What writing the elements and the error log gives: the fatal lines, and the failure that ends the
run. -/
structure Serialized where
  world : World
  fatal : List Text
  failure : Option ArtifactError

/-- Write the elements and then the error log. -/
def World.serialize (w : World) (args : Arguments) (run : DirectoryRun) : Serialized :=
  let (w, fatal) := w.writeOutput args run
  let (w, failure) := w.writeErrorLog (run.lines ++ fatal) args.errorLog
  ⟨{ w with logging := w.logging.leave }, fatal, failure⟩

/-- End a run whose files are written. -/
def World.conclude (w : World) (args : Arguments) (fatal : List Text) : RunResult :=
  if fatal.isEmpty then
    ⟨0, w.log [
      runRecord .info ("Results written to: " ++ args.outputFile),
      runRecord .info ("Errors (if any) logged to: " ++ args.errorLog)]⟩
  else ⟨1, w⟩

/-- Write the report of a run into a directory. -/
def World.writeReport (w : World) (env : Environment) (args : Arguments) (run : DirectoryRun)
    (fatal : List Text) (directory : Text) : Written Text :=
  let status := finalStatus (!fatal.isEmpty) run.diagnostics.length
  let entries := reportEntries w.fs.cwd args run.stats status
  Gleaner.writeReport w.fs entries env.freshId env.timestamp directory

/-- Write the report if one is wanted, and end the run. -/
def World.report (w : World) (env : Environment) (args : Arguments) (run : DirectoryRun)
    (fatal : List Text) : RunResult :=
  match args.reportDir.filter (!·.isEmpty) with
  | none => w.conclude args fatal
  | some directory =>
    let written := w.writeReport env args run fatal directory
    let w := { w with fs := written.fs }
    match written.result with
    | .ok path => (w.log [runRecord .info ("Run report written to " ++ path)]).conclude args fatal
    | .error e => w.fail e.message

/-- The record of what was extracted. -/
def extractedRecord (env : Environment) (stats : Stats) : Log.Record :=
  runRecord .info (s!"Extraction completed in {env.elapsed}s: {stats.elements} elements from " ++
    s!"{stats.processed + stats.failed} files ({stats.failed} failed)")

/-- Name a run and load its settings. -/
def World.load (w : World) (env : Environment) (args : Arguments) : World × Except LoadError Settings :=
  let w := { w with logging := w.logging.setRunId env.freshId none }
  let loaded := loadSettings env.yaml w.fs args.strictConfig args.config
  (w.log loaded.records, loaded.result.map fun settings =>
    if args.includeConstructors then { settings with includeConstructors := true } else settings)

/-- Take the source directory. Where it can be taken, the files are as they are after that. -/
def World.traverse (w : World) (env : Environment) (args : Arguments) (settings : Settings) :
    World × Except DiscoveryError DirectoryRun :=
  let later := env.between w.fs
  match extractDirectory w.fs later env.parse settings args.sourceDir with
  | .error e => (w.logIn "extraction" e.logRecords, .error e)
  | .ok run =>
    let w := { w with fs := later }.logIn "extraction" run.logRecords
    (w.log [extractedRecord env run.stats], .ok run)

/-- Write what came of a run, and end it. -/
def World.finish (w : World) (env : Environment) (args : Arguments) (run : DirectoryRun) : RunResult :=
  let written := w.serialize args run
  match written.failure with
  | some e => written.world.fail e.message
  | none => written.world.report env args run written.fatal

/-- Extract with given settings and write what comes of it. -/
def World.extract (w : World) (env : Environment) (args : Arguments) (settings : Settings) :
    RunResult :=
  match w.traverse env args settings with
  | (w, .error e) => w.abort args ("Failed during file traversal: " ++ e.message)
  | (w, .ok run) => w.finish env args run

/-- Run with given arguments. -/
def World.run (w : World) (env : Environment) (args : Arguments) : RunResult :=
  match w.load env args with
  | (w, .error (.problem p)) => w.abort args ("Invalid configuration: " ++ p.message)
  | (w, .error e) => w.fail e.message
  | (w, .ok settings) => w.extract env args settings

/-- What the program does: it runs, or tells its usage, or cannot open its log file. -/
inductive ProgramResult where
  | ran (result : RunResult)
  | usage (cause : Usage)
  | unlogged (cause : AccessError) (world : World)

/-- Run the program. The variable for strictness counts where the arguments do not ask for it. -/
def runProgram (w : World) (env : Environment) (arguments : List Text) : ProgramResult :=
  match CommandLine.parseArguments (switch env.strict false) arguments with
  | .error cause => .usage cause
  | .ok args =>
    let configured := w.logging.configure w.fs args.logLevel args.logFile
    let w := { w with logging := configured.logging, fs := configured.fs }
    match configured.failure with
    | some e => .unlogged e w
    | none => .ran (w.run env args)

end Gleaner
