import Gleaner.FileSystem.Change
import Gleaner.Log.Record

/-!
# Where records go

Records of enough weight go to every handler: to the console or to a file. A line tells the time, the
level, the run and its phase, the part of the program and the message. Run and phase are added to a
record by a filter of the handler; a handler that has the format without the filter cannot show
anything. Without any handler, warnings and worse go to the console as bare messages.

Main definitions: `Handler`, `Logging`, `Logging.configure` and `Logging.emit`.
-/

namespace Gleaner.Log

/-- Where a handler writes. -/
inductive Target where
  | console
  | file (path : Text)
deriving DecidableEq, Repr

/-- A receiver of records. -/
structure Handler where
  target : Target
  /-- Whether lines have the format with run and phase. -/
  structured : Bool
  /-- How many filters add run and phase. -/
  filters : Nat
deriving DecidableEq, Repr

/-- The state of logging. -/
structure Logging where
  level : Level := .warning
  handlers : List Handler := []
  runId : Text := "-"
  /-- The phases that are open, innermost first. -/
  phases : List Text := []
  /-- The time that lines tell. -/
  time : String := ""

namespace Logging

/-- The phase of records. -/
def phase (l : Logging) : Text :=
  l.phases.headD "-"

/-- Open a phase. -/
def enter (l : Logging) (phase : Text) : Logging :=
  { l with phases := phase :: l.phases }

/-- Close the innermost phase. -/
def leave (l : Logging) : Logging :=
  { l with phases := l.phases.drop 1 }

/-- Name the run; without a name it takes a fresh one. -/
def setRunId (l : Logging) (fresh : Text) (id : Option Text) : Logging :=
  match id with
  | some name => { l with runId := if name.isEmpty then fresh else name }
  | none => { l with runId := fresh }

end Logging

/-- A handler with the format. -/
def Handler.format (h : Handler) : Handler :=
  { h with structured := true }

/-- A handler with a filter. -/
def Handler.ensureFilter (h : Handler) : Handler :=
  if h.filters = 0 then { h with filters := 1 } else h

/-- The console handler that is made when there is none. -/
def consoleHandler : Handler :=
  ⟨.console, true, 0⟩

/-- A handler for a log file that was just opened. -/
def fileHandler (path : Text) : Handler :=
  ⟨.file path, true, 0⟩

/-- The handlers with the format, at least the one for the console. -/
def formatted : List Handler → List Handler
  | [] => [consoleHandler]
  | handlers => handlers.map Handler.format

/-- What configuring gives: the state and the files after it, and the failure to open the log file. -/
structure Configured where
  logging : Logging
  fs : FileSystem
  failure : Option AccessError

/-- Set the level and the format, and add a handler for a log file. If the file cannot be opened, the
filters are not looked after. -/
def Logging.configure (l : Logging) (fs : FileSystem) (level : Level) (logFile : Option Text) :
    Configured :=
  let base := formatted l.handlers
  let finish (fs : FileSystem) (handlers : List Handler) : Configured :=
    ⟨{ l with level, handlers := handlers.map Handler.ensureFilter }, fs, none⟩
  match logFile.filter (!·.isEmpty) with
  | none => finish fs base
  | some name =>
    let path := Path.absolute fs.cwd name
    match fs.append path [] with
    | .error e => ⟨{ l with level, handlers := base }, fs, some e⟩
    | .ok fs => finish fs (base ++ [fileHandler path])

/-- The line of a record. -/
def Logging.line (l : Logging) (r : Record) : Text :=
  s!"{l.time} | {r.level.name} | run_id=" ++ l.runId ++ " | phase=" ++ l.phase ++
    s!" | {r.logger} | " ++ r.message

/-- What a handler writes for a record. -/
def Logging.shown (l : Logging) (r : Record) (h : Handler) : Option (Target × Text) :=
  if !h.structured then some (h.target, r.message)
  else if h.filters = 0 then none
  else some (h.target, l.line r)

/-- What is written for a record, and where. -/
def Logging.emit (l : Logging) (r : Record) : List (Target × Text) :=
  if r.reaches l.level then
    if l.handlers.isEmpty then
      if r.reaches .warning then [(.console, r.message)] else []
    else l.handlers.filterMap (l.shown r)
  else []

/-- The files that handlers write to, each once. -/
def Logging.files (l : Logging) : List Text :=
  (l.handlers.filterMap fun h => match h.target with
    | .console => none
    | .file path => some path).eraseDups

end Gleaner.Log
