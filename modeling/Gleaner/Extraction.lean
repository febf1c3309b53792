import Gleaner.Discovery
import Gleaner.Java.Method
import Gleaner.Schema.Scan
import Gleaner.Syntax.Problem

/-!
# Extraction

One source file is read, decoded, and given to the Java or the schema side. Whatever happens on the way
is an `Outcome`; its result, its diagnostics and its log records are read off it. A directory is
discovered once, and then its files are taken one after the other, each on its own, so that a file that
fails costs only its own elements. What they yield is entered into a `Ledger`.

How Java source becomes a tree is an argument, `parse`. Discovery and extraction may see different file
systems: files can go away in between.

Main definitions: `Outcome`, `extractFile`, `Ledger`, `DirectoryRun`, `extractInto`, `extractDirectory`,
`extractSource` and `parseFile`.
-/

namespace Gleaner

open Gleaner.Utf8 (Bytes)
open Gleaner.Syntax (Node Problem)

/-! ## One file -/

/-- What became of a source file. -/
inductive Outcome where
  | vanished
  | unreadable (kind : SourceKind) (cause : OsError)
  | undecodable (kind : SourceKind) (cause : Utf8.Malformed)
  | rejected (size : Nat) (problems : List Problem)
  | harvested (size : Nat) (harvest : Java.Harvest)
  | scanned (lineCount : Nat) (scan : Except LineRangeError FileResult)

/-- How messages call a file. -/
def SourceKind.label : SourceKind → String
  | .java => "Java file"
  | .schema => "proto file"

/-- A file that was given up with one report. -/
def givenUp (relative : Text) (message : String) (kind : DiagnosticKind) : FileResult :=
  { diagnostics := [{ filePath := relative, message, kind }], failed := true }

/-- The reports of syntax problems. -/
def problemReports (relative : Text) (problems : List Problem) : List Diagnostic :=
  { filePath := relative, message := "Failed to parse Java file", kind := .syntaxError } ::
    problems.map fun p =>
      { filePath := relative, message := p.message, kind := .syntaxError, line := p.line }

/-- A failure inside a file, with its class. -/
def Java.MethodError.report : Java.MethodError → String
  | .malformed e => s!"UnicodeDecodeError: {e.message}"
  | .lineRange e => s!"ValueError: {e.message}"
  | .tooDeep => "RecursionError"

/-- A failure inside a file. -/
def Java.MethodError.message : Java.MethodError → String
  | .malformed e => e.message
  | .lineRange e => e.message
  | .tooDeep => ""

/-- The result of a file. -/
def Outcome.result (relative : Text) : Outcome → FileResult
  | .vanished => givenUp relative "File disappeared before it could be read" .readError
  | .unreadable kind e => givenUp relative s!"Failed to read {kind.label}: {e.message}" .readError
  | .undecodable kind e =>
    givenUp relative s!"Failed to decode {kind.label} as UTF-8: {e.reason.message}" .readError
  | .rejected _ problems => { diagnostics := problemReports relative problems, failed := true }
  | .harvested _ harvest =>
    match harvest.elements with
    | .ok elements => { elements }
    | .error .tooDeep =>
      givenUp relative
        "Recursion limit exceeded during Java extraction (file is nested too deeply). Skipping file"
        .runtimeError
    | .error e => givenUp relative s!"Failed to process Java file: {e.report}" .runtimeError
  | .scanned _ (.ok result) => result
  | .scanned _ (.error e) =>
    givenUp relative s!"Failed to process proto file: ValueError: {e.message}" .runtimeError

/-- What a Java file of given bytes becomes. -/
def javaOutcome (parse : Bytes → Node) (settings : Settings) (relative name : Text) (bytes : Bytes) :
    Outcome :=
  match Utf8.decode bytes with
  | .error e => .undecodable .java e
  | .ok _ =>
    let root := parse bytes
    match Syntax.problems bytes root with
    | [] =>
      let file : Java.SourceFile := { bytes, filePath := relative, fileName := name }
      .harvested bytes.length (Java.extractMethods file root settings.includeConstructors)
    | problems => .rejected bytes.length problems

/-- What a schema file of given bytes becomes. -/
def schemaOutcome (relative name : Text) (bytes : Bytes) : Outcome :=
  match Utf8.decode bytes with
  | .error e => .undecodable .schema e
  | .ok text =>
    let lines := Text.splitLines text
    .scanned lines.length (Schema.scanLines relative name lines)

/-- What a source file becomes. -/
def fileOutcome (fs : FileSystem) (parse : Bytes → Node) (settings : Settings) (kind : SourceKind)
    (path relative : Text) : Outcome :=
  match fs.readSource path with
  | .error e => .unreadable kind e
  | .ok bytes =>
    match kind with
    | .java => javaOutcome parse settings relative (Path.baseName path) bytes
    | .schema => schemaOutcome relative (Path.baseName path) bytes

/-- A file that was taken, under its path from the root. -/
structure Visit where
  relative : Text
  outcome : Outcome

/-- The result of a visit. -/
def Visit.result (v : Visit) : FileResult :=
  v.outcome.result v.relative

/-- Why a file cannot be taken. -/
inductive FileError where
  | missing (path : Text)
  | unrecognized (path : Text) (extensions : List Text)
deriving DecidableEq, Repr

/-- The wording of a failure. -/
def FileError.message : FileError → Text
  | .missing path => "File not found: " ++ path
  | .unrecognized path extensions =>
    let sorted := extensions.mergeSort fun a b => decide (a ≤ b)
    let names := Text.join ", " (sorted.map Text.quoted)
    "File " ++ path ++ s!" is not a recognized source file. Expected one of: [{names}]"

/-- Take a file at an absolute path, as seen from a root at an absolute path. -/
def visitFile (fs : FileSystem) (parse : Bytes → Node) (settings : Settings) (root path : Text) :
    Except FileError Visit :=
  if fs.isFile path then
    match settings.kindFor? (Path.baseName path) with
    | none => .error (.unrecognized path (settings.extensions.map Prod.fst))
    | some kind =>
      let relative := Path.relative fs.cwd root path
      .ok { relative, outcome := fileOutcome fs parse settings kind path relative }
  else .error (.missing path)

/-- Take a file; without a root it is seen from its own directory. -/
def extractFile (fs : FileSystem) (parse : Bytes → Node) (settings : Settings) (path : Text)
    (root : Option Text) : Except FileError Visit :=
  let path := Path.absolute fs.cwd path
  let root := match root with
    | none => Path.parent path
    | some r => Path.absolute fs.cwd r
  visitFile fs parse settings root path

/-! ## A directory -/

/-- Counts of a run. -/
structure Stats where
  processed : Nat
  failed : Nat
  elements : Nat
  diagnostics : Nat
deriving DecidableEq, Repr

/-- The written form of counts. -/
def Stats.text (s : Stats) : String :=
  s!"ExtractionStats(processed={s.processed}, failed={s.failed}, elements={s.elements}, " ++
    s!"diagnostics={s.diagnostics})"

/-- What was gathered from files taken one after the other: the diagnostics, behind those that were
there before, the elements with their number, and how many files were read or given up. -/
structure Ledger where
  sink : Sink
  elements : List Element := []
  extracted : Nat := 0
  processed : Nat := 0
  failed : Nat := 0

/-- Enter the result of one more file. -/
def Ledger.enter (l : Ledger) (r : FileResult) : Ledger where
  sink := l.sink.extend r.diagnostics
  elements := l.elements ++ r.elements
  extracted := l.extracted + r.elements.length
  processed := if r.failed then l.processed else l.processed + 1
  failed := if r.failed then l.failed + 1 else l.failed

/-- Take a file that was discovered. One that is missing by now is given up. -/
def visitDiscovered (fs : FileSystem) (parse : Bytes → Node) (settings : Settings)
    (root path : Text) : Except FileError Visit :=
  match visitFile fs parse settings root path with
  | .error (.missing _) => .ok { relative := Path.relative fs.cwd root path, outcome := .vanished }
  | taken => taken

/-- Take discovered files one after the other, entering what each yields. -/
def takeFiles (fs : FileSystem) (parse : Bytes → Node) (settings : Settings) (root : Text) :
    Ledger → List Text → Except FileError (List Visit × Ledger)
  | ledger, [] => return ([], ledger)
  | ledger, path :: rest => do
    let visit ← visitDiscovered fs parse settings root path
    let (visits, last) ← takeFiles fs parse settings root (ledger.enter visit.result) rest
    return (visit :: visits, last)

/-- A run over a directory: what was found, what became of each file in turn, and what was gathered
into a sink that held `before` diagnostics. -/
structure DirectoryRun where
  cwd : Text
  root : Text
  discovered : Discovered
  visits : List Visit
  before : Nat
  ledger : Ledger

/-- The elements of a run. -/
def DirectoryRun.elements (r : DirectoryRun) : List Element :=
  r.ledger.elements

/-- The reports of a run. -/
def DirectoryRun.diagnostics (r : DirectoryRun) : List Diagnostic :=
  r.ledger.sink.entries.drop r.before

/-- The counts of a run. -/
def DirectoryRun.stats (r : DirectoryRun) : Stats where
  processed := r.ledger.processed
  failed := r.ledger.failed
  elements := r.ledger.extracted
  diagnostics := r.ledger.sink.size - r.before

/-- Why a directory cannot be taken. -/
inductive DirectoryError where
  | discovery (cause : DiscoveryError)
  | file (cause : FileError)
deriving DecidableEq, Repr

/-- Take the source files of a directory, discovered in `seen` and read in `later`. The diagnostics go
to a sink. -/
def extractInto (sink : Sink) (seen later : FileSystem) (parse : Bytes → Node) (settings : Settings)
    (directory : Text) : Except DirectoryError DirectoryRun := do
  let root := Path.absolute seen.cwd directory
  let discovered ← (discoverAt seen settings root).mapError .discovery
  let walked : Ledger := { sink := sink.extend (discovered.diagnostics seen.cwd root) }
  let (visits, ledger) ←
    (takeFiles later parse settings root walked discovered.files).mapError .file
  return { cwd := seen.cwd, root, discovered, visits, before := sink.size, ledger }

section Into

variable {sink : Sink} {seen later : FileSystem} {parse : Bytes → Node} {settings : Settings}
  {directory : Text}

/-- Where discovery fails, so does the run. -/
theorem extractInto_eq_error {cause : DiscoveryError}
    (hfound : discoverAt seen settings (Path.absolute seen.cwd directory) = .error cause) :
    extractInto sink seen later parse settings directory = .error (.discovery cause) := by
  simp only [extractInto, hfound]
  rfl

/-- A run is the walk and then the files. -/
theorem extractInto_eq_ok {discovered : Discovered} {visits : List Visit} {ledger : Ledger}
    (hfound : discoverAt seen settings (Path.absolute seen.cwd directory) = .ok discovered)
    (htaken : takeFiles later parse settings (Path.absolute seen.cwd directory)
      { sink := sink.extend (discovered.diagnostics seen.cwd (Path.absolute seen.cwd directory)) }
      discovered.files = .ok (visits, ledger)) :
    extractInto sink seen later parse settings directory =
      .ok ⟨seen.cwd, Path.absolute seen.cwd directory, discovered, visits, sink.size, ledger⟩ := by
  simp only [extractInto, hfound]
  -- the walk succeeded, so that what is left to run is the files
  change (Except.mapError DirectoryError.file (takeFiles later parse settings _ _ _) >>= _) = _
  rw [htaken]
  rfl

end Into

/-- A file with a known ending is taken, whatever became of it. -/
theorem visitDiscovered_isOk (fs : FileSystem) (parse : Bytes → Node) {settings : Settings}
    (root : Text) {path : Text} (known : (settings.kindFor? (Path.baseName path)).isSome) :
    ∃ visit, visitDiscovered fs parse settings root path = .ok visit := by
  obtain ⟨kind, hkind⟩ := Option.isSome_iff_exists.mp known
  unfold visitDiscovered visitFile
  rw [hkind]
  cases fs.isFile path with
  | true => exact ⟨_, rfl⟩
  | false => exact ⟨_, rfl⟩

theorem takeFiles_isOk (fs : FileSystem) (parse : Bytes → Node) {settings : Settings} (root : Text)
    {paths : List Text} (known : ∀ path ∈ paths, (settings.kindFor? (Path.baseName path)).isSome)
    (ledger : Ledger) :
    ∃ taken, takeFiles fs parse settings root ledger paths = .ok taken := by
  induction paths generalizing ledger with
  | nil => exact ⟨_, rfl⟩
  | cons path rest ih =>
    obtain ⟨visit, hvisit⟩ := visitDiscovered_isOk fs parse root (known path (by simp))
    obtain ⟨taken, htaken⟩ :=
      ih (fun p hp => known p (List.mem_cons_of_mem path hp)) (ledger.enter visit.result)
    exact ⟨(visit :: taken.1, taken.2), by simp [takeFiles, hvisit, htaken, bind, Except.bind]; rfl⟩

/-- What is discovered has a known ending. -/
theorem kindFor?_isSome_of_discoverAt {fs : FileSystem} {settings : Settings} {root : Text}
    {discovered : Discovered} (found : discoverAt fs settings root = .ok discovered) :
    ∀ path ∈ discovered.files, (settings.kindFor? (Path.baseName path)).isSome := by
  intro path hpath
  unfold discoverAt at found
  split at found
  · cases found
  · split at found
    · cases found
    · cases found
      have htakes := (List.mem_filter.mp hpath).2
      unfold Settings.takes at htakes
      exact (Bool.and_eq_true_iff.mp htakes).2
  · cases found

/-- Only discovery fails. -/
theorem extractInto_ne_file (sink : Sink) (seen later : FileSystem) (parse : Bytes → Node)
    (settings : Settings) (directory : Text) (cause : FileError) :
    extractInto sink seen later parse settings directory ≠ .error (.file cause) := by
  cases hfound : discoverAt seen settings (Path.absolute seen.cwd directory) with
  | error e => simp [extractInto_eq_error hfound]
  | ok discovered =>
    obtain ⟨⟨visits, ledger⟩, htaken⟩ := takeFiles_isOk later parse
      (Path.absolute seen.cwd directory) (kindFor?_isSome_of_discoverAt hfound)
      { sink := sink.extend (discovered.diagnostics seen.cwd (Path.absolute seen.cwd directory)) }
    simp [extractInto_eq_ok hfound htaken]

/-- Take the source files of a directory into a sink of their own. -/
def extractDirectory (seen later : FileSystem) (parse : Bytes → Node) (settings : Settings)
    (directory : Text) : Except DiscoveryError DirectoryRun :=
  match h : extractInto {} seen later parse settings directory with
  | .ok run => .ok run
  | .error (.discovery e) => .error e
  | .error (.file e) => absurd h (extractInto_ne_file {} seen later parse settings directory e)

/-! ## A file or a directory -/

/-- What a source yields, whether a file or a directory. -/
inductive SourceRun where
  | file (visit : Visit)
  | directory (run : DirectoryRun)

/-- The elements of a source. -/
def SourceRun.elements : SourceRun → List Element
  | .file visit => visit.result.elements
  | .directory run => run.elements

/-- The reports of a source. -/
def SourceRun.diagnostics : SourceRun → List Diagnostic
  | .file visit => visit.result.diagnostics
  | .directory run => run.diagnostics

/-- Why a source cannot be taken. -/
inductive SourceError where
  | missing (path : Text)
  | file (cause : FileError)
  | directory (cause : DiscoveryError)
deriving DecidableEq, Repr

/-- The wording of a failure. -/
def SourceError.message : SourceError → Text
  | .missing path => "Source not found: " ++ path
  | .file e => e.message
  | .directory e => e.message

/-- Take a file or a directory. -/
def extractSource (seen later : FileSystem) (parse : Bytes → Node) (settings : Settings)
    (path : Text) : Except SourceError SourceRun :=
  let path := Path.absolute seen.cwd path
  if seen.isFile path then
    ((extractFile seen parse settings path none).map .file).mapError .file
  else if seen.isDirectory path then
    ((extractDirectory seen later parse settings path).map .directory).mapError .directory
  else .error (.missing path)

/-! ## Parsing alone -/

/-- Java source has to be bytes; this is the type that was given instead. -/
structure SourceTypeError where
  typeName : String
deriving DecidableEq, Repr

/-- The wording of a failure. -/
def SourceTypeError.message (e : SourceTypeError) : String :=
  s!"Source must be bytes, got {e.typeName}"

/-- The tree of a value that should be Java source. -/
def parseValue (parse : Bytes → Node) : Value → Except SourceTypeError Node
  | .bytes b => .ok (parse b)
  | v => .error ⟨v.typeName⟩

/-- Why a file cannot be parsed. -/
inductive ParseError where
  | path (fault : PathFault)
  | unreadable (cause : OsError)
  | rejected (problems : List Problem)

/-- The tree and the bytes of a Java file without syntax problems. -/
def parseFile (fs : FileSystem) (parse : Bytes → Node) (path : Text) :
    Except ParseError (Node × Bytes) := do
  if let some fault := pathFault? path then throw (.path fault)
  let bytes ← (fs.readSource path).mapError .unreadable
  let root := parse bytes
  match Syntax.problems bytes root with
  | [] => return (root, bytes)
  | problems => throw (.rejected problems)

/-! ## Log records -/

/-- The record of a finding in a Java file. -/
def Java.Finding.logRecord (relative : Text) : Java.Finding → Log.Record
  | .element e =>
    let signature := e.signature.getD ""
    ⟨.debug, "extraction.traversal",
      s!"Extracted Method: {signature} at " ++ relative ++ s!":{e.declarationLine}"⟩
  | .unnamed kind line => ⟨.debug, "extraction.traversal", s!"Skipping unnamed {kind} at line {line}"⟩

/-- The record of a block in a schema file. -/
def blockRecord (relative : Text) (e : Element) : Log.Record :=
  ⟨.debug, "extraction.schema_scanner",
    s!"Extracted {e.kind.name}: {e.name} at " ++ relative ++ s!":{e.startLine}-{e.endLine}"⟩

/-- The records of parsing Java source of a size. -/
def parseRecords (size : Nat) : List Log.Record := [
  ⟨.debug, "extraction.parser", "Created tree-sitter Java parser"⟩,
  ⟨.debug, "extraction.parser", s!"Parsed {size} bytes of Java code"⟩]

/-- The record of a failure that no rule foresees. -/
def unexpectedRecord (relative : Text) (message : String) : Log.Record :=
  ⟨.error, extractionLogger, "Unexpected error processing " ++ relative ++ s!": {message}"⟩

/-- The records after the findings of a Java file. -/
def harvestRecords (relative : Text) (h : Java.Harvest) : List Log.Record :=
  match h.elements with
  | .ok elements =>
    [⟨.debug, "extraction.traversal", s!"Extracted {elements.length} methods from " ++ relative⟩]
  | .error .tooDeep => []
  | .error e => [unexpectedRecord relative e.message]

/-- The records of an outcome. -/
def Outcome.logRecords (relative : Text) : Outcome → List Log.Record
  | .vanished => []
  | .unreadable _ _ => []
  | .undecodable _ _ => []
  | .rejected size _ => parseRecords size
  | .harvested size h =>
    parseRecords size ++ h.findings.map (·.logRecord relative) ++ harvestRecords relative h
  | .scanned lineCount (.ok r) =>
    r.elements.map (blockRecord relative) ++
      [⟨.debug, "extraction.schema_scanner",
        s!"Scanned {lineCount} lines of " ++ relative ++
          s!": {r.elements.length} blocks, {r.diagnostics.length} problems"⟩]
  | .scanned _ (.error e) => [unexpectedRecord relative e.message]

/-- The records of a visit, the reports left out. -/
def Visit.logRecords (v : Visit) : List Log.Record :=
  match v.outcome with
  | .vanished => []
  | outcome =>
    ⟨.info, extractionLogger, "Extracting elements from " ++ v.relative⟩ ::
      outcome.logRecords v.relative ++
      [⟨.info, extractionLogger,
        s!"Extracted {v.result.elements.length} elements from " ++ v.relative⟩]

/-- The records of a run. -/
def DirectoryRun.logRecords (r : DirectoryRun) : List Log.Record :=
  r.discovered.logRecords r.cwd r.root ++
    (if r.discovered.files.isEmpty then
      [⟨.warning, extractionLogger, "No source files found in " ++ r.root⟩] else []) ++
    r.visits.flatMap (fun v => v.logRecords ++ v.result.diagnostics.map Diagnostic.logRecord) ++
    [⟨.info, extractionLogger, s!"Extraction complete: {r.stats.text}"⟩]

end Gleaner
