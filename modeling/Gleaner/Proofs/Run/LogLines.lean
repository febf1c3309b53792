import Gleaner.Proofs.Extraction.Wording
import Gleaner.Proofs.Run.Artifacts
import Gleaner.Proofs.Text.Trim

/-!
# The lines of the error log

Whatever a run has to report goes to the error log as entries: the diagnostics first, and then what was
fatal. The writer ends every entry with a line feed, after dropping those that the entry ends with. What it
counts are the entries. So the log has as many lines as that only if no entry has a line feed inside.

The message of a diagnostic has none. But the path of the file stands in the entry as it is, and a path may
have one: a report on such a file takes several lines, of which all but the first look like reports of their
own. This is the only way in which a diagnostic can break a line. Fatal entries tell paths as well, and what
was wrong with the settings.

A path may also have bytes that are no character. An entry with such a path cannot be written. The log then
has the lines of the entries before it, and no count is told.

## Main definitions

* `breaks`: the line feeds inside an entry
* `World.Submits`: what a run submits to its error log, and when
* `World.LogReads`: what is in the error log

## Main results

* `count_logBytes`: the lines of a log
* `breaks_render`: a diagnostic breaks where its path does
* `World.Submits.logLeft`: what was submitted is what becomes of the log in the end
* `World.run_log_lines`: the lines of the error log of any run
-/

namespace Gleaner

open Gleaner.CommandLine (Arguments)
open Gleaner.Text (InLine dropEnd dropEnd_append)

/-! ## Entries -/

/-- The line feeds inside an entry, those at its end left out. -/
def breaks (entry : Text) : ℕ :=
  (dropEnd (· = .char '\n') entry.toList).count (.char '\n')

/-- What stands in front of an entry, in one line, does not matter. -/
theorem breaks_append {s : String} (h : InLine s) (t : Text) : breaks (s ++ t) = breaks t := by
  have hfront : CodePoint.char '\n' ∉ (s : Text).toList := by simpa [InLine] using h
  unfold breaks
  rw [Text.toList_append, dropEnd_append]
  split_ifs with hempty
  · -- what is left of a text in one line has no line feed either
    have hrest : CodePoint.char '\n' ∉ dropEnd (· = .char '\n') (s : Text).toList := fun hmem =>
      hfront ((List.rdropWhile_prefix _ _).subset hmem)
    rw [List.count_eq_zero.mpr hrest, hempty, List.count_nil]
  · rw [List.count_append, List.count_eq_zero.mpr hfront, Nat.zero_add]

/-- **A diagnostic breaks where its path does.** -/
theorem breaks_render {d : Diagnostic} (h : InLine d.message) : breaks d.render = breaks d.filePath := by
  unfold Diagnostic.render
  split
  · exact breaks_append (by simp +decide [h]) d.filePath
  · exact breaks_append (by simp +decide [h]) d.filePath

/-- An entry that has bytes takes one line, and one more for each line feed inside. -/
theorem count_logLine {entry : Text} {bytes : Utf8.Bytes} (h : (logLine entry).encode = .ok bytes) :
    bytes.count 0x0a = breaks entry + 1 := by
  obtain ⟨line, hline, rfl⟩ := Text.encode_eq_ok_iff.mp h
  have hinjective : Function.Injective CodePoint.char := fun _ _ => CodePoint.char.inj
  rw [Utf8.count_lineFeed_encode, ← List.count_map_of_injective _ _ hinjective, ← Text.toList_ofString,
    ← hline, logLine, Text.toList_ofList, List.count_append, breaks, List.count_singleton_self]

/-- **The lines of a log**: one for each entry, and one more for each line feed inside. -/
theorem count_logBytes {entries : List Text} (h : ∀ entry ∈ entries, ¬ entry.HasSurrogate) :
    (logBytes entries).1.count 0x0a = entries.length + (entries.map breaks).sum := by
  induction entries with
  | nil => rfl
  | cons entry rest ih =>
    obtain ⟨hentry, hrest⟩ := List.forall_mem_cons.mp h
    obtain ⟨bytes, hbytes⟩ := exists_encode_logLine hentry
    simp only [logBytes, hbytes, List.count_append, count_logLine hbytes, ih hrest, List.length_cons,
      List.map_cons, List.sum_cons]
    omega

theorem CutShort.length_lt {lines kept : List Text} (h : CutShort lines kept) :
    kept.length < lines.length := by
  obtain ⟨-, line, rest, rfl, -⟩ := h
  simp

/-! ## Runs -/

namespace World

variable {w before : World} {env : Environment} {args : Arguments} {sink : List Diagnostic}
  {fatal : List Text}

/-- **What a run submits to its error log**: the diagnostics and the fatal entries, and the world in which it
does so. Settings that are refused and a directory that cannot be taken are fatal. Otherwise there are the
diagnostics of the run, and what was fatal about the elements. -/
inductive Submits (w : World) (env : Environment) (args : Arguments) :
    World → List Diagnostic → List Text → Prop
  | misconfigured {p : ConfigProblem} (refused : (w.load env args).2 = .error (.problem p)) :
      Submits w env args
        ((w.load env args).1.log [runRecord .error ("Invalid configuration: " ++ p.message)]) []
        [fatalLine ("Invalid configuration: " ++ p.message)]
  | untraversed {loaded found : World} {settings : Settings} {e : DiscoveryError}
      (load : w.load env args = (loaded, .ok settings))
      (failed : loaded.traverse env args settings = (found, .error e)) :
      Submits w env args (found.log [runRecord .error ("Failed during file traversal: " ++ e.message)]) []
        [fatalLine ("Failed during file traversal: " ++ e.message)]
  | finished {found : World} {run : DirectoryRun} (extracts : w.Extracts env args found run) :
      Submits w env args (found.writeOutput args run).1 run.diagnostics (found.writeOutput args run).2

/-- The entries of the error log. -/
def logEntries (sink : List Diagnostic) (fatal : List Text) : List Text :=
  sink.map Diagnostic.render ++ fatal

/-- A run submits something to its error log, unless it fails in a way that none of its steps foresees; then
it leaves everything as it is. -/
theorem exists_submits (w : World) (env : Environment) (args : Arguments) :
    (∃ before sink fatal, w.Submits env args before sink fatal) ∨
      ∃ e, (∀ p, e ≠ .problem p) ∧ (w.load env args).2 = .error e ∧
        w.Leads [] [] (w.run env args).world := by
  rcases hload : w.load env args with ⟨loaded, e | settings⟩
  · have herror : (w.load env args).2 = .error e := by rw [hload]
    by_cases hproblem : ∃ p, e = .problem p
    · obtain ⟨p, rfl⟩ := hproblem
      exact .inl ⟨_, _, _, .misconfigured herror⟩
    · have hne : ∀ p, e ≠ .problem p := fun p hp => hproblem ⟨p, hp⟩
      refine .inr ⟨e, hne, rfl, ?_⟩
      rw [run_of_unforeseen hne herror]
      exact (w.load_leads env args).trans (fail_leads ..)
  · rcases htraverse : loaded.traverse env args settings with ⟨found, e | run⟩
    · exact .inl ⟨_, _, _, .untraversed hload htraverse⟩
    · exact .inl ⟨_, _, _, .finished ⟨loaded, settings, hload, htraverse⟩⟩

theorem extractDirectory_of_traverse {settings : Settings} {found : World} {run : DirectoryRun}
    (h : w.traverse env args settings = (found, .ok run)) :
    extractDirectory w.fs (env.between w.fs) env.parse settings args.sourceDir = .ok run := by
  unfold traverse at h
  dsimp only at h
  split at h
  · cases h
  · next hrun =>
    cases h
    exact hrun

namespace Submits

/-- The messages of the diagnostics are in one line. -/
theorem inLine (h : w.Submits env args before sink fatal) (hparse : Syntax.Faithful env.parse) :
    ∀ d ∈ sink, InLine d.message := by
  cases h with
  | misconfigured => exact fun d hd => absurd hd List.not_mem_nil
  | untraversed => exact fun d hd => absurd hd List.not_mem_nil
  | finished hextracts =>
    obtain ⟨loaded, settings, -, htraverse⟩ := hextracts
    intro d hd
    exact (extractDirectory_wellWorded hparse (extractDirectory_of_traverse htraverse) d hd).inLine

/-- **What was submitted is what becomes of the log in the end**, where the files of the run are at places
of their own. -/
theorem logLeft (h : w.Submits env args before sink fatal) (happart : w.Apart env args)
    (hlater : World.Apart { (w.load env args).1 with fs := env.between (w.load env args).1.fs } env args) :
    LogLeft before.fs (logEntries sink fatal) args.errorLog (w.run env args).world.fs := by
  cases h with
  | misconfigured hrefused =>
    rw [run_of_problem hrefused]
    exact (abort_aborted happart (w.load_leads env args) _).log
  | untraversed hload hfailed =>
    have hleads := w.load_leads env args
    rw [hload] at hleads
    rw [run_of_load hload, extract_of_error hfailed]
    exact (abort_aborted happart (hleads.trans (traverse_leads_of_error hfailed)) _).log
  | finished hextracts =>
    rw [hextracts.run_eq]
    exact finish_log (hextracts.apart hlater) _

/-- The line feeds inside the entries are those inside the paths of the diagnostics and inside the fatal
entries. -/
theorem sum_breaks (h : w.Submits env args before sink fatal) (hparse : Syntax.Faithful env.parse) :
    ((logEntries sink fatal).map breaks).sum =
      (sink.map fun d => breaks d.filePath).sum + (fatal.map breaks).sum := by
  have hrender : (sink.map Diagnostic.render).map breaks = sink.map fun d => breaks d.filePath := by
    rw [List.map_map]
    exact List.map_congr_left fun d hd => breaks_render (h.inLine hparse d hd)
  rw [logEntries, List.map_append, List.sum_append, hrender]

end Submits

theorem length_logEntries (sink : List Diagnostic) (fatal : List Text) :
    (logEntries sink fatal).length = sink.length + fatal.length := by
  rw [logEntries, List.length_append, List.length_map]

/-- **What is in the error log** after its writer, and in the end if the files of the run are at places of
their own. -/
structure LogReads (w : World) (env : Environment) (args : Arguments) (before : World)
    (entries : List Text) (bytes : Utf8.Bytes) : Prop where
  written : (writeDiagnostics before.fs entries args.errorLog).fs.read args.errorLog = .ok bytes
  left : w.Apart env args →
    World.Apart { (w.load env args).1 with fs := env.between (w.load env args).1.fs } env args →
    (w.run env args).world.fs.read args.errorLog = .ok bytes

/-- What the writer leaves is there in the end. -/
theorem Submits.logReads {bytes : Utf8.Bytes} (h : w.Submits env args before sink fatal)
    (hread : ∀ fs, LogLeft before.fs (logEntries sink fatal) args.errorLog fs →
      fs.read args.errorLog = .ok bytes) :
    w.LogReads env args before (logEntries sink fatal) bytes :=
  ⟨hread _ (writeDiagnostics_logLeft ..), fun happart hlater => hread _ (h.logLeft happart hlater)⟩

/-- **The lines of the error log.** A run submits its diagnostics and fatal entries to the error log, or fails
in a way that none of its steps foresees, with nothing written. If all entries are written, the count that is
told is their number. The log has a line for each of them, and one more for each line feed inside the path of
a diagnostic or inside a fatal entry; so entries and lines are as many just when there is no such line feed.
If an entry has no bytes, the log has the lines of the entries before it, and no count is told. -/
theorem run_log_lines (w : World) (env : Environment) (args : Arguments)
    (hparse : Syntax.Faithful env.parse) :
    ((∃ before sink fatal, w.Submits env args before sink fatal) ∨
      ∃ e, (∀ p, e ≠ .problem p) ∧ (w.load env args).2 = .error e ∧
        w.Leads [] [] (w.run env args).world) ∧
    ∀ before sink fatal, w.Submits env args before sink fatal →
      (∀ n, (writeDiagnostics before.fs (logEntries sink fatal) args.errorLog).result = .ok n →
        n = sink.length + fatal.length ∧
        ∃ bytes, w.LogReads env args before (logEntries sink fatal) bytes ∧
          bytes.count 0x0a = n + (sink.map fun d => breaks d.filePath).sum + (fatal.map breaks).sum ∧
          (bytes.count 0x0a = n ↔
            (∀ d ∈ sink, breaks d.filePath = 0) ∧ ∀ entry ∈ fatal, breaks entry = 0)) ∧
      ∀ cause, (writeDiagnostics before.fs (logEntries sink fatal) args.errorLog).result =
          .error (.unencodable cause) →
        ∃ kept bytes, CutShort (logEntries sink fatal) kept ∧
          kept.length < sink.length + fatal.length ∧
          w.LogReads env args before (logEntries sink fatal) bytes ∧
          bytes.count 0x0a = kept.length + (kept.map breaks).sum := by
  refine ⟨exists_submits w env args, fun before sink fatal hsubmits => ⟨fun n hok => ?_, ?_⟩⟩
  · obtain ⟨hlength, hsound, -⟩ := (writeDiagnostics_logLeft ..).of_ok hok
    -- every entry was written, so the lines can be counted over all of them
    have hlines := count_logBytes hsound
    rw [← hlength, hsubmits.sum_breaks hparse, ← Nat.add_assoc] at hlines
    refine ⟨hlength.trans (length_logEntries ..), _,
      hsubmits.logReads fun fs hleft => (hleft.of_ok hok).2.2, hlines, ?_⟩
    have hnone : n + (sink.map fun d => breaks d.filePath).sum + (fatal.map breaks).sum = n ↔
        (sink.map fun d => breaks d.filePath).sum = 0 ∧ (fatal.map breaks).sum = 0 := by omega
    rw [hlines, hnone, List.sum_eq_zero_iff_forall_eq_nat, List.sum_eq_zero_iff_forall_eq_nat,
      List.forall_mem_map, List.forall_mem_map]
  · intro cause hcut
    -- only the entries before the first surrogate are in the file
    obtain ⟨kept, hshort, -⟩ := (writeDiagnostics_logLeft ..).of_unencodable hcut
    have hshorter := hshort.length_lt
    rw [length_logEntries] at hshorter
    refine ⟨kept, _, hshort, hshorter, hsubmits.logReads fun fs hleft =>
      (hleft.of_unencodable hcut).choose_spec.2, ?_⟩
    rw [hshort.logBytes_fst, count_logBytes hshort.1]

/-! ## Names that the log does not take well -/

/-- Without log files, logging leaves the files alone. -/
theorem fs_log_of_unlogged (h : w.logging.files = []) (records : List Log.Record) :
    (w.log records).fs = w.fs := by
  simp only [log, h, List.foldl_nil]

theorem fs_writeErrorLog_of_unlogged (h : w.logging.files = []) (entries : List Text) (path : Text) :
    (w.writeErrorLog entries path).1.fs = (writeDiagnostics w.fs entries path).fs := by
  rcases w.writeErrorLog_eq entries path with hwrite | ⟨records, hwrite⟩
  · rw [hwrite]
  · simp only [hwrite, log, h, List.foldl_nil]

/-- Without log files and without a report, the writer of the error log has the last word. -/
theorem fs_run_of_unlogged {found : World} {run : DirectoryRun} (h : w.Extracts env args found run)
    (hfiles : found.logging.files = []) (hreport : args.reportDir = none) :
    (w.run env args).world.fs = (writeDiagnostics (found.writeOutput args run).1.fs
      (logEntries run.diagnostics (found.writeOutput args run).2) args.errorLog).fs := by
  have houtput : (found.writeOutput args run).1.logging.files = [] :=
    (found.writeOutput_leads args run).files.trans hfiles
  have hserialized : (found.serialize args run).world.logging.files = [] :=
    (found.serialize_leads args run).files.trans hfiles
  have hfinish : (found.finish env args run).world.fs = (found.serialize args run).world.fs := by
    by_cases hsettles : found.Settles args run
    · rw [hsettles.finish_eq, report, hreport]
      unfold conclude
      dsimp only [Option.filter]
      split_ifs
      · exact fs_log_of_unlogged hserialized _
      · rfl
    · obtain ⟨message, hfailed⟩ := finish_eq_of_not_settles env hsettles
      rw [hfailed]
      exact fs_log_of_unlogged hserialized _
  rw [h.run_eq, hfinish, fs_serialize, fs_writeErrorLog_of_unlogged houtput]
  rfl

end World

/-- Nothing but a schema file with a block that never ends. -/
def unclosed (name : Text) : FileSystem where
  entries := [(name, .file (Utf8.encode "message A \x7b"))]

/-- The report on that block. -/
def unclosedReport (name : Text) : Diagnostic where
  filePath := name
  message := "Reached end of file with unclosed message 'A' starting at line 1"
  kind := .unterminatedBlock

/-- The visit of that file. -/
def unclosedVisit (name : Text) : Visit where
  relative := name
  outcome := schemaOutcome name name (Utf8.encode "message A \x7b")

/-- **A file of the root that a run takes**: what has to be known of its name and its path. -/
structure TakenInRoot (name path : Text) : Prop where
  isName : Path.IsName name
  append : Path.append "/" name = path
  nonempty : path.isEmpty = false
  pieces : Path.pieces (Path.append "/" path) = [("" : Text), name]
  baseName : Path.baseName path = name
  relative : Path.relative "/" "/" path = name
  takes : ({} : Settings).takes name name = true
  kind : ({} : Settings).kindFor? name = some .schema
  apart : name ≠ "output.json" ∧ name ≠ "errors.log"
  result : (unclosedVisit name).result = { diagnostics := [unclosedReport name] }

/-- Arguments for the whole file system, with nothing but the two files that are always written. -/
def plainArguments : Arguments :=
  { sourceDir := "/", outputFile := "/output.json", errorLog := "/errors.log" }

/-- A surrounding in which nothing happens, with a parser that can be relied on. -/
def coarse : Environment :=
  { calm with parse := coarseParse }

/-- The file system with that file, and no log files. -/
def unclosedWorld (name : Text) : World :=
  { fs := unclosed name }

namespace TakenInRoot

variable {name path : Text}

theorem discoverAt_eq (h : TakenInRoot name path) :
    discoverAt (unclosed name) {} "/" = .ok ⟨[path], []⟩ := by
  have hpieces : Path.pieces (Path.append "/" "/") = [("" : Text), ""] := by decide +kernel
  have hentry : (unclosed name).entry "/" = .ok (.directory (unclosed name).entries) := by
    simp [FileSystem.entry, FileSystem.locate, unclosed, hpieces, locateFrom, Trail.here, Trail.place,
      bind, Except.bind]
  rw [discoverAt, hentry]
  simp [discoverIn, sightings, branches, FileSystem.filesIn, FileSystem.showsFile,
    FileSystem.listingCause?, unclosed, h.append, h.relative, h.baseName, h.takes, Sighting.file?,
    Sighting.unlistable?]

theorem visitDiscovered_eq (h : TakenInRoot name path) (parse : Utf8.Bytes → Syntax.Node) :
    visitDiscovered (unclosed name) parse {} "/" path = .ok (unclosedVisit name) := by
  have hentry : (unclosed name).entry path = .ok (.file (Utf8.encode "message A \x7b")) := by
    simp [FileSystem.entry, FileSystem.locate, unclosed, h.nonempty, h.pieces, locateFrom, h.isName.1,
      h.isName.2.1, h.isName.2.2.1, Trail.here, Entries.get?, bind, Except.bind]
  have hfile : (unclosed name).isFile path = true := by
    rw [FileSystem.isFile, hentry]
    rfl
  have hread : (unclosed name).readSource path = .ok (Utf8.encode "message A \x7b") := by
    simp [FileSystem.readSource, FileSystem.read, hentry, show (unclosed name).unreadable = [] from rfl]
  have hkind : ({} : Settings).kindFor? (Path.baseName path) = some .schema := by rw [h.baseName, h.kind]
  have hrelative : Path.relative (unclosed name).cwd "/" path = name := h.relative
  rw [visitDiscovered, visitFile_of_isFile hfile hkind, hrelative]
  simp only [fileOutcome, hread, h.baseName, unclosedVisit]

/-- The run over that file finds nothing but the block that never ends. -/
theorem extracts (h : TakenInRoot name path) :
    ∃ found run, (unclosedWorld name).Extracts coarse plainArguments found run ∧
      found.fs = unclosed name ∧ found.logging.files = [] ∧ run.diagnostics = [unclosedReport name] ∧
      run.elements = [] := by
  have hroot : Path.absolute (unclosed name).cwd "/" = "/" := by
    have hcwd : (unclosed name).cwd = "/" := rfl
    rw [hcwd]
    decide +kernel
  have hfound : discoverAt (unclosed name) {} (Path.absolute (unclosed name).cwd "/") =
      .ok ⟨[path], []⟩ := by rw [hroot, h.discoverAt_eq]
  obtain ⟨run, hrun, haccounts⟩ : ∃ run,
      extractInto {} (unclosed name) (unclosed name) coarseParse {} "/" = .ok run ∧
        run.Accounts {} (unclosed name) (unclosed name) coarseParse {} "/" :=
    extractInto_of_discoverAt hfound
  have hdirectory := extractDirectory_eq_ok_iff.mpr hrun
  have hdiscovered : run.discovered = ⟨[path], []⟩ :=
    Except.ok.inj (haccounts.discovered.symm.trans hfound)
  -- one file was found, so there is one visit
  have hvisits : run.visits = [unclosedVisit name] := by
    have hvisits := haccounts.visits
    rw [hdiscovered, hroot, List.map_singleton, h.visitDiscovered_eq] at hvisits
    obtain ⟨visit, hsingle, hok⟩ := List.map_eq_singleton_iff.mp hvisits.symm
    rw [hsingle, Except.ok.inj hok]
  have hreports : run.diagnostics = [unclosedReport name] := by
    rw [(extractDirectory_reports hdirectory).2.2, hdiscovered, hvisits]
    simp [Discovered.diagnostics, h.result]
  have helements : run.elements = [] := by
    rw [haccounts.elements, hvisits]
    simp [h.result]
  -- no log files, and nothing happens in between: the run sees the file system as it is
  have htaken : extractDirectory ((unclosedWorld name).load coarse plainArguments).1.fs
      (coarse.between ((unclosedWorld name).load coarse plainArguments).1.fs) coarse.parse {}
      plainArguments.sourceDir = .ok run := hdirectory
  obtain ⟨found, htraverse, hfs, hfiles⟩ : ∃ found,
      ((unclosedWorld name).load coarse plainArguments).1.traverse coarse plainArguments {} =
        (found, .ok run) ∧ found.fs = unclosed name ∧ found.logging.files = [] := by
    unfold World.traverse
    simp only [htaken]
    exact ⟨_, rfl, rfl, rfl⟩
  exact ⟨found, run, ⟨_, {}, rfl, htraverse⟩, hfs, hfiles, hreports, helements⟩

/-- The elements can be written, and the error log after them. -/
theorem writes (h : TakenInRoot name path) :
    (writeElements (unclosed name) (.list []) "/output.json").result = .ok 0 ∧
      Openable (writeElements (unclosed name) (.list []) "/output.json").fs "/errors.log" := by
  have helements : writeElements (unclosed name) (.list []) "/output.json" =
      (writeFresh (unclosed name) "/output.json" (Utf8.encode "[]\n")).as 0 := rfl
  have hfree : ∀ other, name ≠ other → (unclosed name).entries.get? other = none := by
    intro other hne
    simp [unclosed, Entries.get?, hne]
  have houtput : ∀ bytes, writeFresh (unclosed name) "/output.json" bytes =
      ⟨.ok (), (unclosed name).putAt [("output.json" : Text)] (.file bytes)⟩ :=
    writeFresh_root rfl (by decide) (by decide +kernel) (by decide +kernel) (by decide +kernel) (by decide)
      (.inl (hfree _ h.apart.1))
  rw [helements, houtput, Written.fs_as]
  refine ⟨rfl, openable_root "errors.log" rfl (by decide) (by decide +kernel) (by decide +kernel)
    (by decide +kernel) (by decide) (.inl ?_)⟩
  change ((unclosed name).entries.put "output.json" _).get? "errors.log" = none
  rw [Entries.get?_put, if_neg (by decide), hfree _ h.apart.2]

/-- **What the run over that file submits to its error log**, which can be written. -/
theorem submits (h : TakenInRoot name path) :
    ∃ before, (unclosedWorld name).Submits coarse plainArguments before [unclosedReport name] [] ∧
      Openable before.fs "/errors.log" ∧
      ((unclosedWorld name).run coarse plainArguments).world.fs =
        (writeDiagnostics before.fs (World.logEntries [unclosedReport name] []) "/errors.log").fs := by
  obtain ⟨found, run, hextracts, hfs, hfiles, hreports, helements⟩ := h.extracts
  have hwritten : found.writeElements plainArguments run =
      writeElements (unclosed name) (.list []) "/output.json" := by
    rw [World.writeElements, hfs, helements]
    rfl
  obtain ⟨houtput, hlog⟩ := h.writes
  have hfatal : (found.writeOutput plainArguments run).2 = [] :=
    World.writeOutput_of_ok (hwritten ▸ houtput)
  have hbefore : (found.writeOutput plainArguments run).1.fs =
      (writeElements (unclosed name) (.list []) "/output.json").fs := by
    obtain ⟨records, houtputs⟩ := found.writeOutput_eq plainArguments run
    simp only [houtputs, World.log, Log.Logging.files_enter, hfiles, List.foldl_nil, hwritten]
  have hsubmits := World.Submits.finished hextracts
  have hrun := World.fs_run_of_unlogged hextracts hfiles rfl
  rw [hreports, hfatal] at hsubmits hrun
  exact ⟨_, hsubmits, hbefore ▸ hlog, hrun⟩

end TakenInRoot

/-- A name over two lines. -/
def wrappedName : Text :=
  "a\nb.proto"

theorem takenInRoot_wrappedName : TakenInRoot wrappedName "/a\nb.proto" := by
  constructor <;> decide +kernel

/-- What the run over that name submits is written. -/
theorem submits_wrappedName :
    ∃ before, (unclosedWorld wrappedName).Submits coarse plainArguments before
        [unclosedReport wrappedName] [] ∧
      (writeDiagnostics before.fs (World.logEntries [unclosedReport wrappedName] [])
        "/errors.log").result = .ok 1 ∧
      ((unclosedWorld wrappedName).run coarse plainArguments).world.fs =
        (writeDiagnostics before.fs (World.logEntries [unclosedReport wrappedName] [])
          "/errors.log").fs := by
  obtain ⟨before, hsubmits, hopen, hrun⟩ := takenInRoot_wrappedName.submits
  have hsound : (logBytes (World.logEntries [unclosedReport wrappedName] [])).2 = none := by
    decide +kernel
  refine ⟨before, hsubmits, ?_, hrun⟩
  rw [(hopen.writeDiagnostics _).1, hsound]
  rfl

/-- A name that starts with a surrogate. -/
def halfName : Text :=
  loneSurrogate ++ ".proto"

theorem takenInRoot_halfName : TakenInRoot halfName ("/" ++ halfName) := by
  constructor <;> decide +kernel

/-- What the run over that name submits has no bytes. -/
theorem submits_halfName :
    ∃ before cause, (unclosedWorld halfName).Submits coarse plainArguments before
        [unclosedReport halfName] [] ∧
      (writeDiagnostics before.fs (World.logEntries [unclosedReport halfName] [])
        "/errors.log").result = .error (.unencodable cause) ∧
      ((unclosedWorld halfName).run coarse plainArguments).world.fs =
        (writeDiagnostics before.fs (World.logEntries [unclosedReport halfName] [])
          "/errors.log").fs := by
  obtain ⟨before, hsubmits, hopen, hrun⟩ := takenInRoot_halfName.submits
  obtain ⟨cause, hcause⟩ : ∃ cause, (logBytes (World.logEntries [unclosedReport halfName] [])).2 =
      some cause := Option.isSome_iff_exists.mp (by decide +kernel)
  refine ⟨before, cause, hsubmits, ?_, hrun⟩
  rw [(hopen.writeDiagnostics _).1, hcause]
  rfl

/-- A run over a name in two lines tells of one entry, and its path takes the error log to a second line. A
run over a name with a surrogate cannot write its entry, and the error log has no line. -/
theorem World.run_log_lines_of_unclosed :
    Syntax.Faithful coarse.parse ∧
      (∃ before bytes, (unclosedWorld wrappedName).Submits coarse plainArguments before
          [unclosedReport wrappedName] [] ∧
        (writeDiagnostics before.fs (World.logEntries [unclosedReport wrappedName] [])
          "/errors.log").result = .ok 1 ∧
        ((unclosedWorld wrappedName).run coarse plainArguments).world.fs.read "/errors.log" = .ok bytes ∧
        bytes.count 0x0a = 1 + breaks wrappedName) ∧
      ∃ before cause bytes, (unclosedWorld halfName).Submits coarse plainArguments before
          [unclosedReport halfName] [] ∧
        (writeDiagnostics before.fs (World.logEntries [unclosedReport halfName] [])
          "/errors.log").result = .error (.unencodable cause) ∧
        ((unclosedWorld halfName).run coarse plainArguments).world.fs.read "/errors.log" = .ok bytes ∧
        bytes.count 0x0a = 0 := by
  refine ⟨coarseParse_faithful, ?_, ?_⟩
  · obtain ⟨before, hsubmits, hwritten, hrun⟩ := submits_wrappedName
    obtain ⟨-, hlines⟩ :=
      World.run_log_lines (unclosedWorld wrappedName) coarse plainArguments coarseParse_faithful
    obtain ⟨-, bytes, hreads, hcount, -⟩ := (hlines before _ [] hsubmits).1 1 hwritten
    refine ⟨before, bytes, hsubmits, hwritten, ?_, by simpa [unclosedReport] using hcount⟩
    rw [hrun]
    exact hreads.written
  · obtain ⟨before, cause, hsubmits, hcut, hrun⟩ := submits_halfName
    obtain ⟨-, hlines⟩ :=
      World.run_log_lines (unclosedWorld halfName) coarse plainArguments coarseParse_faithful
    obtain ⟨kept, bytes, -, hkept, hreads, hcount⟩ := (hlines before _ [] hsubmits).2 cause hcut
    -- there is no entry before the only one
    obtain rfl : kept = [] := List.eq_nil_of_length_eq_zero (Nat.lt_one_iff.mp hkept)
    refine ⟨before, cause, bytes, hsubmits, hcut, ?_, hcount⟩
    rw [hrun]
    exact hreads.written

/-- **An entry can take more than one line**: the run tells of one entry, and the error log has two lines in
the end. -/
theorem World.run_breaks_line :
    ∃ before bytes, (unclosedWorld wrappedName).Submits coarse plainArguments before
        [unclosedReport wrappedName] [] ∧
      (writeDiagnostics before.fs (World.logEntries [unclosedReport wrappedName] [])
        "/errors.log").result = .ok 1 ∧
      ((unclosedWorld wrappedName).run coarse plainArguments).world.fs.read "/errors.log" = .ok bytes ∧
      bytes.count 0x0a = 2 := by
  obtain ⟨before, hsubmits, hwritten, hrun⟩ := submits_wrappedName
  refine ⟨before, (logBytes (World.logEntries [unclosedReport wrappedName] [])).1, hsubmits, hwritten,
    ?_, ?_⟩
  · rw [hrun]
    exact ((writeDiagnostics_logLeft ..).of_ok hwritten).2.2
  · decide +kernel

end Gleaner
