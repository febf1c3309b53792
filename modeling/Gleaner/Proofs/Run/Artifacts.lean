import Gleaner.Proofs.Artifact.Elements
import Gleaner.Proofs.Run.Frame
import Gleaner.Proofs.Settings.Leniency

/-!
# What a run leaves behind

A run ends with status 0 only if the settings were loaded, the directory was taken, and the element file
holds what was extracted. The error log gets the reports in any case, followed by one fatal line if the
run was cut short, and a report tells how the run went. None of the files is disturbed by those that are
written after it, as long as they are at places of their own.

Two things are beyond this. If the settings fail in a way that none of the stages foresees, nothing is
written at all. And a line of the error log with a surrogate, such as the name of a file that is no text
brings along, has no bytes: the log ends with the line before, and the run fails there, without a report.

## Main definitions

* `World.Apart`: the files of a run are at places of their own
* `World.Settles`: whether a run goes on after its error log
* `Aborted`, `Finished`: what a run leaves that is cut short, and one that is not
* `Reported`: what the report of a run tells
* `World.Leaves`: what a run leaves, by how far it gets

## Main results

* `World.abort_aborted`: a run that is cut short leaves one fatal line
* `World.finish_log`, `World.finish_output`, `World.finish_reported`: the files of a run that is finished
* `World.run_leaves`: every run
-/

namespace Gleaner

open Gleaner.CommandLine (Arguments)
open Gleaner.Json (record IsField)

variable {w w' before found : World} {env : Environment} {args : Arguments} {run : DirectoryRun}
  {touched made : List (List Text)}

/-! ## Files at places of their own -/

/-- The files that a run writes. -/
def artifacts (env : Environment) (args : Arguments) : List Text :=
  args.outputFile :: args.errorLog :: (reportFile? env args).toList

/-- **The files of a run are at places of their own**: at different ones, none of them that of a log file,
and the output is not where a directory above the error log is. -/
structure World.Apart (w : World) (env : Environment) (args : Arguments) : Prop where
  distinct : ((artifacts env args).map w.fs.resolve).Nodup
  unlogged : ∀ path ∈ artifacts env args, w.fs.resolve path ∉ w.logPlaces
  clear : w.fs.resolve args.outputFile ∉ w.fs.above args.errorLog

namespace World.Apart

theorem leads (h : w.Apart env args) (hleads : w.Leads touched made w') : w'.Apart env args := by
  have hresolve : w'.fs.resolve = w.fs.resolve := funext hleads.resolve_eq
  refine ⟨?_, ?_, ?_⟩
  · rw [hresolve]
    exact h.distinct
  · rw [hresolve, hleads.logPlaces_eq]
    exact h.unlogged
  · rw [hresolve, hleads.above_eq]
    exact h.clear

theorem output_unlogged (h : w.Apart env args) : w.fs.resolve args.outputFile ∉ w.logPlaces :=
  h.unlogged _ (List.mem_cons_self ..)

theorem errorLog_unlogged (h : w.Apart env args) : w.fs.resolve args.errorLog ∉ w.logPlaces :=
  h.unlogged _ (List.mem_cons_of_mem _ (List.mem_cons_self ..))

/-- The three files, two at a time. -/
theorem separate (h : w.Apart env args) :
    w.fs.resolve args.outputFile ≠ w.fs.resolve args.errorLog ∧
      w.fs.resolve args.outputFile ∉ (reportFile? env args).toList.map w.fs.resolve ∧
      w.fs.resolve args.errorLog ∉ (reportFile? env args).toList.map w.fs.resolve := by
  have hdistinct := h.distinct
  simp only [artifacts, List.map_cons, List.nodup_cons, List.mem_cons, not_or] at hdistinct
  obtain ⟨⟨hlog, hreport⟩, hlogReport, -⟩ := hdistinct
  exact ⟨hlog, hreport, hlogReport⟩

theorem report_unlogged (h : w.Apart env args) {path : Text} (hpath : reportFile? env args = some path) :
    w.fs.resolve path ∉ w.logPlaces :=
  h.unlogged _ (by simp [artifacts, hpath])

end World.Apart

/-! ## The error log -/

theorem LogLeft.leads {fs : FileSystem} {lines : List Text} {path : Text}
    (h : LogLeft fs lines path w.fs) (hleads : w.Leads touched made w')
    (hlogs : w.fs.resolve path ∉ w.logPlaces) (hplace : w.fs.resolve path ∉ touched) :
    LogLeft fs lines path w'.fs := by
  cases h with
  | refused cause hresult => exact .refused cause hresult
  | written hresult hsound hread => exact .written hresult hsound (hleads.read hread hlogs hplace)
  | cut cause hresult hshort hread => exact .cut cause hresult hshort (hleads.read hread hlogs hplace)

/-- An error log after which the run goes on is complete, or was refused by the system. -/
theorem LogLeft.of_settled {before after : FileSystem} {lines : List Text} {path : Text}
    (h : LogLeft before lines path after) (hsettled : World.LogSettled before lines path) :
    (∃ cause, (writeDiagnostics before lines path).result = .error (.access (.os cause))) ∨
      (∀ line ∈ lines, ¬ line.HasSurrogate) ∧ after.read path = .ok (logBytes lines).1 := by
  rcases hsettled with ⟨n, hok⟩ | hrefused
  · exact .inr (h.of_ok hok).2
  · exact .inl hrefused

/-- What is logged about the error log goes elsewhere. -/
theorem World.writeErrorLog_logLeft (w : World) (lines : List Text) {path : Text}
    (h : w.fs.resolve path ∉ w.logPlaces) :
    LogLeft w.fs lines path (w.writeErrorLog lines path).1.fs := by
  have hleft := writeDiagnostics_logLeft w.fs lines path
  rcases w.writeErrorLog_eq lines path with hwrite | ⟨records, hwrite⟩
  · rw [hwrite]
    exact hleft
  · have hwritten : w.Leads [w.fs.resolve path] (w.fs.above path)
        { w with fs := (writeDiagnostics w.fs lines path).fs } :=
      .of_spreads (writeDiagnostics_spreads ..)
    rw [← hwritten.logPlaces_eq, ← hwritten.resolve_eq] at h
    rw [hwrite]
    exact LogLeft.leads hleft (World.log_leads _ records) h List.not_mem_nil

/-! ## Runs that are cut short -/

/-- **A run that is cut short** has status 1 and touches nothing but its error log, with one fatal line in
it. `before` is the world in which that is found out. -/
structure Aborted (w before : World) (args : Arguments) (message : Text) (result : RunResult) :
    Prop where
  status : result.status = 1
  kept : w.Leads [w.fs.resolve args.errorLog] (w.fs.above args.errorLog) result.world
  output : w.fs.SameAt result.world.fs (w.fs.resolve args.outputFile)
  log : LogLeft (before.log [runRecord .error message]).fs [fatalLine message] args.errorLog
    result.world.fs

theorem World.status_abort (w : World) (args : Arguments) (message : Text) :
    (w.abort args message).status = 1 := by
  unfold World.abort
  dsimp only
  split
  · rfl
  · rfl

/-- After the error log, nothing but logging is done. -/
theorem World.abort_leads (w : World) (args : Arguments) (message : Text) :
    ((w.log [runRecord .error message]).writeErrorLog [fatalLine message] args.errorLog).1.Leads [] []
      (w.abort args message).world := by
  unfold World.abort
  dsimp only
  split
  · next hwrite =>
    rw [hwrite]
    exact .refl ..
  · next hwrite =>
    rw [hwrite]
    exact World.fail_leads ..

theorem World.abort_aborted (happart : w.Apart env args) (hleads : w.Leads [] [] before)
    (message : Text) : Aborted w before args message (before.abort args message) := by
  have hlogged := hleads.log [runRecord .error message]
  have hwrite := (before.log [runRecord .error message]).writeErrorLog_leads [fatalLine message]
    args.errorLog
  have hrest := before.abort_leads args message
  have hlog := World.writeErrorLog_logLeft (before.log [runRecord .error message]) [fatalLine message]
    (happart.leads hlogged).errorLog_unlogged
  have hplace := ((happart.leads hlogged).leads hwrite).errorLog_unlogged
  rw [hlogged.resolve_eq, hlogged.above_eq] at hwrite
  have hkept : w.Leads [w.fs.resolve args.errorLog] (w.fs.above args.errorLog)
      (before.abort args message).world :=
    ((hlogged.mono (List.nil_subset _) (List.nil_subset _)).trans hwrite).trans
      (hrest.mono (List.nil_subset _) (List.nil_subset _))
  refine ⟨before.status_abort args message, hkept, hkept.spreads.sameAt ?_ happart.clear, ?_⟩
  · -- the output is neither a log file nor the error log
    rw [List.mem_append, List.mem_singleton, not_or]
    exact ⟨happart.output_unlogged, happart.separate.1⟩
  · exact hlog.leads hrest hplace List.not_mem_nil

/-! ## Runs that are finished -/

/-- The fatal line for elements that cannot be written. -/
def outputFatal (args : Arguments) (e : ArtifactError) : Text :=
  fatalLine ("Failed to write JSON output to " ++ args.outputFile ++ ": " ++ e.message)

namespace World

/-- The lines of the error log of a run that is finished. -/
def logLines (w : World) (args : Arguments) (run : DirectoryRun) : List Text :=
  run.lines ++ (w.writeOutput args run).2

/-- Whether a run that is finished goes on to its report. -/
def Settles (w : World) (args : Arguments) (run : DirectoryRun) : Prop :=
  LogSettled (w.writeOutput args run).1.fs (w.logLines args run) args.errorLog

theorem failure_eq_none_iff : (w.serialize args run).failure = none ↔ w.Settles args run := by
  rw [failure_serialize, writeErrorLog_snd_eq_none_iff]
  rfl

theorem Settles.finish_eq (h : w.Settles args run) : w.finish env args run =
    (w.serialize args run).world.report env args run (w.serialize args run).fatal := by
  simp only [finish, failure_eq_none_iff.mpr h]

theorem finish_eq_of_not_settles (env : Environment) (h : ¬ w.Settles args run) :
    ∃ message, w.finish env args run = (w.serialize args run).world.fail message := by
  cases hfailure : (w.serialize args run).failure with
  | none => exact absurd (failure_eq_none_iff.mp hfailure) h
  | some e => exact ⟨e.message, by simp only [finish, hfailure]⟩

/-- After the error log, only the report is touched. -/
theorem finish_leads (w : World) (env : Environment) (args : Arguments) (run : DirectoryRun) :
    ∃ made, (w.serialize args run).world.Leads
      ((reportFile? env args).toList.map (w.serialize args run).world.fs.resolve) made
      (w.finish env args run).world := by
  by_cases hsettles : w.Settles args run
  · rw [hsettles.finish_eq]
    exact report_leads ..
  · obtain ⟨message, hfinish⟩ := finish_eq_of_not_settles env hsettles
    rw [hfinish]
    exact ⟨[], (fail_leads ..).mono (List.nil_subset _) (List.nil_subset _)⟩

/-- **What is left of the reports and of what was fatal.** -/
theorem finish_log (happart : w.Apart env args) (run : DirectoryRun) :
    LogLeft (w.writeOutput args run).1.fs (w.logLines args run) args.errorLog
      (w.finish env args run).world.fs := by
  have hlog : LogLeft (w.writeOutput args run).1.fs (w.logLines args run) args.errorLog
      (w.serialize args run).world.fs := by
    rw [fs_serialize]
    exact writeErrorLog_logLeft _ _ (happart.leads (w.writeOutput_leads args run)).errorLog_unlogged
  -- the report is written at another place
  obtain ⟨made, hreport⟩ := w.finish_leads env args run
  have happart' := happart.leads (w.serialize_leads args run)
  exact hlog.leads hreport happart'.errorLog_unlogged happart'.separate.2.2

/-- **Once the elements are written, the output holds them**, and what is written later does not disturb
them. -/
theorem finish_output (happart : w.Apart env args) {n : ℕ}
    (hwritten : (w.writeElements args run).result = .ok n) :
    ∃ text : String, elementText (run.elements.map fun e => e.texts.toValue) = .ok text ∧
      (w.finish env args run).world.fs.read args.outputFile = .ok (Utf8.encode text) := by
  obtain ⟨text, htext, hholds⟩ := writeElements_read rfl hwritten
  refine ⟨text, htext, ?_⟩
  have hread : (w.writeOutput args run).1.fs.read args.outputFile = .ok (Utf8.encode text) := by
    obtain ⟨records, hwrite⟩ := w.writeOutput_eq args run
    rw [hwrite]
    exact (w.writeElements_leads args run).log_read records hholds happart.output_unlogged
  -- the error log and the report are written at other places
  have hserialized : (w.serialize args run).world.fs.read args.outputFile = .ok (Utf8.encode text) := by
    have houtput := w.writeOutput_leads args run
    refine (w.serialize_leads_output args run).read hread (happart.leads houtput).output_unlogged ?_
    rw [houtput.resolve_eq, List.mem_singleton]
    exact happart.separate.1
  obtain ⟨made, hreport⟩ := w.finish_leads env args run
  have happart' := happart.leads (w.serialize_leads args run)
  exact hreport.read hserialized happart'.output_unlogged happart'.separate.2.1

/-- What is fatal about the elements. -/
theorem writeOutput_of_ok {n : ℕ} (h : (w.writeElements args run).result = .ok n) :
    (w.writeOutput args run).2 = [] := by
  simp only [writeOutput, h]

theorem writeOutput_of_error {e : ArtifactError} (h : (w.writeElements args run).result = .error e) :
    (w.writeOutput args run).2 = [outputFatal args e] := by
  simp only [writeOutput, h, outputFatal]

/-! ### The status -/

/-- A run whose report is not wanted, or is written, has the status that the fatal lines say. -/
theorem report_status (w : World) (env : Environment) (args : Arguments) (run : DirectoryRun)
    (fatal : List Text) :
    (w.report env args run fatal).status = 1 ∨
      ((w.report env args run fatal).status = 0 ∧ fatal = []) := by
  have hconclude (w : World) : (w.conclude args fatal).status = 1 ∨
      ((w.conclude args fatal).status = 0 ∧ fatal = []) := by
    unfold conclude
    split_ifs with hempty
    · exact .inr ⟨rfl, List.isEmpty_iff.mp hempty⟩
    · exact .inl rfl
  unfold report
  split
  · exact hconclude w
  · dsimp only
    split
    · exact hconclude _
    · exact .inl rfl

/-- A run without fatal lines ends well, unless its report cannot be written. -/
theorem report_status_of_ok
    (h : ∀ directory, args.reportDir.filter (!·.isEmpty) = some directory →
      ∃ path, (w.writeReport env args run [] directory).result = .ok path) :
    (w.report env args run []).status = 0 := by
  unfold report
  split
  · rfl
  · next directory hdirectory =>
    obtain ⟨path, hpath⟩ := h directory hdirectory
    simp only [hpath]
    rfl

end World

/-! ### The report -/

theorem reportEntries_eq (cwd : Text) (args : Arguments) (stats : Stats) (status : String) :
    reportEntries cwd args stats status = record (reportFields cwd args stats status) :=
  rfl

theorem reportFields_fields (cwd : Text) (args : Arguments) (stats : Stats) (status : String) :
    ReportFields (reportFields cwd args stats status) where
  scalar f hf := by
    simp only [reportFields, List.mem_cons, List.not_mem_nil, or_false] at hf
    rcases hf with rfl | rfl | rfl | rfl | rfl | rfl | rfl | rfl <;> trivial
  distinct := by simp [reportFields]
  unnamed := by simp [reportFields]
  untimed := by simp [reportFields]

/-- **The report of a run tells a status**, if it is wanted and can be written: that is what is found in
its file. -/
def Reported (w : World) (env : Environment) (args : Arguments) (run : DirectoryRun)
    (result : RunResult) (status : String) : Prop :=
  ∀ directory path, args.reportDir.filter (!·.isEmpty) = some directory →
    ((w.serialize args run).world.writeReport env args run (w.serialize args run).fatal
      directory).result = .ok path →
    reportFile? env args = some path ∧
      ∃ bytes entries, result.world.fs.read path = .ok bytes ∧ reportOf? bytes = some entries ∧
        Value.lookup? "status" entries = some (.text status)

namespace World

theorem writeReport_eq (w : World) (env : Environment) (args : Arguments) (run : DirectoryRun)
    (fatal : List Text) (directory : Text) :
    w.writeReport env args run fatal directory =
      Gleaner.writeReport w.fs (record (reportFields w.fs.cwd args run.stats
        (finalStatus (!fatal.isEmpty) run.diagnostics.length))) env.freshId env.timestamp directory := by
  rw [← reportEntries_eq, writeReport]

/-- A report that is written stays as it is. -/
theorem report_read {directory path : Text} {fatal : List Text} {bytes : Utf8.Bytes}
    (hdirectory : args.reportDir.filter (!·.isEmpty) = some directory)
    (hresult : (w.writeReport env args run fatal directory).result = .ok path)
    (hread : (w.writeReport env args run fatal directory).fs.read path = .ok bytes)
    (hplace : w.fs.resolve path ∉ w.logPlaces) :
    (w.report env args run fatal).world.fs.read path = .ok bytes := by
  have hwritten : w.Leads [w.fs.resolve (reportPath directory env.freshId)]
      ((FileSystem.directoriesTo directory.length directory).map w.fs.resolve)
      { w with fs := (w.writeReport env args run fatal directory).fs } :=
    .of_spreads (writeReport_spreads ..)
  -- what is logged about the report, and at the end of the run, goes to the log files
  have hlogged := hwritten.log_read [runRecord .info ("Run report written to " ++ path)] hread hplace
  have hleads := hwritten.log [runRecord .info ("Run report written to " ++ path)]
  have hreport : (w.report env args run fatal).world =
      (({ w with fs := (w.writeReport env args run fatal directory).fs }.log
        [runRecord .info ("Run report written to " ++ path)]).conclude args fatal).world := by
    unfold report
    simp only [hdirectory, hresult]
  rw [← hleads.logPlaces_eq, ← hleads.resolve_eq] at hplace
  rw [hreport]
  exact (conclude_leads ..).read hlogged hplace List.not_mem_nil

/-- **What the report of a finished run tells.** -/
theorem finish_reported (happart : w.Apart env args) (hsettles : w.Settles args run) :
    Reported w env args run (w.finish env args run)
      (finalStatus (!(w.writeOutput args run).2.isEmpty) run.diagnostics.length) := by
  intro directory path hdirectory hresult
  have happart' := happart.leads (w.serialize_leads args run)
  -- `hresult` is needed twice, for the writer of the run and for the writer of any fields
  have hok := hresult
  rw [writeReport_eq] at hok
  obtain ⟨hpath, bytes, entries, hread, hentries, hlookup⟩ :=
    writeReport_of_ok (reportFields_fields ..) hok
  have hfile : reportFile? env args = some path := by
    rw [reportFile?, hdirectory, hpath, Option.map_some]
  refine ⟨hfile, bytes, entries, ?_, hentries, ?_⟩
  · -- the file is still as the writer left it
    rw [hsettles.finish_eq]
    refine report_read hdirectory hresult ?_ (happart'.report_unlogged hfile)
    rw [writeReport_eq]
    exact hread
  · -- every field is found under its key, and the status is one of them
    rw [← fatal_serialize]
    have hstatus := hlookup ("status", .text (finalStatus (!(w.serialize args run).fatal.isEmpty)
      run.diagnostics.length)) (by simp [withDefaults, reportFields])
    rwa [Json.fieldAgain_string] at hstatus

/-! ## The stages before anything is written -/

variable {loaded : World} {settings : Settings}

theorem load_leads (w : World) (env : Environment) (args : Arguments) :
    w.Leads [] [] (w.load env args).1 := by
  have hnamed : w.Leads [] [] { w with logging := w.logging.setRunId env.freshId none } :=
    (Leads.refl w [] []).withLogging (Log.Logging.files_setRunId _ _)
  unfold load
  exact hnamed.log _

theorem load_snd_eq_error_iff {e : LoadError} :
    (w.load env args).2 = .error e ↔
      (loadSettings env.yaml w.fs args.strictConfig args.config).result = .error e := by
  unfold load
  dsimp only
  cases (loadSettings env.yaml w.fs args.strictConfig args.config).result <;> simp [Except.map]

/-- A directory that cannot be taken is found out before the files are looked at again. -/
theorem traverse_leads_of_error {e : DiscoveryError}
    (h : loaded.traverse env args settings = (found, .error e)) : loaded.Leads [] [] found := by
  unfold traverse at h
  dsimp only at h
  split at h
  · cases h
    exact (Leads.refl loaded [] []).logIn ..
  · cases h

theorem traverse_leads_of_ok (h : loaded.traverse env args settings = (found, .ok run)) :
    ({ loaded with fs := env.between loaded.fs } : World).Leads [] [] found := by
  unfold traverse at h
  dsimp only at h
  split at h
  · cases h
  · cases h
    exact ((Leads.refl _ [] []).logIn ..).log _

/-- The settings are loaded and the directory is taken; `found` is the world after that. -/
def Extracts (w : World) (env : Environment) (args : Arguments) (found : World) (run : DirectoryRun) :
    Prop :=
  ∃ loaded settings, w.load env args = (loaded, .ok settings) ∧
    loaded.traverse env args settings = (found, .ok run)

/-- Where the files that are there after discovery are at places of their own, they still are when they
are written. -/
theorem Extracts.apart (h : w.Extracts env args found run)
    (hlater : World.Apart { (w.load env args).1 with fs := env.between (w.load env args).1.fs } env args) :
    found.Apart env args := by
  obtain ⟨loaded, settings, hload, htraverse⟩ := h
  rw [hload] at hlater
  exact hlater.leads (traverse_leads_of_ok htraverse)

theorem run_of_load (h : w.load env args = (loaded, .ok settings)) :
    w.run env args = loaded.extract env args settings := by
  unfold World.run
  rw [h]

theorem extract_of_ok (h : loaded.traverse env args settings = (found, .ok run)) :
    loaded.extract env args settings = found.finish env args run := by
  unfold extract
  rw [h]

theorem extract_of_error {e : DiscoveryError}
    (h : loaded.traverse env args settings = (found, .error e)) :
    loaded.extract env args settings =
      found.abort args ("Failed during file traversal: " ++ e.message) := by
  unfold extract
  rw [h]

theorem Extracts.run_eq (h : w.Extracts env args found run) :
    w.run env args = found.finish env args run := by
  obtain ⟨loaded, settings, hload, htraverse⟩ := h
  rw [run_of_load hload, extract_of_ok htraverse]

theorem run_of_problem {p : ConfigProblem} (h : (w.load env args).2 = .error (.problem p)) :
    w.run env args = (w.load env args).1.abort args ("Invalid configuration: " ++ p.message) := by
  rcases hload : w.load env args with ⟨loaded, result⟩
  rw [hload] at h
  subst h
  rw [World.run, hload]

theorem run_of_unforeseen {e : LoadError} (hproblem : ∀ p, e ≠ .problem p)
    (h : (w.load env args).2 = .error e) : w.run env args = (w.load env args).1.fail e.message := by
  rcases hload : w.load env args with ⟨loaded, result⟩
  rw [hload] at h
  subst h
  rw [World.run, hload]
  cases e with
  | problem p => exact absurd rfl (hproblem p)
  | _ => rfl

end World

/-! ## Every run -/

/-- **A run that is finished**: its settings were loaded and its directory was taken, and `w` is the world
after that. -/
structure Finished (w : World) (env : Environment) (args : Arguments) (run : DirectoryRun)
    (result : RunResult) : Prop where
  /-- If the elements cannot be written, the error log gets the reports and a fatal line, and the report
  tells that the run failed. -/
  unwritten : ∀ e, (w.writeElements args run).result = .error e →
    result.status = 1 ∧
      LogLeft (w.writeOutput args run).1.fs (run.lines ++ [outputFatal args e]) args.errorLog
        result.world.fs ∧
      (w.Settles args run → Reported w env args run result "failed")
  /-- Otherwise the output holds the elements, the error log gets the reports, and the report tells whether
  there are any. -/
  written : ∀ n, (w.writeElements args run).result = .ok n →
    (∃ text : String, elementText (run.elements.map fun e => e.texts.toValue) = .ok text ∧
        result.world.fs.read args.outputFile = .ok (Utf8.encode text)) ∧
      LogLeft (w.writeOutput args run).1.fs run.lines args.errorLog result.world.fs ∧
      (w.Settles args run → Reported w env args run result
        (if run.diagnostics = [] then "success" else "partial_success")) ∧
      (w.Settles args run →
        (∀ directory, args.reportDir.filter (!·.isEmpty) = some directory →
          ∃ path, ((w.serialize args run).world.writeReport env args run [] directory).result =
            .ok path) →
        result.status = 0)
  /-- An error log that is cut short, or whose path is none, ends the run before its report. -/
  unsettled : ¬ w.Settles args run → result.status = 1 ∧
    w.Leads [w.fs.resolve args.outputFile, w.fs.resolve args.errorLog]
      (w.fs.above args.outputFile ++ w.fs.above args.errorLog) result.world

/-- **What a run leaves**, by how far it gets. -/
structure World.Leaves (w : World) (env : Environment) (args : Arguments) (result : RunResult) :
    Prop where
  /-- Status 0 is given only if the settings were loaded, the directory was taken, and the output holds
  what was extracted; the error log holds the reports, unless the system refused it. -/
  success : result.status = 0 → ∃ found run, ∃ text : String, w.Extracts env args found run ∧
    elementText (run.elements.map fun e => e.texts.toValue) = .ok text ∧
    result.world.fs.read args.outputFile = .ok (Utf8.encode text) ∧
    ((∃ cause, (writeDiagnostics (found.writeOutput args run).1.fs run.lines args.errorLog).result =
        .error (.access (.os cause))) ∨
      (∀ line ∈ run.lines, ¬ line.HasSurrogate) ∧
        result.world.fs.read args.errorLog = .ok (logBytes run.lines).1)
  /-- Settings that are refused cut the run short. -/
  misconfigured : ∀ p,
    (loadSettings env.yaml w.fs args.strictConfig args.config).result = .error (.problem p) →
    Aborted w (w.load env args).1 args ("Invalid configuration: " ++ p.message) result
  /-- So does a directory that cannot be taken. -/
  untraversed : ∀ loaded settings found e, w.load env args = (loaded, .ok settings) →
    loaded.traverse env args settings = (found, .error e) →
    Aborted w found args ("Failed during file traversal: " ++ e.message) result
  /-- Otherwise the run is finished. -/
  finished : ∀ found run, w.Extracts env args found run → Finished found env args run result
  /-- A failure that is not foreseen ends the run with nothing written at all. -/
  unforeseen : ∀ path e, args.config = some path → Unforeseen env.yaml w.fs path e →
    result.status = 1 ∧ w.Leads [] [] result.world

namespace World

theorem status_of_not_settles (h : ¬ w.Settles args run) : (w.finish env args run).status = 1 := by
  obtain ⟨message, hfinish⟩ := finish_eq_of_not_settles env h
  rw [hfinish]
  rfl

/-- **A run ends well only after its elements were written and its error log was settled.** -/
theorem finish_status (w : World) (env : Environment) (args : Arguments) (run : DirectoryRun) :
    (w.finish env args run).status = 1 ∨
      (w.finish env args run).status = 0 ∧ w.Settles args run ∧
        ∃ n, (w.writeElements args run).result = .ok n := by
  by_cases hsettles : w.Settles args run
  · rw [hsettles.finish_eq]
    refine (report_status ..).imp_right fun ⟨hstatus, hfatal⟩ => ⟨hstatus, hsettles, ?_⟩
    rw [fatal_serialize] at hfatal
    cases hwritten : (w.writeElements args run).result with
    | ok n => exact ⟨n, rfl⟩
    | error e => simp [writeOutput_of_error hwritten] at hfatal
  · exact .inl (status_of_not_settles hsettles)

theorem finish_finished (happart : w.Apart env args) (run : DirectoryRun) :
    Finished w env args run (w.finish env args run) := by
  have hlog := finish_log happart run
  have hreported : w.Settles args run → Reported w env args run (w.finish env args run) _ :=
    finish_reported happart
  rw [logLines] at hlog
  constructor
  · intro e h
    rw [writeOutput_of_error h] at hlog hreported
    refine ⟨?_, hlog, hreported⟩
    rcases w.finish_status env args run with hstatus | ⟨-, -, n, hwritten⟩
    · exact hstatus
    · cases h.symm.trans hwritten
  · intro n h
    -- without a fatal line, only the diagnostics count for the status in the report
    have hfatal := writeOutput_of_ok h
    have hstatus : finalStatus (!([] : List Text).isEmpty) run.diagnostics.length =
        if run.diagnostics = [] then "success" else "partial_success" := by
      simp [finalStatus]
    rw [hfatal, List.append_nil] at hlog
    rw [hfatal, hstatus] at hreported
    refine ⟨finish_output happart h, hlog, hreported, ?_⟩
    intro hsettles hreport
    rw [hsettles.finish_eq, fatal_serialize, hfatal]
    exact report_status_of_ok hreport
  · intro hsettles
    refine ⟨status_of_not_settles hsettles, ?_⟩
    obtain ⟨message, hfinish⟩ := finish_eq_of_not_settles env hsettles
    rw [hfinish]
    exact (w.serialize_leads args run).trans
      ((fail_leads ..).mono (List.nil_subset _) (List.nil_subset _))

/-- A run ends well only after the settings were loaded and the directory was taken. -/
theorem extracts_of_status (h : (w.run env args).status = 0) :
    ∃ found run, w.Extracts env args found run := by
  rcases hload : w.load env args with ⟨loaded, e | settings⟩
  · -- settings that fail give status 1, for a problem or for anything else
    have herror : (w.load env args).2 = .error e := by rw [hload]
    by_cases hproblem : ∃ p, e = .problem p
    · obtain ⟨p, rfl⟩ := hproblem
      rw [run_of_problem herror, status_abort] at h
      cases h
    · rw [run_of_unforeseen (fun p hp => hproblem ⟨p, hp⟩) herror] at h
      cases h
  · rcases htraverse : loaded.traverse env args settings with ⟨found, e | run⟩
    · rw [run_of_load hload, extract_of_error htraverse, status_abort] at h
      cases h
    · exact ⟨found, run, loaded, settings, hload, htraverse⟩

/-- **What every run leaves.** -/
theorem run_leaves (w : World) (env : Environment) (args : Arguments) (happart : w.Apart env args)
    (hlater : World.Apart { (w.load env args).1 with fs := env.between (w.load env args).1.fs } env args) :
    w.Leaves env args (w.run env args) where
  success hstatus := by
    obtain ⟨found, run, hextracts⟩ := extracts_of_status hstatus
    have hfinished := finish_finished (hextracts.apart hlater) run
    rw [hextracts.run_eq] at hstatus ⊢
    rcases found.finish_status env args run with hfailed | ⟨-, hsettles, n, hwritten⟩
    · cases hfailed.symm.trans hstatus
    · obtain ⟨⟨text, htext, hread⟩, hlog, -⟩ := hfinished.written n hwritten
      rw [Settles, logLines, writeOutput_of_ok hwritten, List.append_nil] at hsettles
      exact ⟨found, run, text, hextracts, htext, hread, hlog.of_settled hsettles⟩
  misconfigured p h := by
    rw [run_of_problem (load_snd_eq_error_iff.mpr h)]
    exact abort_aborted happart (w.load_leads env args) _
  untraversed loaded settings found e hload htraverse := by
    have hleads := w.load_leads env args
    rw [hload] at hleads
    rw [run_of_load hload, extract_of_error htraverse]
    exact abort_aborted happart (hleads.trans (traverse_leads_of_error htraverse)) _
  finished found run hextracts := by
    rw [hextracts.run_eq]
    exact finish_finished (hextracts.apart hlater) run
  unforeseen path e hconfig h := by
    have herror := loadSettings_of_unforeseen h args.strictConfig
    rw [← hconfig] at herror
    rw [run_of_unforeseen h.ne_problem (load_snd_eq_error_iff.mpr herror)]
    exact ⟨rfl, (w.load_leads env args).trans (fail_leads ..)⟩

/-- Where no file changes in between, one condition is enough. -/
theorem Apart.later (happart : w.Apart env args) (hbetween : env.between = id) :
    World.Apart { (w.load env args).1 with fs := env.between (w.load env args).1.fs } env args := by
  rw [hbetween]
  exact happart.leads (w.load_leads env args)

end World

/-! ## Runs with a file of settings -/

/-- Nothing but a file of settings. -/
def configWorld (bytes : Utf8.Bytes) : World :=
  { fs := configOnly bytes }

/-- A surrounding in which nothing happens. -/
def calm : Environment :=
  { parse := fun _ => default, yaml := noYaml, freshId := "run", timestamp := "" }

/-- Arguments with a file of settings that is to be right, and with a report. -/
def strictArguments : Arguments :=
  { sourceDir := "/", outputFile := "/output.json", errorLog := "/errors.log", config := some "/c.json",
    strictConfig := true, reportDir := some "/reports" }

theorem view_configOnly_ne_link (bytes : Utf8.Bytes) (place : List Text) (target : Text) :
    (configOnly bytes).view place ≠ some (.link target) := by
  rcases place with _ | ⟨name, _ | ⟨next, rest⟩⟩
  · simp [FileSystem.view, FileSystem.tree, Entry.kind]
  · by_cases hname : "c.json" = name
    · simp [FileSystem.view, FileSystem.tree, configOnly, Entry.at?, Entries.get?, hname, Entry.kind]
    · simp [FileSystem.view, FileSystem.tree, configOnly, Entry.at?, Entries.get?, hname]
  · -- below the file of settings there is nothing
    by_cases hname : "c.json" = name
    · simp [FileSystem.view, FileSystem.tree, configOnly, Entry.at?, Entries.get?, hname]
    · simp [FileSystem.view, FileSystem.tree, configOnly, Entry.at?, Entries.get?, hname]

theorem resolve_configOnly (bytes : Utf8.Bytes) {path : Text} {names : List Text}
    (hpieces : Path.pieces (Path.append "/" path) = ("" : Text) :: names)
    (hnames : ∀ name ∈ names, IsStep name) :
    (configOnly bytes).resolve path = names := by
  have hcwd : (configOnly bytes).cwd = "/" := rfl
  rw [FileSystem.resolve, hcwd, hpieces, View.resolve_skip (by decide),
    View.resolve_of_no_links (view_configOnly_ne_link bytes) _ hnames, List.nil_append]

theorem resolve_configOnly_root (bytes : Utf8.Bytes) : (configOnly bytes).resolve "/" = [] := by
  have hcwd : (configOnly bytes).cwd = "/" := rfl
  have hpieces : Path.pieces (Path.append "/" "/") = [("" : Text), ""] := by decide +kernel
  rw [FileSystem.resolve, hcwd, hpieces, View.resolve_of_all_empty (by decide)]

theorem resolve_errorLog (bytes : Utf8.Bytes) :
    (configOnly bytes).resolve "/errors.log" = [("errors.log" : Text)] :=
  resolve_configOnly bytes (by decide +kernel) (by simp [IsStep])

/-- The error log lies in the root. -/
theorem parent_errorLog (bytes : Utf8.Bytes) :
    Path.parent (Path.absolute (configOnly bytes).cwd "/errors.log") = "/" := by
  have hcwd : (configOnly bytes).cwd = "/" := rfl
  rw [hcwd]
  decide +kernel

theorem above_configOnly (bytes : Utf8.Bytes) : (configOnly bytes).above "/errors.log" = [[], []] := by
  have hdirectories : FileSystem.directoriesTo ("/" : Text).length "/" = [("/" : Text), "/"] := by
    decide +kernel
  rw [FileSystem.above, parent_errorLog]
  simp only [hdirectories, List.map_cons, List.map_nil, resolve_configOnly_root]

theorem apart_configWorld (bytes : Utf8.Bytes) : (configWorld bytes).Apart calm strictArguments := by
  have houtput : (configOnly bytes).resolve "/output.json" = [("output.json" : Text)] :=
    resolve_configOnly bytes (by decide +kernel) (by simp [IsStep])
  have hreport : (configOnly bytes).resolve "/reports/run.json" = [("reports" : Text), "run.json"] :=
    resolve_configOnly bytes (by decide +kernel) (by simp [IsStep])
  have hartifacts : artifacts calm strictArguments =
      [("/output.json" : Text), "/errors.log", "/reports/run.json"] := by decide +kernel
  refine ⟨?_, fun _ _ => List.not_mem_nil, ?_⟩
  · rw [hartifacts]
    simp [configWorld, houtput, resolve_errorLog, hreport]
  · change (configOnly bytes).resolve "/output.json" ∉ (configOnly bytes).above "/errors.log"
    rw [houtput, above_configOnly]
    decide

/-- A list is no map of settings: the run is cut short. -/
theorem World.run_leaves_of_list :
    (configWorld [0x5b, 0x5d]).Apart calm strictArguments ∧
      Aborted (configWorld [0x5b, 0x5d]) ((configWorld [0x5b, 0x5d]).load calm strictArguments).1
        strictArguments "Invalid configuration: Unexpected config payload type: list"
        ((configWorld [0x5b, 0x5d]).run calm strictArguments) := by
  have happart := apart_configWorld [0x5b, 0x5d]
  refine ⟨happart, ?_⟩
  exact (World.run_leaves _ _ _ happart (happart.later rfl)).misconfigured (.payload "list")
    (loadSettings_strict_of_list noYaml)

/-! ### A file that is no text -/

/-- The error log could be written. -/
theorem openable_configOnly (bytes : Utf8.Bytes) : Openable (configOnly bytes) "/errors.log" :=
  openable_root "errors.log" rfl (by decide) (by decide +kernel) (by decide +kernel) (by decide +kernel)
    (by decide) (.inl rfl)

/-- Settings that are no text end a strict run without a line in the error log, which could be written. -/
theorem World.run_of_undecodable :
    (∃ cause, (loadSettings noYaml (configWorld [0xff]).fs true (some "/c.json")).result =
        .error (.undecodable cause)) ∧
      ((configWorld [0xff]).run calm strictArguments).status = 1 ∧
      ∀ lines, ¬ LogLeft (configWorld [0xff]).fs lines strictArguments.errorLog
        ((configWorld [0xff]).run calm strictArguments).world.fs := by
  have herror := loadSettings_of_unforeseen (unforeseen_of_undecodable noYaml) true
  have hrun : (configWorld [0xff]).run calm strictArguments = _ :=
    run_of_unforeseen (unforeseen_of_undecodable noYaml).ne_problem (load_snd_eq_error_iff.mpr herror)
  have hleads : (configWorld [0xff]).Leads [] [] ((configWorld [0xff]).run calm strictArguments).world := by
    rw [hrun]
    exact ((configWorld [0xff]).load_leads calm strictArguments).trans (fail_leads ..)
  refine ⟨⟨_, herror⟩, by rw [hrun]; rfl, ?_⟩
  intro lines hleft
  -- nothing was there, and nothing was touched
  have hunread : ∀ bytes, ((configWorld [0xff]).run calm strictArguments).world.fs.read
      strictArguments.errorLog ≠ .ok bytes := by
    intro bytes hread
    have hnone : (configOnly [0xff]).bytesAt? [("errors.log" : Text)] = none := by decide +kernel
    have hbytes := FileSystem.bytesAt?_of_read hread
    rw [hleads.resolve_eq, hleads.spreads.bytes _ List.not_mem_nil] at hbytes
    change (configOnly [0xff]).bytesAt? ((configOnly [0xff]).resolve "/errors.log") = _ at hbytes
    rw [resolve_errorLog, hnone] at hbytes
    cases hbytes
  cases hleft with
  | refused cause hrefused =>
    have hresult := ((openable_configOnly [0xff]).writeDiagnostics lines).1.symm.trans hrefused
    cases hcause : (logBytes lines).2 <;> simp [hcause] at hresult
  | written _ _ hread => exact hunread _ hread
  | cut _ _ _ hread => exact hunread _ hread

end Gleaner
