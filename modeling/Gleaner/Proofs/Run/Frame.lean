import Gleaner.Run
import Gleaner.Proofs.Artifact.Report

/-!
# What the stages of a run touch

Every stage of a run logs, and may write one file. So what a stage touches are the places of the log
files and the place of its own file. The log files are the same all along, and so are the places that
paths point to, which is why stages can be put one after the other.

## Main definitions

* `World.logPlaces`: the places of the log files
* `World.Leads`: what a part of a run touches, besides the log files
* `World.LogSettled`: whether a run goes on after its error log

## Main results

* `World.log_leads`: logging touches the log files only
* `World.writeOutput_leads`, `World.writeErrorLog_leads`, `World.report_leads`: the stages that write
* `World.Leads.read`: what is written stays, unless its place is touched
-/

namespace Gleaner

open Gleaner.CommandLine (Arguments)

variable {fs : FileSystem} {w w' w'' : World} {touched made : List (List Text)} {path : Text}

/-! ## Log files -/

theorem Log.Logging.files_enter (l : Log.Logging) (phase : Text) : (l.enter phase).files = l.files :=
  rfl

theorem Log.Logging.files_leave (l : Log.Logging) : l.leave.files = l.files :=
  rfl

theorem Log.Logging.files_setRunId (l : Log.Logging) (fresh : Text) :
    (l.setRunId fresh none).files = l.files :=
  rfl

theorem World.appendLines_spreads (fs : FileSystem) (path : Text) (lines : List Text) :
    fs.Spreads [fs.resolve path] [] (World.appendLines fs path lines) := by
  unfold World.appendLines
  split
  · next after happend => exact FileSystem.spreads_of_modify happend
  · exact .refl fs _ _

/-- Files that are added to one after the other. -/
theorem foldl_appendLines_spreads (lines : Text → List Text) (files : List Text)
    (fs : FileSystem) :
    fs.Spreads (files.map fs.resolve) []
      (files.foldl (fun fs path => World.appendLines fs path (lines path)) fs) := by
  induction files generalizing fs with
  | nil => exact .refl fs _ _
  | cons path files ih =>
    have hfirst := World.appendLines_spreads fs path (lines path)
    have hrest := ih (World.appendLines fs path (lines path))
    -- the files that follow are where they were before the first one was added to
    rw [show FileSystem.resolve _ = fs.resolve from funext hfirst.resolve_eq] at hrest
    rw [List.map_cons, List.foldl_cons]
    exact (hfirst.mono (List.cons_subset_cons _ (List.nil_subset _)) (List.Subset.refl _)).trans
      (hrest.mono (List.subset_cons_self ..) (List.Subset.refl _))

namespace World

/-- The places of the log files. -/
def logPlaces (w : World) : List (List Text) :=
  w.logging.files.map w.fs.resolve

/-- **What a part of a run touches**: the log files, which stay the same, and the places given; and
where it makes directories. -/
structure Leads (w : World) (touched made : List (List Text)) (w' : World) : Prop where
  files : w'.logging.files = w.logging.files
  spreads : w.fs.Spreads (w.logPlaces ++ touched) made w'.fs

namespace Leads

protected theorem refl (w : World) (touched made : List (List Text)) : w.Leads touched made w :=
  ⟨rfl, .refl ..⟩

theorem mono {touched' made' : List (List Text)} (h : w.Leads touched made w')
    (htouched : touched ⊆ touched') (hmade : made ⊆ made') : w.Leads touched' made' w' :=
  ⟨h.files, h.spreads.mono (List.append_subset.mpr ⟨List.subset_append_left ..,
    List.Subset.trans htouched (List.subset_append_right ..)⟩) hmade⟩

theorem resolve_eq (h : w.Leads touched made w') (path : Text) :
    w'.fs.resolve path = w.fs.resolve path :=
  h.spreads.resolve_eq path

theorem above_eq (h : w.Leads touched made w') (path : Text) : w'.fs.above path = w.fs.above path :=
  h.spreads.above_eq path

theorem logPlaces_eq (h : w.Leads touched made w') : w'.logPlaces = w.logPlaces := by
  rw [logPlaces, logPlaces, h.files]
  exact List.map_congr_left fun path _ => h.resolve_eq path

theorem trans (h : w.Leads touched made w') (h' : w'.Leads touched made w'') :
    w.Leads touched made w'' := by
  refine ⟨h'.files.trans h.files, h.spreads.trans ?_⟩
  rw [← h.logPlaces_eq]
  exact h'.spreads

/-- Parts that touch different places. -/
theorem append {touched' made' : List (List Text)} (h : w.Leads touched made w')
    (h' : w'.Leads touched' made' w'') : w.Leads (touched ++ touched') (made ++ made') w'' :=
  (h.mono (List.subset_append_left ..) (List.subset_append_left ..)).trans
    (h'.mono (List.subset_append_right ..) (List.subset_append_right ..))

/-- **What can be read stays**, unless its place is touched. -/
theorem read {bytes : Utf8.Bytes} (h : w.Leads touched made w') (hread : w.fs.read path = .ok bytes)
    (hlogs : w.fs.resolve path ∉ w.logPlaces) (hplace : w.fs.resolve path ∉ touched) :
    w'.fs.read path = .ok bytes :=
  h.spreads.read hread (by simp [hlogs, hplace])

end Leads

/-- **Logging touches the log files only.** -/
theorem log_leads (w : World) (records : List Log.Record) : w.Leads [] [] (w.log records) := by
  refine ⟨rfl, ?_⟩
  rw [List.append_nil]
  exact foldl_appendLines_spreads (fun path => linesFor (.file path) (records.flatMap w.logging.emit)) ..

namespace Leads

theorem log (h : w.Leads touched made w') (records : List Log.Record) :
    w.Leads touched made (w'.log records) :=
  h.trans ((log_leads w' records).mono (List.nil_subset _) (List.nil_subset _))

/-- Naming a run, and opening and closing its phases, leaves the log files as they are. -/
theorem withLogging (h : w.Leads touched made w') {logging : Log.Logging}
    (hfiles : logging.files = w'.logging.files) : w.Leads touched made { w' with logging } :=
  ⟨hfiles.trans h.files, h.spreads⟩

theorem logIn (h : w.Leads touched made w') (phase : Text) (records : List Log.Record) :
    w.Leads touched made (w'.logIn phase records) := by
  have hentered : w.Leads touched made { w' with logging := w'.logging.enter phase } :=
    h.withLogging (Log.Logging.files_enter _ _)
  exact (hentered.log records).withLogging (Log.Logging.files_leave _)

/-- What was written can be read after something was logged about it. -/
theorem log_read {logging : Log.Logging} {bytes : Utf8.Bytes}
    (h : w.Leads touched made { w with fs, logging }) (records : List Log.Record)
    (hread : fs.read path = .ok bytes) (hplace : w.fs.resolve path ∉ w.logPlaces) :
    ({ w with fs, logging }.log records).fs.read path = .ok bytes := by
  rw [← h.logPlaces_eq, ← h.resolve_eq] at hplace
  exact (log_leads { w with fs, logging } records).read hread hplace List.not_mem_nil

theorem of_spreads (h : w.fs.Spreads touched made fs) : w.Leads touched made { w with fs } :=
  ⟨rfl, h.mono (List.subset_append_right ..) (List.Subset.refl _)⟩

end Leads

/-! ## Stages -/

/-- The error log is written, and then something may be logged about it. -/
theorem writeErrorLog_eq (w : World) (lines : List Text) (path : Text) :
    (w.writeErrorLog lines path).1 = { w with fs := (writeDiagnostics w.fs lines path).fs } ∨
      ∃ records, (w.writeErrorLog lines path).1 =
        { w with fs := (writeDiagnostics w.fs lines path).fs }.log records := by
  unfold writeErrorLog
  dsimp only
  split
  · exact .inr ⟨_, rfl⟩
  · exact .inr ⟨_, rfl⟩
  · exact .inl rfl

theorem writeErrorLog_leads (w : World) (lines : List Text) (path : Text) :
    w.Leads [w.fs.resolve path] (w.fs.above path) (w.writeErrorLog lines path).1 := by
  have hwritten := Leads.of_spreads (writeDiagnostics_spreads w.fs lines path)
  rcases w.writeErrorLog_eq lines path with hwrite | ⟨records, hwrite⟩
  · rw [hwrite]
    exact hwritten
  · rw [hwrite]
    exact hwritten.log records

/-- **A run goes on after its error log** if all the lines were written, or if the system refused the
file. -/
def LogSettled (fs : FileSystem) (lines : List Text) (path : Text) : Prop :=
  (∃ n, (writeDiagnostics fs lines path).result = .ok n) ∨
    ∃ cause, (writeDiagnostics fs lines path).result = .error (.access (.os cause))

theorem writeErrorLog_snd_eq_none_iff {lines : List Text} :
    (w.writeErrorLog lines path).2 = none ↔ LogSettled w.fs lines path := by
  unfold writeErrorLog LogSettled
  dsimp only
  split
  · next hresult => simp [hresult]
  · next hresult => simp [hresult]
  · next e hother hresult => simpa [hresult] using hother

/-- The elements are written, and then something is logged about it in a phase of its own. -/
theorem writeOutput_eq (w : World) (args : Arguments) (run : DirectoryRun) :
    ∃ records, (w.writeOutput args run).1 =
      { w with
        fs := (w.writeElements args run).fs
        logging := w.logging.enter "serialization" }.log records := by
  unfold writeOutput
  dsimp only
  split
  · exact ⟨_, rfl⟩
  · exact ⟨_, rfl⟩

theorem writeElements_leads (w : World) (args : Arguments) (run : DirectoryRun) :
    w.Leads [w.fs.resolve args.outputFile] (w.fs.above args.outputFile)
      { w with
        fs := (w.writeElements args run).fs
        logging := w.logging.enter "serialization" } := by
  have hwritten : w.Leads [w.fs.resolve args.outputFile] (w.fs.above args.outputFile)
      { w with fs := (w.writeElements args run).fs } := .of_spreads (writeElements_spreads ..)
  exact hwritten.withLogging (Log.Logging.files_enter _ _)

theorem writeOutput_leads (w : World) (args : Arguments) (run : DirectoryRun) :
    w.Leads [w.fs.resolve args.outputFile] (w.fs.above args.outputFile) (w.writeOutput args run).1 := by
  obtain ⟨records, hwrite⟩ := w.writeOutput_eq args run
  rw [hwrite]
  exact (w.writeElements_leads args run).log records

theorem serialize_eq (w : World) (args : Arguments) (run : DirectoryRun) :
    w.serialize args run =
      let after := (w.writeOutput args run).1.writeErrorLog
        (run.lines ++ (w.writeOutput args run).2) args.errorLog
      ⟨{ after.1 with logging := after.1.logging.leave }, (w.writeOutput args run).2, after.2⟩ := by
  rw [serialize]

theorem fatal_serialize (w : World) (args : Arguments) (run : DirectoryRun) :
    (w.serialize args run).fatal = (w.writeOutput args run).2 := by
  rw [serialize_eq]

theorem fs_serialize (w : World) (args : Arguments) (run : DirectoryRun) :
    (w.serialize args run).world.fs = ((w.writeOutput args run).1.writeErrorLog
      (run.lines ++ (w.writeOutput args run).2) args.errorLog).1.fs := by
  rw [serialize_eq]

theorem failure_serialize (w : World) (args : Arguments) (run : DirectoryRun) :
    (w.serialize args run).failure = ((w.writeOutput args run).1.writeErrorLog
      (run.lines ++ (w.writeOutput args run).2) args.errorLog).2 := by
  rw [serialize_eq]

/-- After the elements, only the error log is touched. -/
theorem serialize_leads_output (w : World) (args : Arguments) (run : DirectoryRun) :
    (w.writeOutput args run).1.Leads [w.fs.resolve args.errorLog] (w.fs.above args.errorLog)
      (w.serialize args run).world := by
  have houtput := w.writeOutput_leads args run
  have hlog := (w.writeOutput args run).1.writeErrorLog_leads
    (run.lines ++ (w.writeOutput args run).2) args.errorLog
  rw [houtput.resolve_eq, houtput.above_eq] at hlog
  rw [serialize_eq]
  exact hlog.withLogging (Log.Logging.files_leave _)

theorem serialize_leads (w : World) (args : Arguments) (run : DirectoryRun) :
    w.Leads [w.fs.resolve args.outputFile, w.fs.resolve args.errorLog]
      (w.fs.above args.outputFile ++ w.fs.above args.errorLog) (w.serialize args run).world :=
  (w.writeOutput_leads args run).append (w.serialize_leads_output args run)

theorem fail_leads (w : World) (message : Text) : w.Leads [] [] (w.fail message).world :=
  log_leads ..

theorem conclude_leads (w : World) (args : Arguments) (fatal : List Text) :
    w.Leads [] [] (w.conclude args fatal).world := by
  unfold conclude
  split_ifs
  · exact log_leads ..
  · exact .refl w [] []

end World

/-- The file of the report, if one is wanted. -/
def reportFile? (env : Environment) (args : Arguments) : Option Text :=
  (args.reportDir.filter (!·.isEmpty)).map fun directory => reportPath directory env.freshId

theorem World.report_leads (w : World) (env : Environment) (args : Arguments) (run : DirectoryRun)
    (fatal : List Text) :
    ∃ made, w.Leads ((reportFile? env args).toList.map w.fs.resolve) made
      (w.report env args run fatal).world := by
  unfold World.report reportFile?
  cases args.reportDir.filter (!·.isEmpty) with
  | none => exact ⟨[], w.conclude_leads args fatal⟩
  | some directory =>
    have hwritten : w.Leads [w.fs.resolve (reportPath directory env.freshId)]
        ((FileSystem.directoriesTo directory.length directory).map w.fs.resolve)
        { w with fs := (w.writeReport env args run fatal directory).fs } :=
      .of_spreads (writeReport_spreads ..)
    refine ⟨(FileSystem.directoriesTo directory.length directory).map w.fs.resolve, ?_⟩
    dsimp only
    split
    · exact (hwritten.log _).trans
        ((World.conclude_leads ..).mono (List.nil_subset _) (List.nil_subset _))
    · exact hwritten.trans ((World.fail_leads ..).mono (List.nil_subset _) (List.nil_subset _))

end Gleaner
