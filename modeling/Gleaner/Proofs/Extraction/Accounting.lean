import Gleaner.Extraction
import Gleaner.Java.Parse
import Gleaner.Proofs.Schema.Tracking

/-!
# Every file is accounted for

A run over a directory takes the discovered files one after the other and enters what each yields into
a ledger. Whatever happens to a file is an outcome with a result of its own: nothing that goes wrong
in one file ends the run, and the ledger is the sum of the results. Only the directory itself can
make a run fail.

The files are read in a file system that need not be the one they were discovered in, and Java source
is parsed by any function at all.

## Main definitions

* `Ledger.Adds`: what entering the results of visits adds to a ledger
* `DirectoryRun.Accounts`: the run as the sum of what its files yield

## Main results

* `takeFiles_adds`: taking files adds their results, in order
* `visitDiscovered_result`: a file is given up with diagnostics only, or it is read, and then a Java
  file contributes none
* `extractInto_accounts_for_files`: a run fails exactly when its root cannot be listed, and
  otherwise accounts for every file
-/

namespace Gleaner

open Gleaner.Utf8 (Bytes)
open Gleaner.Syntax (Node)

/-! ## The ledger -/

@[simp] theorem Sink.entries_extend (sink : Sink) (ds : List Diagnostic) :
    (sink.extend ds).entries = sink.entries ++ ds := by
  unfold Sink.extend
  induction ds generalizing sink with
  | nil => simp
  | cons d ds ih => rw [List.foldl_cons, ih, Sink.record, List.append_assoc, List.singleton_append]

/-- **What the results of visits add to a ledger**, one visit after the other. -/
structure Ledger.Adds (start : Ledger) (visits : List Visit) (last : Ledger) : Prop where
  sink : last.sink.entries = start.sink.entries ++ visits.flatMap (·.result.diagnostics)
  elements : last.elements = start.elements ++ visits.flatMap (·.result.elements)
  extracted : last.extracted = start.extracted + (visits.flatMap (·.result.elements)).length
  processed : last.processed = start.processed + visits.countP (!·.result.failed)
  failed : last.failed = start.failed + visits.countP (·.result.failed)

theorem Ledger.Adds.nil (start : Ledger) : start.Adds [] start := by
  constructor <;> simp

/-- Entering one result first adds it in front. -/
theorem Ledger.Adds.cons {start last : Ledger} {visit : Visit} {visits : List Visit}
    (h : (start.enter visit.result).Adds visits last) : start.Adds (visit :: visits) last where
  sink := by rw [h.sink, Ledger.enter, Sink.entries_extend, List.flatMap_cons, List.append_assoc]
  elements := by rw [h.elements, Ledger.enter, List.flatMap_cons, List.append_assoc]
  extracted := by
    rw [h.extracted, Ledger.enter, List.flatMap_cons, List.length_append, Nat.add_assoc]
  processed := by
    rw [h.processed, List.countP_cons]
    cases hfailed : visit.result.failed <;> simp [Ledger.enter, hfailed, Nat.add_comm, Nat.add_assoc]
  failed := by
    rw [h.failed, List.countP_cons]
    cases hfailed : visit.result.failed <;> simp [Ledger.enter, hfailed, Nat.add_comm, Nat.add_assoc]

section Files

variable {fs : FileSystem} {parse : Bytes → Node} {settings : Settings} {root : Text}

/-- **Taking files adds their results, in order.** -/
theorem takeFiles_adds {paths : List Text} {start last : Ledger} {visits : List Visit}
    (h : takeFiles fs parse settings root start paths = .ok (visits, last)) :
    paths.map (visitDiscovered fs parse settings root) = visits.map .ok ∧
      start.Adds visits last := by
  induction paths generalizing start visits with
  | nil =>
    cases h
    exact ⟨rfl, .nil _⟩
  | cons path rest ih =>
    cases hvisit : visitDiscovered fs parse settings root path with
    | error e => simp [takeFiles, hvisit, bind, Except.bind] at h
    | ok visit =>
      cases htaken : takeFiles fs parse settings root (start.enter visit.result) rest with
      | error e => simp [takeFiles, hvisit, htaken, bind, Except.bind] at h
      | ok taken =>
        simp only [takeFiles, hvisit, htaken, bind, Except.bind, pure, Except.pure] at h
        cases h
        obtain ⟨hmap, hadds⟩ := ih htaken
        exact ⟨by rw [List.map_cons, List.map_cons, hvisit, hmap], hadds.cons⟩

/-! ## One file -/

/-- What the result of a file that was given up looks like. -/
def FileResult.GivenUp (r : FileResult) : Prop :=
  r.elements = [] ∧ r.diagnostics ≠ [] ∧ r.failed = true

theorem givenUp_givenUp (relative : Text) (message : String) (kind : DiagnosticKind) :
    (givenUp relative message kind).GivenUp :=
  ⟨rfl, List.cons_ne_nil _ _, rfl⟩

/-- A Java file is given up, or read without a diagnostic. -/
theorem javaOutcome_result (parse : Bytes → Node) (settings : Settings) (relative name : Text)
    (bytes : Bytes) :
    ((javaOutcome parse settings relative name bytes).result relative).GivenUp ∨
      ∃ elements, (javaOutcome parse settings relative name bytes).result relative =
        { elements } := by
  unfold javaOutcome
  split
  · exact .inl (givenUp_givenUp _ _ _)
  · dsimp only
    split
    · -- the tree is clean; what stops the walk through it gives the file up
      unfold Outcome.result
      dsimp only
      split
      · exact .inr ⟨_, rfl⟩
      · exact .inl (givenUp_givenUp _ _ _)
      · exact .inl (givenUp_givenUp _ _ _)
    · exact .inl ⟨rfl, List.cons_ne_nil _ _, rfl⟩

/-- A schema file is given up, or scanned to its end. -/
theorem schemaOutcome_result (relative name : Text) (bytes : Bytes) :
    ((schemaOutcome relative name bytes).result relative).GivenUp ∨
      ((schemaOutcome relative name bytes).result relative).failed = false := by
  unfold schemaOutcome
  split
  · exact .inl (givenUp_givenUp _ _ _)
  · next text _ =>
    obtain ⟨r, hr, hfailed, -⟩ :=
      Schema.scanLines_decomposition relative name (Text.splitLines text)
    refine .inr ?_
    simp only [hr, Outcome.result, hfailed]

/-- A file of a kind is given up, or it is a schema file, or it contributes no diagnostic. -/
theorem fileOutcome_result (fs : FileSystem) (parse : Bytes → Node) (settings : Settings)
    (kind : SourceKind) (path relative : Text) :
    ((fileOutcome fs parse settings kind path relative).result relative).GivenUp ∨
      ((fileOutcome fs parse settings kind path relative).result relative).failed = false ∧
        (kind = .java →
          ((fileOutcome fs parse settings kind path relative).result relative).diagnostics = []) := by
  unfold fileOutcome
  split
  · exact .inl (givenUp_givenUp _ _ _)
  · next bytes _ =>
    cases kind with
    | java =>
      rcases javaOutcome_result parse settings relative (Path.baseName path) bytes with h | ⟨es, h⟩
      · exact .inl h
      · exact .inr ⟨by rw [h], fun _ => by rw [h]⟩
    | schema =>
      rcases schemaOutcome_result relative (Path.baseName path) bytes with h | h
      · exact .inl h
      · exact .inr ⟨h, fun hkind => by cases hkind⟩

theorem Visit.result_mk (relative : Text) (outcome : Outcome) :
    Visit.result ⟨relative, outcome⟩ = outcome.result relative := rfl

theorem visitFile_of_isFile {path : Text} {kind : SourceKind} (hfile : fs.isFile path = true)
    (hkind : settings.kindFor? (Path.baseName path) = some kind) :
    visitFile fs parse settings root path =
      .ok ⟨Path.relative fs.cwd root path,
        fileOutcome fs parse settings kind path (Path.relative fs.cwd root path)⟩ := by
  rw [visitFile, if_pos hfile, hkind]

/-- A discovered file is gone, or it is read as a file of its kind. -/
theorem visitDiscovered_cases {path : Text} {visit : Visit}
    (h : visitDiscovered fs parse settings root path = .ok visit) :
    visit = ⟨Path.relative fs.cwd root path, .vanished⟩ ∨
      ∃ kind, settings.kindFor? (Path.baseName path) = some kind ∧
        visit = ⟨Path.relative fs.cwd root path,
          fileOutcome fs parse settings kind path (Path.relative fs.cwd root path)⟩ := by
  unfold visitDiscovered at h
  split at h
  · exact .inl (Except.ok.inj h).symm
  -- it was not missing, so what is left is a file with a known ending
  · unfold visitFile at h
    split at h
    · split at h
      · cases h
      · next kind hkind => exact .inr ⟨kind, hkind, (Except.ok.inj h).symm⟩
    · cases h

/-- **The result of a discovered file**: it is given up, or it was read, which for a Java file means
without a diagnostic. -/
theorem visitDiscovered_result {path : Text} {visit : Visit}
    (h : visitDiscovered fs parse settings root path = .ok visit) :
    visit.result.GivenUp ∨ visit.result.failed = false ∧
      (settings.kindFor? (Path.baseName path) = some .java → visit.result.diagnostics = []) := by
  rcases visitDiscovered_cases h with rfl | ⟨kind, hkind, rfl⟩ <;> rw [Visit.result_mk]
  · left
    rw [Outcome.result]
    exact givenUp_givenUp _ _ _
  · rcases fileOutcome_result fs parse settings kind path (Path.relative fs.cwd root path) with
      hgiven | ⟨hfailed, hjava⟩
    · exact .inl hgiven
    · refine .inr ⟨hfailed, fun hk => hjava ?_⟩
      exact Option.some.inj (hkind.symm.trans hk)

end Files

/-! ## A directory -/

section Directory

variable {sink : Sink} {seen later : FileSystem} {parse : Bytes → Node} {settings : Settings}
  {directory : Text}

/-- When the discovery of a directory at an absolute path fails: it is not there, it is no directory,
or it cannot be listed. -/
def DiscoveryError.Arises (fs : FileSystem) (root : Text) : DiscoveryError → Prop
  | .missing path => path = root ∧ fs.exists? root = false
  | .notDirectory path => path = root ∧ fs.exists? root = true ∧ fs.isDirectory root = false
  | .unlistable failure => failure.path = root ∧ fs.isDirectory root = true ∧
      fs.listingCause? root = some failure.cause

theorem discoverAt_eq_error_iff {root : Text} {cause : DiscoveryError} :
    discoverAt seen settings root = .error cause ↔ cause.Arises seen root := by
  unfold discoverAt
  rcases hentry : seen.entry root with _ | (_ | _ | _)
  case ok.directory =>
    cases hlisted : seen.listingCause? root with
    | none =>
      cases cause <;> simp [DiscoveryError.Arises, FileSystem.exists?, FileSystem.isDirectory, hentry,
        Except.toBool, Entry.isDirectory, hlisted]
    | some why =>
      rcases cause with _ | _ | ⟨why', path⟩ <;>
        simp [DiscoveryError.Arises, FileSystem.exists?, FileSystem.isDirectory, hentry,
          Except.toBool, Entry.isDirectory, hlisted, eq_comm, and_comm]
  -- what is no directory fails whether or not it is among those that refuse to be listed
  all_goals
    cases cause <;>
      simp [DiscoveryError.Arises, FileSystem.exists?, FileSystem.isDirectory, hentry,
        Except.toBool, Entry.isDirectory, eq_comm]

theorem FileSystem.exists?_of_isDirectory {fs : FileSystem} {path : Text}
    (h : fs.isDirectory path = true) : fs.exists? path = true := by
  unfold FileSystem.isDirectory at h
  unfold FileSystem.exists?
  cases hentry : fs.entry path with
  | error _ => simp [hentry] at h
  | ok _ => rfl

/-- A directory that can be listed is discovered. -/
theorem discoverAt_isOk {root : Text} (hdirectory : seen.isDirectory root = true)
    (hlisted : seen.listingCause? root = none) : ∃ d, discoverAt seen settings root = .ok d := by
  cases hfound : discoverAt seen settings root with
  | ok d => exact ⟨d, rfl⟩
  | error cause =>
    have harises := discoverAt_eq_error_iff.mp hfound
    cases cause with
    | missing _ =>
      have hthere := FileSystem.exists?_of_isDirectory hdirectory
      rw [harises.2] at hthere
      cases hthere
    | notDirectory _ =>
      rw [harises.2.2] at hdirectory
      cases hdirectory
    | unlistable _ => cases hlisted.symm.trans harises.2.2

/-- **A run accounts for every file.** The elements are those of the files in the order of discovery.
The sink has its old entries, then the reports of the walk, then those of the files. The counts are
those of the files, the elements and the entries that were added. A file that failed contributes no
element and at least one report, and a Java file that did not contributes no report. -/
structure DirectoryRun.Accounts (sink : Sink) (seen later : FileSystem) (parse : Bytes → Node)
    (settings : Settings) (directory : Text) (run : DirectoryRun) : Prop where
  discovered : discover seen settings directory = .ok run.discovered
  visits : run.discovered.files.map
      (visitDiscovered later parse settings (Path.absolute seen.cwd directory)) =
    run.visits.map .ok
  elements : run.elements = run.visits.flatMap (·.result.elements)
  extracted : run.stats.elements = run.elements.length
  processed : run.stats.processed = run.visits.countP (!·.result.failed)
  failed : run.stats.failed = run.visits.countP (·.result.failed)
  files : run.stats.processed + run.stats.failed = run.discovered.files.length
  growth : run.ledger.sink.size = sink.size + run.stats.diagnostics
  entries : run.ledger.sink.entries = sink.entries ++
    run.discovered.diagnostics seen.cwd (Path.absolute seen.cwd directory) ++
    run.visits.flatMap (·.result.diagnostics)
  given_up : ∀ visit ∈ run.visits, visit.result.failed = true →
    visit.result.elements = [] ∧ visit.result.diagnostics ≠ []
  java : ∀ path ∈ run.discovered.files, ∀ visit,
    visitDiscovered later parse settings (Path.absolute seen.cwd directory) path = .ok visit →
    settings.kindFor? (Path.baseName path) = some .java →
    visit.result.failed = false → visit.result.diagnostics = []

/-- A visit of a run is the visit of one of its files. -/
theorem exists_path_of_visit {root : Text} {paths : List Text} {visits : List Visit}
    (h : paths.map (visitDiscovered later parse settings root) = visits.map .ok) {visit : Visit}
    (hvisit : visit ∈ visits) :
    ∃ path ∈ paths, visitDiscovered later parse settings root path = .ok visit := by
  have hmem : Except.ok visit ∈ paths.map (visitDiscovered later parse settings root) := by
    rw [h]
    exact List.mem_map_of_mem hvisit
  exact List.mem_map.mp hmem

/-- Where discovery succeeds, the run succeeds and accounts for every file. -/
theorem extractInto_of_discoverAt {discovered : Discovered}
    (hfound : discoverAt seen settings (Path.absolute seen.cwd directory) = .ok discovered) :
    ∃ run, extractInto sink seen later parse settings directory = .ok run ∧
      run.Accounts sink seen later parse settings directory := by
  obtain ⟨⟨visits, ledger⟩, htaken⟩ := takeFiles_isOk later parse
    (Path.absolute seen.cwd directory) (kindFor?_isSome_of_discoverAt hfound)
    { sink := sink.extend (discovered.diagnostics seen.cwd (Path.absolute seen.cwd directory)) }
  obtain ⟨hvisits, hadds⟩ := takeFiles_adds htaken
  -- the ledger starts with nothing but reports, so what is added is what it has
  have hlength : discovered.files.length = visits.length := by
    have hmapped := congrArg List.length hvisits
    rwa [List.length_map, List.length_map] at hmapped
  have helements : ledger.elements = visits.flatMap (·.result.elements) := by
    simpa using hadds.elements
  have hextracted : ledger.extracted = (visits.flatMap (·.result.elements)).length := by
    simpa using hadds.extracted
  have hprocessed : ledger.processed = visits.countP (!·.result.failed) := by
    simpa using hadds.processed
  have hfailed : ledger.failed = visits.countP (·.result.failed) := by
    simpa using hadds.failed
  have hentries := hadds.sink
  rw [Sink.entries_extend] at hentries
  refine ⟨_, extractInto_eq_ok hfound htaken, hfound, hvisits, helements, ?_, hprocessed, hfailed,
    ?_, ?_, hentries, ?_, ?_⟩
  · show ledger.extracted = ledger.elements.length
    rw [hextracted, helements]
  · show ledger.processed + ledger.failed = discovered.files.length
    rw [hprocessed, hfailed, hlength, List.length_eq_countP_add_countP (·.result.failed), Nat.add_comm]
    simp
  · show ledger.sink.entries.length =
      sink.entries.length + (ledger.sink.entries.length - sink.entries.length)
    rw [hentries, List.append_assoc, List.length_append]
    omega
  · -- a file is given up or read, and only the first counts as given up
    intro visit hvisit hgave
    obtain ⟨path, -, hpath⟩ := exists_path_of_visit hvisits hvisit
    rcases visitDiscovered_result hpath with hgiven | ⟨hread, -⟩
    · exact ⟨hgiven.1, hgiven.2.1⟩
    · rw [hread] at hgave
      cases hgave
  · intro path _ visit hpath hkind hread
    rcases visitDiscovered_result hpath with hgiven | ⟨-, hjava⟩
    · rw [hgiven.2.2] at hread
      cases hread
    · exact hjava hkind

/-- A run fails only with its discovery. -/
theorem extractInto_eq_error_iff {e : DirectoryError} :
    extractInto sink seen later parse settings directory = .error e ↔
      ∃ cause, discoverAt seen settings (Path.absolute seen.cwd directory) = .error cause ∧
        e = .discovery cause := by
  cases hfound : discoverAt seen settings (Path.absolute seen.cwd directory) with
  | error cause => simp [extractInto_eq_error hfound, eq_comm]
  | ok discovered =>
    obtain ⟨run, hrun, -⟩ :
        ∃ run, extractInto sink seen later parse settings directory = .ok run ∧ _ :=
      extractInto_of_discoverAt hfound
    simp [hrun]

/-- **Nothing that happens to a file or a subdirectory ends a run.** If the root is a directory that
can be listed, the run succeeds and accounts for every file, whatever the sink held before and in
whatever state the files are by the time they are read. It fails exactly when the root is not there,
is no directory, or cannot be listed. -/
theorem extractInto_accounts_for_files (sink : Sink) (seen later : FileSystem)
    (parse : Bytes → Node) (settings : Settings) (directory : Text) :
    (seen.isDirectory (Path.absolute seen.cwd directory) = true →
      seen.listingCause? (Path.absolute seen.cwd directory) = none →
      ∃ run, extractInto sink seen later parse settings directory = .ok run ∧
        run.Accounts sink seen later parse settings directory) ∧
    ∀ e, extractInto sink seen later parse settings directory = .error e ↔
      ∃ cause, e = .discovery cause ∧ cause.Arises seen (Path.absolute seen.cwd directory) := by
  refine ⟨fun hdirectory hlisted => ?_, fun e => ?_⟩
  · obtain ⟨discovered, hfound⟩ : ∃ d, discoverAt seen settings _ = .ok d :=
      discoverAt_isOk hdirectory hlisted
    exact extractInto_of_discoverAt hfound
  · rw [extractInto_eq_error_iff]
    constructor
    · rintro ⟨cause, hfound, rfl⟩
      exact ⟨cause, rfl, discoverAt_eq_error_iff.mp hfound⟩
    · rintro ⟨cause, rfl, harises⟩
      exact ⟨cause, discoverAt_eq_error_iff.mpr harises, rfl⟩

/-- A directory with one file. -/
def oneFile : FileSystem where
  entries := [("d", .directory [("a.proto", .file [])])]

theorem oneFile_entry : oneFile.entry "/d" = .ok (.directory [("a.proto", .file [])]) := by
  have hpieces : Path.pieces (Path.append "/" "/d") = [("" : Text), "d"] := by decide +kernel
  simp [FileSystem.entry, FileSystem.locate, oneFile, hpieces, locateFrom, Trail.here, Trail.place,
    Entries.get?, bind, Except.bind]

theorem discoverAt_oneFile : discoverAt oneFile {} "/d" = .ok ⟨[("/d/a.proto" : Text)], []⟩ := by
  have hpath : Path.append "/d" "a.proto" = "/d/a.proto" := by decide +kernel
  have htakes : ({} : Settings).takes (Path.relative "/" "/d" "/d/a.proto")
      (Path.baseName "/d/a.proto") = true := by decide +kernel
  rw [discoverAt, oneFile_entry]
  simp [discoverIn, sightings, branches, FileSystem.filesIn, FileSystem.showsFile,
    FileSystem.listingCause?, oneFile, hpath, htakes, Sighting.file?, Sighting.unlistable?]

theorem visitDiscovered_vanished :
    visitDiscovered {} Java.parse {} "/d" "/d/a.proto" =
      .ok ⟨Path.relative "/" "/d" "/d/a.proto", .vanished⟩ := by
  have hpieces : Path.pieces (Path.append "/" "/d/a.proto") = [("" : Text), "d", "a.proto"] := by
    decide +kernel
  have hgone : FileSystem.isFile {} "/d/a.proto" = false := by
    simp [FileSystem.isFile, FileSystem.entry, FileSystem.locate, hpieces, locateFrom, Trail.here,
      Entries.get?, bind, Except.bind]
  simp [visitDiscovered, visitFile, hgone]

/-- The file is found, and gone when it is to be read: the run goes on and counts it as failed. -/
theorem extractInto_counts_vanished_file :
    oneFile.isDirectory (Path.absolute oneFile.cwd "d") = true ∧
    oneFile.listingCause? (Path.absolute oneFile.cwd "d") = none ∧
    ∃ run, extractInto {} oneFile {} Java.parse {} "d" = .ok run ∧ run.stats = ⟨0, 1, 0, 1⟩ := by
  have hroot : Path.absolute oneFile.cwd "d" = "/d" := by decide +kernel
  have hdirectory : oneFile.isDirectory (Path.absolute oneFile.cwd "d") = true := by
    rw [hroot, FileSystem.isDirectory, oneFile_entry]
    rfl
  have hlisted : oneFile.listingCause? (Path.absolute oneFile.cwd "d") = none := rfl
  refine ⟨hdirectory, hlisted, ?_⟩
  obtain ⟨run, hrun, haccounts⟩ :=
    (extractInto_accounts_for_files {} oneFile {} Java.parse {} "d").1 hdirectory hlisted
  have hfound : run.discovered = ⟨[("/d/a.proto" : Text)], []⟩ := by
    have hfound := haccounts.discovered
    rw [discover, hroot, discoverAt_oneFile] at hfound
    exact (Except.ok.inj hfound).symm
  have hvisits : run.visits = [⟨Path.relative "/" "/d" "/d/a.proto", .vanished⟩] := by
    have hvisits := haccounts.visits
    rw [hfound, hroot, List.map_singleton, visitDiscovered_vanished] at hvisits
    obtain ⟨visit, hsingle, hok⟩ := List.map_eq_singleton_iff.mp hvisits.symm
    rw [hsingle, Except.ok.inj hok]
  have hprocessed : run.stats.processed = 0 := by
    simp [haccounts.processed, hvisits, Visit.result_mk, Outcome.result, givenUp]
  have hfailed : run.stats.failed = 1 := by
    simp [haccounts.failed, hvisits, Visit.result_mk, Outcome.result, givenUp]
  have hextracted : run.stats.elements = 0 := by
    simp [haccounts.extracted, haccounts.elements, hvisits, Visit.result_mk, Outcome.result, givenUp]
  have hdiagnostics : run.stats.diagnostics = 1 := by
    have hgrowth := haccounts.growth
    simp only [Sink.size, haccounts.entries, hfound, hvisits] at hgrowth
    simpa [Discovered.diagnostics, Visit.result_mk, Outcome.result, givenUp] using hgrowth.symm
  refine ⟨run, hrun, ?_⟩
  calc run.stats
      = ⟨run.stats.processed, run.stats.failed, run.stats.elements, run.stats.diagnostics⟩ := rfl
    _ = ⟨0, 1, 0, 1⟩ := by rw [hprocessed, hfailed, hextracted, hdiagnostics]

end Directory

end Gleaner
