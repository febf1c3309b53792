import Gleaner.Proofs.Extraction.Isolation
import Gleaner.Proofs.Java.Preorder
import Gleaner.Proofs.Path.Normal

/-!
# Where elements and reports come from

Each element and each report of a run names a file by its path from the root. Several ways lead to that
path: a file is seen from the root once it is read, once more if it is gone by then, and a directory that
cannot be listed is seen from the root by the walk. In all of them the path from the root undoes what the
walk did: appended to the root, it gives the path that was discovered. A discovered path is in normal form,
so that a file can as well be taken on its own, which brings its path and that of the root into normal form
first.

## Main definitions

* `FileResult.Names`: what a file yields names that file
* `Visit.ComesFrom`: what a visit yields names the file of a path
* `Diagnostic.IsSubdirectory`: a report on a directory below the root

## Main results

* `visitDiscovered_names`: what a discovered file yields names it, whatever became of it
* `extractInto_names_files`: the elements and the reports of a run name the files they come from
-/

namespace Gleaner

open Gleaner.Utf8 (Bytes)
open Gleaner.Syntax (Node)
open Gleaner.Path (IsName below)

/-! ## One file -/

/-- **What a file yields names that file**: its elements by path and name, its reports by path. None of the
reports is one of a walk. -/
structure FileResult.Names (relative name : Text) (r : FileResult) : Prop where
  elements : ∀ e ∈ r.elements, e.context.filePath = relative ∧ e.context.fileName = name
  reports : ∀ d ∈ r.diagnostics, d.filePath = relative ∧ d.kind ≠ .traversalError

theorem givenUp_names (relative name : Text) (message : String) {kind : DiagnosticKind}
    (h : kind ≠ .traversalError) : (givenUp relative message kind).Names relative name where
  elements := by simp [givenUp]
  reports := by simpa [givenUp] using h

/-- The elements of a Java file name it. -/
theorem Java.context_of_mem_elements {file : Java.SourceFile} {root : Node} {constructors : Bool}
    {es : List Element} (h : (Java.extractMethods file root constructors).elements = .ok es)
    {e : Element} (he : e ∈ es) :
    e.context.filePath = file.filePath ∧ e.context.fileName = file.fileName := by
  obtain ⟨text, package, -, -, -, rfl⟩ := Java.extractMethods_elements_eq_ok h
  obtain ⟨finding, hfinding, helement⟩ := List.mem_filterMap.mp he
  obtain ⟨s, -, hs⟩ := Java.exists_site_of_mem_findings hfinding
  cases finding with
  | unnamed kind line => cases helement
  | element e' =>
    cases helement
    obtain ⟨_, _, _, _, -, rfl, -⟩ := Java.siteElement_eq_element_iff.mp hs
    exact ⟨rfl, rfl⟩

theorem javaOutcome_names (parse : Bytes → Node) (settings : Settings) (relative name : Text)
    (bytes : Bytes) :
    ((javaOutcome parse settings relative name bytes).result relative).Names relative name := by
  unfold javaOutcome
  split
  · exact givenUp_names _ _ _ (by decide)
  · dsimp only
    split
    · unfold Outcome.result
      dsimp only
      split
      · next es hes => exact ⟨fun e he => Java.context_of_mem_elements hes he, by simp⟩
      · exact givenUp_names _ _ _ (by decide)
      · exact givenUp_names _ _ _ (by decide)
    · exact ⟨by simp [Outcome.result], by simp [Outcome.result, problemReports]⟩

/-- The blocks of a schema file name it, and so do the reports on them. -/
theorem Schema.Decomposition.names {filePath fileName : Text} {lines : List String} {p : ℕ}
    {found : Option String} {es : List Element} {ds : List Diagnostic} {failed : Bool}
    (h : Schema.Decomposition filePath fileName lines p found es ds) :
    FileResult.Names filePath fileName ⟨es, ds, failed⟩ := by
  induction h with
  | idle _ => exact ⟨by simp, by simp⟩
  | unclosed _ _ => exact ⟨by simp, by simp [Schema.Block.unclosed]⟩
  | closed _ _ _ _ ih => exact ⟨List.forall_mem_cons.mpr ⟨⟨rfl, rfl⟩, ih.elements⟩, ih.reports⟩
  | overclosed _ _ _ _ ih =>
    exact ⟨ih.elements, List.forall_mem_cons.mpr ⟨⟨rfl, by simp [Schema.Block.overclosed]⟩, ih.reports⟩⟩

theorem schemaOutcome_names (relative name : Text) (bytes : Bytes) :
    ((schemaOutcome relative name bytes).result relative).Names relative name := by
  unfold schemaOutcome
  split
  · exact givenUp_names _ _ _ (by decide)
  · next text _ =>
    obtain ⟨r, hr, -, hdec⟩ := Schema.scanLines_decomposition relative name (Text.splitLines text)
    simp only [hr, Outcome.result]
    exact hdec.names

/-- What a file of a kind yields names it. -/
theorem fileOutcome_names (fs : FileSystem) (parse : Bytes → Node) (settings : Settings)
    (kind : SourceKind) (path relative : Text) :
    ((fileOutcome fs parse settings kind path relative).result relative).Names relative
      (Path.baseName path) := by
  unfold fileOutcome
  split
  · exact givenUp_names _ _ _ (by decide)
  · cases kind with
    | java => exact javaOutcome_names _ _ _ _ _
    | schema => exact schemaOutcome_names _ _ _

section Visits

variable {fs : FileSystem} {parse : Bytes → Node} {settings : Settings} {root : Text}

/-- **What a discovered file yields names it**, whether it is read or gone: by its path from the root, and
by the last piece of its own path. -/
theorem visitDiscovered_names {path : Text} {visit : Visit}
    (h : visitDiscovered fs parse settings root path = .ok visit) :
    visit.relative = Path.relative fs.cwd root path ∧
      visit.result.Names (Path.relative fs.cwd root path) (Path.baseName path) := by
  generalize hrelative : Path.relative fs.cwd root path = relative
  rcases visitDiscovered_cases h with rfl | ⟨kind, -, rfl⟩ <;> rw [hrelative, Visit.result_mk]
  · exact ⟨rfl, givenUp_names _ _ _ (by decide)⟩
  · exact ⟨rfl, fileOutcome_names _ _ _ _ _ _⟩

/-- Files are visited one by one. -/
theorem forall₂_of_map_eq {paths : List Text} {visits : List Visit}
    (h : paths.map (visitDiscovered fs parse settings root) = visits.map .ok) :
    List.Forall₂ (fun path visit => visitDiscovered fs parse settings root path = .ok visit) paths
      visits := by
  have hsame : List.Forall₂ Eq (paths.map (visitDiscovered fs parse settings root))
      (visits.map .ok) := by
    rw [List.forall₂_eq_eq_eq]
    exact h
  exact List.forall₂_map_right_iff.mp (List.forall₂_map_left_iff.mp hsame)

end Visits

/-! ## A run -/

/-- **A visit comes from the file at a path.** Its path from the root is made of names with slashes between,
and appended to the root it is the path of the file. The elements of the visit have that path, and as name
the last piece of it. The reports of the visit have that path too. -/
structure Visit.ComesFrom (root path : Text) (visit : Visit) : Prop where
  names : ∃ names, names ≠ [] ∧ (∀ name ∈ names, IsName name) ∧ visit.relative = Path.join names
  append : Path.append root visit.relative = path
  elements : ∀ e ∈ visit.result.elements, e.context.filePath = visit.relative ∧
    e.context.fileName = Path.baseName e.context.filePath
  reports : ∀ d ∈ visit.result.diagnostics, d.filePath = visit.relative ∧ d.kind ≠ .traversalError

/-- A visit of a path below the root comes from it. -/
theorem Visit.comesFrom_of_below {fs : FileSystem} {parse : Bytes → Node} {settings : Settings}
    {root name : Text} {names : List Text} (hnames : ∀ n ∈ names, IsName n) (hname : IsName name)
    {visit : Visit}
    (h : visitDiscovered fs parse settings root (below root (names ++ [name])) = .ok visit) :
    visit.ComesFrom root (below root (names ++ [name])) := by
  have hlegal : ∀ n ∈ names ++ [name], IsName n := by
    simpa [or_imp, forall_and] using ⟨hnames, hname⟩
  have hne : names ++ [name] ≠ [] := by simp
  obtain ⟨hrelative, hyields⟩ := visitDiscovered_names h
  rw [Path.relative_below fs.cwd root hlegal hne] at hrelative hyields
  -- both the path and the path from the root end in the last name
  have hbase : Path.baseName (below root (names ++ [name])) =
      Path.baseName (Path.join (names ++ [name])) := by
    rw [Path.below_concat, Path.baseName_append _ hname, Path.baseName_join hnames hname]
  rw [hbase] at hyields
  refine ⟨⟨names ++ [name], hne, hlegal, hrelative⟩, ?_, ?_, ?_⟩
  · rw [hrelative, Path.append_join root hlegal hne]
  · intro e he
    obtain ⟨hpath, hfile⟩ := hyields.elements e he
    rw [hpath, hrelative]
    exact ⟨rfl, hfile⟩
  · intro d hd
    rw [hrelative]
    exact hyields.reports d hd

/-- A report on a subdirectory: its path is made of names with slashes between, and appended to the root it
leads to a directory. -/
structure Diagnostic.IsSubdirectory (fs : FileSystem) (root : Text) (d : Diagnostic) : Prop where
  kind : d.kind = .traversalError
  names : ∃ names, names ≠ [] ∧ (∀ name ∈ names, IsName name) ∧ d.filePath = Path.join names
  directory : fs.isDirectory (Path.append root d.filePath) = true

section Runs

variable {seen later : FileSystem} {parse : Bytes → Node} {settings : Settings} {root : Text}

/-- The reports of a walk are on subdirectories. -/
theorem isSubdirectory_of_mem_diagnostics {entries : Entries} (hfs : seen.WellFormed)
    (hentry : seen.entry root = .ok (.directory entries)) (hlisted : seen.listingCause? root = none)
    {d : Diagnostic} (hd : d ∈ (discoverIn seen settings root entries).diagnostics seen.cwd root) :
    d.IsSubdirectory seen root := by
  obtain ⟨base, hreaches, hat⟩ := FileSystem.reaches_of_entry hentry
  obtain ⟨failure, hfailure, rfl⟩ := List.mem_map.mp hd
  rw [discoverIn_eq] at hfailure
  obtain ⟨met, hmet, hunlistable⟩ := List.mem_filterMap.mp hfailure
  cases met with
  | file _ => cases hunlistable
  | unlistable _ =>
    cases hunlistable
    obtain ⟨way, hway, hpath, hrefuses⟩ := exists_entered_of_mem_unlistable hfs [] hreaches.entered
      (by rwa [List.append_nil]) hmet
    -- the root can be listed, so that names lead to the directory
    have hne : way ≠ [] := by
      rintro rfl
      rw [Path.below_nil, hlisted] at hrefuses
      cases hrefuses
    have hrelative := Path.relative_below seen.cwd root hway.legal hne
    obtain ⟨inner, -, hinner⟩ := hway.reaches.exists_entry
    rw [unlistableReport, hpath, hrelative]
    refine ⟨rfl, ⟨way, hne, hway.legal, rfl⟩, ?_⟩
    rw [Path.append_join root hway.legal hne, FileSystem.isDirectory, hinner]
    rfl

/-- **A path below the root is taken as it is**: bringing it into normal form first changes nothing. -/
theorem extractFile_below {cwd directory : Text} {names : List Text}
    (hcwd : Path.isAbsolute cwd = true) (hnames : ∀ n ∈ names, IsName n) :
    extractFile later parse settings (below (Path.absolute cwd directory) names)
        (some (Path.absolute cwd directory)) =
      visitFile later parse settings (Path.absolute cwd directory)
        (below (Path.absolute cwd directory) names) := by
  have hseen := Path.isAbsolute_append_of_isAbsolute hcwd directory
  have hroot := Path.absolute_below later.cwd hseen (List.forall_mem_nil _)
  rw [Path.below_nil] at hroot
  rw [extractFile, Path.absolute_below later.cwd hseen hnames]
  simp only [hroot]

/-- Files and visits that come from them: where no file is taken twice, no two visits have the same path
from the root. -/
theorem nodup_relative_of_comesFrom {files : List Text} {visits : List Visit}
    (h : List.Forall₂ (fun path visit => visit.ComesFrom root path) files visits)
    (hfiles : files.Nodup) : (visits.map (·.relative)).Nodup := by
  have hpaths : files = (visits.map (·.relative)).map (Path.append root) := by
    induction h with
    | nil => rfl
    | cons hfrom _ ih =>
      rw [List.map_cons, List.map_cons, hfrom.append, ← ih (List.nodup_cons.mp hfiles).2]
  rw [hpaths] at hfiles
  exact hfiles.of_map

/-- **The elements and the reports of a run name the files they come from.** There is one visit for each
discovered file, in order, and it comes from that file; the elements of the run are those of the visits. Its
reports are those of the walk, each of which names a subdirectory, and then those of the visits. No two
visits have the same path. Seen from an absolute working directory, a file is taken on its own as it is taken
in the run. -/
theorem extractInto_names_files {sink : Sink} {directory : Text} {run : DirectoryRun}
    (hwell : seen.WellFormed) (hrun : extractInto sink seen later parse settings directory = .ok run) :
    List.Forall₂ (fun path visit => visit.ComesFrom (Path.absolute seen.cwd directory) path)
      run.discovered.files run.visits ∧
    run.elements = run.visits.flatMap (·.result.elements) ∧
    (∃ reports, run.ledger.sink.entries =
        sink.entries ++ reports ++ run.visits.flatMap (·.result.diagnostics) ∧
      ∀ d ∈ reports, d.IsSubdirectory seen (Path.absolute seen.cwd directory)) ∧
    (run.visits.map (·.relative)).Nodup ∧
    (Path.isAbsolute seen.cwd = true → ∀ path ∈ run.discovered.files,
      extractFile later parse settings path (some (Path.absolute seen.cwd directory)) =
        visitFile later parse settings (Path.absolute seen.cwd directory) path) := by
  cases hfound : discoverAt seen settings (Path.absolute seen.cwd directory) with
  | error cause =>
    rw [extractInto_eq_error hfound] at hrun
    cases hrun
  | ok found =>
    obtain ⟨run', hrun', haccounts⟩ : ∃ run, extractInto sink seen later parse settings directory =
        .ok run ∧ run.Accounts sink seen later parse settings directory :=
      extractInto_of_discoverAt hfound
    obtain rfl : run = run' := Except.ok.inj (hrun.symm.trans hrun')
    obtain ⟨entries, hentry, hlisted, hdiscovered⟩ :=
      discoverAt_eq_ok_iff.mp (haccounts.discovered : discoverAt seen settings _ = _)
    obtain ⟨base, hreaches, -⟩ := FileSystem.reaches_of_entry hentry
    -- a discovered file is below the root by names, and the names make the path that is told
    have hfrom : List.Forall₂ (fun path visit => visit.ComesFrom (Path.absolute seen.cwd directory) path)
        run.discovered.files run.visits := by
      refine List.Forall₂.imp ?_ ((List.forall₂_and_left _ _).mpr
        ⟨fun path hpath => hpath, forall₂_of_map_eq haccounts.visits⟩)
      rintro path visit ⟨hpath, hvisit⟩
      rw [hdiscovered] at hpath
      obtain ⟨names, name, hway, hname, rfl, -⟩ :=
        exists_entered_of_mem_files hwell hreaches hentry hpath
      exact Visit.comesFrom_of_below hway.legal hname hvisit
    refine ⟨hfrom, haccounts.elements, ⟨_, haccounts.entries, ?_⟩, ?_, ?_⟩
    · intro d hd
      rw [hdiscovered] at hd
      exact isSubdirectory_of_mem_diagnostics hwell hentry hlisted hd
    · refine nodup_relative_of_comesFrom hfrom ?_
      rw [hdiscovered]
      exact nodup_files_discoverIn hwell hentry
    · intro hcwd path hpath
      rw [hdiscovered] at hpath
      obtain ⟨names, name, hway, hname, rfl, -⟩ :=
        exists_entered_of_mem_files hwell hreaches hentry hpath
      exact extractFile_below hcwd (hway.legal_concat hname)

/-- A schema with one block. -/
def blockText : Bytes :=
  Utf8.encode "message A \x7b\n\x7d\n"

/-- A directory with a file, a directory that has another file of that name, and one that cannot be
listed. -/
def shelfEntries : Entries :=
  [("e", .directory [("a.proto", .file blockText)]), ("x", .directory []), ("a.proto", .file [])]

/-- A file system with files of the same name in two directories. -/
def shelf : FileSystem where
  entries := [("d", .directory shelfEntries)]
  unlistable := [("/d/x", .denied)]

/-- What is left of it when the files are read: the first is gone. -/
def thinnedShelf : FileSystem where
  entries := [("d", .directory [("e", .directory [("a.proto", .file blockText)])])]

theorem shelf_wellFormed : shelf.WellFormed := by
  have he : (Entry.directory [("a.proto", .file blockText)]).WellFormed :=
    .directory ⟨by decide, by decide⟩ (by simpa using .file blockText)
  have hx : (Entry.directory []).WellFormed := .directory ⟨by decide, by decide⟩ (by simp)
  have hinner : (Entry.directory shelfEntries).WellFormed :=
    .directory ⟨by decide, by decide⟩ (by simpa [shelfEntries] using ⟨he, hx, .file []⟩)
  exact .directory ⟨by decide, by decide⟩ (by simpa [shelf] using hinner)

theorem discoverAt_shelf :
    discoverAt shelf {} "/d" = .ok ⟨[("/d/a.proto" : Text), "/d/e/a.proto"], [⟨.denied, "/d/x"⟩]⟩ := by
  have hpieces : Path.pieces (Path.append "/" "/d") = [("" : Text), "d"] := by decide +kernel
  have hentry : shelf.entry "/d" = .ok (.directory shelfEntries) := by
    simp [FileSystem.entry, FileSystem.locate, shelf, hpieces, locateFrom, Trail.here, Trail.place,
      Entries.get?, bind, Except.bind]
  have ha : Path.append "/d" "a.proto" = "/d/a.proto" := by decide +kernel
  have he : Path.append "/d" "e" = "/d/e" := by decide +kernel
  have hx : Path.append "/d" "x" = "/d/x" := by decide +kernel
  have hea : Path.append "/d/e" "a.proto" = "/d/e/a.proto" := by decide +kernel
  have horderx : ("e" : Text) ≤ "x" := by decide +kernel
  have hordera : ¬ ("e" : Text) ≤ "a.proto" := by decide +kernel
  have hentere : ({} : Settings).entersAt "/" "/d" "/d/e" = true := by decide +kernel
  have henterx : ({} : Settings).entersAt "/" "/d" "/d/x" = true := by decide +kernel
  have htakesa : ({} : Settings).takesAt "/" "/d" "/d/a.proto" = true := by decide +kernel
  have htakese : ({} : Settings).takesAt "/" "/d" "/d/e/a.proto" = true := by decide +kernel
  have hmet : sightings shelf (({} : Settings).entersAt "/" "/d") "/d" (.directory shelfEntries) =
      [.file "/d/a.proto", .file "/d/e/a.proto", .unlistable ⟨.denied, "/d/x"⟩] := by
    simp [sightings, branches, shelf, shelfEntries, FileSystem.filesIn, FileSystem.showsFile,
      FileSystem.listingCause?, List.lookup_cons, List.lookup_nil, ha, he, hx, hea, List.mergeSort,
      List.MergeSort.Internal.splitInTwo, nameOrder, hordera, horderx, hentere, henterx]
  refine discoverAt_eq_ok_iff.mpr ⟨_, hentry, by decide, ?_⟩
  rw [discoverIn_eq, show shelf.cwd = "/" from rfl, hmet]
  simp [List.filterMap_cons, Sighting.file?, Sighting.unlistable?, htakesa, htakese]

/-- The first file is gone when it is to be read. -/
theorem visitDiscovered_thinnedShelf_gone :
    visitDiscovered thinnedShelf Java.parse {} "/d" "/d/a.proto" = .ok ⟨"a.proto", .vanished⟩ := by
  have hpieces : Path.pieces (Path.append "/" "/d/a.proto") = [("" : Text), "d", "a.proto"] := by
    decide +kernel
  have hgone : thinnedShelf.isFile "/d/a.proto" = false := by
    simp [FileSystem.isFile, FileSystem.entry, FileSystem.locate, thinnedShelf, hpieces, locateFrom,
      Trail.here, Entries.get?, bind, Except.bind]
  have hrelative : Path.relative thinnedShelf.cwd "/d" "/d/a.proto" = "a.proto" := by decide +kernel
  simp [visitDiscovered, visitFile, hgone, hrelative]

/-- The second is read. -/
theorem visitDiscovered_thinnedShelf :
    visitDiscovered thinnedShelf Java.parse {} "/d" "/d/e/a.proto" =
      .ok ⟨"e/a.proto", schemaOutcome "e/a.proto" "a.proto" blockText⟩ := by
  have hpieces : Path.pieces (Path.append "/" "/d/e/a.proto") = [("" : Text), "d", "e", "a.proto"] := by
    decide +kernel
  have hentry : thinnedShelf.entry "/d/e/a.proto" = .ok (.file blockText) := by
    simp [FileSystem.entry, FileSystem.locate, thinnedShelf, hpieces, locateFrom, Trail.here,
      Entries.get?, bind, Except.bind]
  have hfile : thinnedShelf.isFile "/d/e/a.proto" = true := by
    rw [FileSystem.isFile, hentry]
    rfl
  have hread : thinnedShelf.readSource "/d/e/a.proto" = .ok blockText := by
    simp [FileSystem.readSource, FileSystem.read, hentry, show thinnedShelf.unreadable = [] from rfl]
  have hkind : ({} : Settings).kindFor? (Path.baseName "/d/e/a.proto") = some .schema := by decide +kernel
  have hname : Path.baseName "/d/e/a.proto" = "a.proto" := by decide +kernel
  have hrelative : Path.relative thinnedShelf.cwd "/d" "/d/e/a.proto" = "e/a.proto" := by decide +kernel
  rw [visitDiscovered, visitFile_of_isFile hfile hkind, hrelative]
  simp only [fileOutcome, hread, hname]

/-- The two files of one name come from different paths. One is gone by the time it is to be read, the block
of the other names its file, and the directory that cannot be listed is reported. -/
theorem extractInto_names_files_of_shelf :
    shelf.WellFormed ∧ ∃ run, extractInto {} shelf thinnedShelf Java.parse {} "d" = .ok run ∧
      run.discovered = ⟨[("/d/a.proto" : Text), "/d/e/a.proto"], [⟨.denied, "/d/x"⟩]⟩ ∧
      List.Forall₂ (fun path visit => visit.ComesFrom "/d" path) run.discovered.files run.visits ∧
      run.visits.map (·.relative) = [("a.proto" : Text), "e/a.proto"] ∧
      run.elements.map (fun e => (e.name, e.context.filePath, e.context.fileName)) =
        [("A", ("e/a.proto" : Text), ("a.proto" : Text))] := by
  have hroot : Path.absolute shelf.cwd "d" = "/d" := by decide +kernel
  have hfound : discoverAt shelf {} (Path.absolute shelf.cwd "d") =
      .ok ⟨[("/d/a.proto" : Text), "/d/e/a.proto"], [⟨.denied, "/d/x"⟩]⟩ := by rw [hroot, discoverAt_shelf]
  obtain ⟨run, hrun, haccounts⟩ : ∃ run, extractInto {} shelf thinnedShelf Java.parse {} "d" = .ok run ∧
      run.Accounts {} shelf thinnedShelf Java.parse {} "d" := extractInto_of_discoverAt hfound
  have hdiscovered : run.discovered = ⟨[("/d/a.proto" : Text), "/d/e/a.proto"], [⟨.denied, "/d/x"⟩]⟩ :=
    Except.ok.inj (haccounts.discovered.symm.trans hfound)
  obtain ⟨hfrom, -⟩ := extractInto_names_files shelf_wellFormed hrun
  rw [hroot] at hfrom
  have hvisits := forall₂_of_map_eq haccounts.visits
  rw [hdiscovered, hroot] at hvisits
  simp only [List.forall₂_cons_left_iff, List.forall₂_nil_left_iff, visitDiscovered_thinnedShelf_gone,
    visitDiscovered_thinnedShelf] at hvisits
  obtain ⟨first, _, hfirst, ⟨second, _, hsecond, rfl, rfl⟩, hall⟩ := hvisits
  cases hfirst
  cases hsecond
  refine ⟨shelf_wellFormed, run, hrun, hdiscovered, hfrom, by rw [hall]; rfl, ?_⟩
  rw [haccounts.elements, hall]
  decide +kernel

end Runs

end Gleaner
