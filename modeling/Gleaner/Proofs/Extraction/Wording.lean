import Gleaner.Proofs.Discovery.Walk
import Gleaner.Proofs.Extraction.Accounting
import Gleaner.Proofs.Java.Extent
import Gleaner.Proofs.Syntax.Excerpt

/-!
# What reports say

A report takes its message from many places: from the source, which a syntax problem quotes and whose
blocks have names, from a failed operation on a path, from bytes that cannot be read, and from failures that
no rule foresees. Nothing that a file holds gets a line feed into a message. Quotations lose their layout, the
name of a block is a word, and a path is quoted. The failures that no rule foresees would tell the name of a
method, which is whatever the tree says it is; over a tree that fits its text they do not occur.

## Main definitions

* `Syntax.Faithful`: what is asked of a parser
* `Diagnostic.WellWorded`: a report in one line, whose quotations are bounded

## Main results

* `Java.extractMethods_failure_of_covers`: over a tree that fits its text, only depth stops an extraction
* `fileOutcome_wellWorded`: the reports of a file, whatever became of it
* `extractDirectory_wellWorded`: the reports of a run
* `reports_well_worded`: no file and no directory gets a line feed into a message
-/

namespace Gleaner

open Gleaner.Utf8 (Bytes)
open Gleaner.Syntax (Node)
open Gleaner.Text (InLine)

/-- **What is asked of a parser**: the tree of a text fits the text, and its kinds are in one line. -/
structure Syntax.Faithful (parse : Bytes → Node) : Prop where
  covers : ∀ text, (parse (Utf8.encode text)).Covers text
  kinds : ∀ text, (parse (Utf8.encode text)).KindsInLine

/-- **A report in one line.** If it is on the syntax of a file, it says that there are problems, or what one
of them is. -/
structure Diagnostic.WellWorded (d : Diagnostic) : Prop where
  inLine : InLine d.message
  syntactic : d.kind = .syntaxError →
    d.message = "Failed to parse Java file" ∨ Syntax.Wording d.message

theorem givenUp_wellWorded (relative : Text) {message : String} {kind : DiagnosticKind}
    (hmessage : InLine message) (hkind : kind ≠ .syntaxError) :
    ∀ d ∈ (givenUp relative message kind).diagnostics, d.WellWorded := by
  intro d hd
  obtain rfl := List.mem_singleton.mp hd
  exact ⟨hmessage, fun h => absurd h hkind⟩

theorem inLine_reason (reason : Utf8.Reason) : InLine reason.message := by
  cases reason <;> decide

theorem inLine_label (kind : SourceKind) : InLine kind.label := by
  cases kind <;> decide

/-- The report on bytes that are no text, for either kind of file. -/
theorem undecodable_wellWorded (relative : Text) (kind : SourceKind) (e : Utf8.Malformed) :
    ∀ d ∈ ((Outcome.undecodable kind e).result relative).diagnostics, d.WellWorded := by
  have hmessage : InLine s!"Failed to decode {kind.label} as UTF-8: {e.reason.message}" := by
    simp +decide [inLine_label, inLine_reason]
  exact givenUp_wellWorded relative hmessage (by decide)

/-! ## Java -/

theorem problemReports_wellWorded (relative : Text) {problems : List Syntax.Problem}
    (h : ∀ p ∈ problems, Syntax.Wording p.message) :
    ∀ d ∈ problemReports relative problems, d.WellWorded := by
  intro d hd
  rcases List.mem_cons.mp hd with rfl | hd
  · have hheading : InLine "Failed to parse Java file" := by decide
    exact ⟨hheading, fun _ => .inl rfl⟩
  · obtain ⟨p, hp, rfl⟩ := List.mem_map.mp hd
    exact ⟨(h p hp).inLine, fun _ => .inr (h p hp)⟩

/-- **Over a tree that fits its text, only depth stops an extraction.** -/
theorem Java.extractMethods_failure_of_covers {file : Java.SourceFile} {text : String} {root : Node}
    (hsource : file.bytes = Utf8.encode text) (hroot : root.Covers text) (constructors : Bool) :
    (Java.extractMethods file root constructors).failure = some .tooDeep ∨
      (Java.extractMethods file root constructors).failure = none := by
  obtain ⟨package, -, hgather⟩ := Java.exists_extractMethods_eq_gather hsource hroot constructors
  have hfinds : ∀ s, .site s ∈ Java.visits constructors Java.maxLevels [] root →
      ∃ finding, Java.siteElement file (Text.splitLines text) package s = .ok finding := by
    intro s hs
    have hcovers := Java.covers_of_mem_visits hroot (fun m hm => absurd hm List.not_mem_nil) hs
    exact hcovers.exists_siteElement hsource _ package
  rw [hgather]
  rcases Java.gather_failure_of_exists hfinds with ⟨-, hdeep⟩ | ⟨-, hnone⟩
  · exact .inl hdeep
  · exact .inr hnone

theorem javaOutcome_wellWorded {parse : Bytes → Node} (hparse : Syntax.Faithful parse)
    (settings : Settings) (relative name : Text) (bytes : Bytes) :
    ∀ d ∈ ((javaOutcome parse settings relative name bytes).result relative).diagnostics,
      d.WellWorded := by
  unfold javaOutcome
  cases hdecode : Utf8.decode bytes with
  | error e => exact undecodable_wellWorded relative .java e
  | ok text =>
    obtain rfl := Utf8.decode_eq_ok_iff.mp hdecode
    dsimp only
    split
    · -- the tree is clean, so that all that can go wrong is its depth
      let file : Java.SourceFile := ⟨Utf8.encode text, relative, name⟩
      have hsource : file.bytes = Utf8.encode text := rfl
      rcases Java.extractMethods_failure_of_covers hsource (hparse.covers text)
        settings.includeConstructors with hdeep | hnone
      · rw [Outcome.result, Java.Harvest.elements, hdeep]
        exact givenUp_wellWorded relative (by decide) (by decide)
      · rw [Outcome.result, Java.Harvest.elements, hnone]
        exact fun d hd => absurd hd List.not_mem_nil
    · exact problemReports_wellWorded relative (Syntax.problems_wording (hparse.kinds text))

/-! ## Schemas -/

namespace Schema

/-- The name of a block is a word. -/
theorem lineFeed_notMem_name {line : List Char} {o : Opener} (h : opener? line = some o) :
    '\n' ∉ o.name := by
  simp only [opener?, bind, Option.bind_eq_some_iff] at h
  obtain ⟨⟨kind, afterKeyword⟩, -, start, -, ⟨name, afterName⟩, hname, rest, -, h⟩ := h
  cases h
  unfold blockName? at hname
  split at hname
  · cases hname
  · next c start =>
    split_ifs at hname with hstart
    cases hname
    rw [List.mem_cons, not_or]
    constructor
    · rintro rfl
      exact absurd hstart (by decide)
    · intro hfeed
      exact Text.ne_lineFeed_of_isWord (List.mem_takeWhile_imp hfeed) rfl

theorem Block.inLine_title {b : Block} (h : '\n' ∉ b.opener.name) : InLine b.title := by
  have hnoun : InLine b.opener.kind.noun := by
    cases b.opener.kind <;> decide
  simp +decide [Block.title, hnoun, h]

theorem FirstBlock.inLine_title {lines : List String} {p : ℕ} {found : Option String} {b : Block}
    (h : FirstBlock lines p found b) : InLine b.title := by
  obtain ⟨line, -, hline⟩ := Option.bind_eq_some_iff.mp h.opener
  exact Block.inLine_title (lineFeed_notMem_name hline)

/-- The reports on the blocks of a file. -/
theorem Decomposition.wellWorded {filePath fileName : Text} {lines : List String} {p : ℕ}
    {found : Option String} {es : List Element} {ds : List Diagnostic}
    (h : Decomposition filePath fileName lines p found es ds) : ∀ d ∈ ds, d.WellWorded := by
  induction h with
  | idle _ => exact fun d hd => absurd hd List.not_mem_nil
  | unclosed first _ =>
    intro d hd
    obtain rfl := List.mem_singleton.mp hd
    refine ⟨?_, fun hkind => by cases hkind⟩
    simp +decide [Block.unclosed, first.inLine_title]
  | closed _ _ _ _ ih => exact ih
  | overclosed first _ _ _ ih =>
    intro d hd
    rcases List.mem_cons.mp hd with rfl | hd
    · refine ⟨?_, fun hkind => by cases hkind⟩
      simp +decide [Block.overclosed, first.inLine_title]
    · exact ih d hd

end Schema

theorem schemaOutcome_wellWorded (relative name : Text) (bytes : Bytes) :
    ∀ d ∈ ((schemaOutcome relative name bytes).result relative).diagnostics, d.WellWorded := by
  unfold schemaOutcome
  split
  · next e _ => exact undecodable_wellWorded relative .schema e
  · next text _ =>
    -- the scan of a file never fails
    obtain ⟨r, hr, -, hdec⟩ := Schema.scanLines_decomposition relative name (Text.splitLines text)
    simp only [hr, Outcome.result]
    exact hdec.wellWorded

/-! ## Files and directories -/

/-- **The reports of a file**, whatever became of it. -/
theorem fileOutcome_wellWorded (fs : FileSystem) {parse : Bytes → Node}
    (hparse : Syntax.Faithful parse) (settings : Settings) (kind : SourceKind) (path relative : Text) :
    ∀ d ∈ ((fileOutcome fs parse settings kind path relative).result relative).diagnostics,
      d.WellWorded := by
  unfold fileOutcome
  split
  · next e _ =>
    have hmessage : InLine s!"Failed to read {kind.label}: {e.message}" := by
      simp +decide [inLine_label]
    exact givenUp_wellWorded relative hmessage (by decide)
  · cases kind with
    | java => exact javaOutcome_wellWorded hparse _ _ _ _
    | schema => exact schemaOutcome_wellWorded _ _ _

/-- The reports of a walk. -/
theorem Discovered.wellWorded (discovered : Discovered) (cwd root : Text) :
    ∀ d ∈ discovered.diagnostics cwd root, d.kind = .traversalError ∧ d.WellWorded := by
  intro d hd
  obtain ⟨failure, -, rfl⟩ := List.mem_map.mp hd
  exact ⟨rfl, by simp +decide [unlistableReport], fun hkind => by cases hkind⟩

section Runs

variable {seen later : FileSystem} {parse : Bytes → Node} {settings : Settings} {directory : Text}
  {run : DirectoryRun}

/-- The reports of a file that was discovered, whether or not it is still there. -/
theorem visitDiscovered_wellWorded (hparse : Syntax.Faithful parse) {root path : Text} {visit : Visit}
    (h : visitDiscovered later parse settings root path = .ok visit) :
    ∀ d ∈ visit.result.diagnostics, d.WellWorded := by
  rcases visitDiscovered_cases h with rfl | ⟨kind, -, rfl⟩ <;> rw [Visit.result_mk]
  · exact givenUp_wellWorded _ (by decide) (by decide)
  · exact fileOutcome_wellWorded later hparse settings kind _ _

theorem extractDirectory_eq_ok_iff :
    extractDirectory seen later parse settings directory = .ok run ↔
      extractInto {} seen later parse settings directory = .ok run := by
  unfold extractDirectory
  split
  · next hrun => rw [hrun, Except.ok.injEq, Except.ok.injEq]
  · next hrun => simp [hrun]
  · next e hrun => exact absurd hrun (extractInto_ne_file {} seen later parse settings directory e)

theorem before_of_extractInto {sink : Sink}
    (h : extractInto sink seen later parse settings directory = .ok run) : run.before = sink.size := by
  unfold extractInto at h
  simp only [bind_eq_ok_iff] at h
  obtain ⟨discovered, -, ⟨visits, ledger⟩, -, h⟩ := h
  cases h
  rfl

/-- **The reports of a run**: those of the walk, and then those of the files that it found. -/
theorem extractDirectory_reports (h : extractDirectory seen later parse settings directory = .ok run) :
    discover seen settings directory = .ok run.discovered ∧
    run.discovered.files.map
        (visitDiscovered later parse settings (Path.absolute seen.cwd directory)) =
      run.visits.map .ok ∧
    run.diagnostics = run.discovered.diagnostics seen.cwd (Path.absolute seen.cwd directory) ++
      run.visits.flatMap (·.result.diagnostics) := by
  rw [extractDirectory_eq_ok_iff] at h
  have hbefore : run.before = 0 := before_of_extractInto h
  cases hfound : discoverAt seen settings (Path.absolute seen.cwd directory) with
  | error cause =>
    rw [extractInto_eq_error hfound] at h
    cases h
  | ok found =>
    obtain ⟨run', hrun', haccounts⟩ : ∃ run, extractInto {} seen later parse settings directory =
        .ok run ∧ run.Accounts {} seen later parse settings directory :=
      extractInto_of_discoverAt hfound
    obtain rfl : run = run' := Except.ok.inj (h.symm.trans hrun')
    refine ⟨haccounts.discovered, haccounts.visits, ?_⟩
    rw [DirectoryRun.diagnostics, hbefore, List.drop_zero, haccounts.entries, List.nil_append]

theorem extractDirectory_wellWorded (hparse : Syntax.Faithful parse)
    (h : extractDirectory seen later parse settings directory = .ok run) :
    ∀ d ∈ run.diagnostics, d.WellWorded := by
  obtain ⟨-, hvisits, hreports⟩ := extractDirectory_reports h
  intro d hd
  rw [hreports] at hd
  rcases List.mem_append.mp hd with hwalk | hfile
  · exact (run.discovered.wellWorded _ _ d hwalk).2
  · obtain ⟨visit, hvisit, hd⟩ := List.mem_flatMap.mp hfile
    obtain ⟨path, -, hpath⟩ := exists_path_of_visit hvisits hvisit
    exact visitDiscovered_wellWorded hparse hpath d hd

end Runs

/-- **No file and no directory gets a line feed into a message.** A file that is there and has a known
ending is taken, whatever it holds and whether or not it can be opened, and its reports are in one line; what
they quote from the source has no blank but single ordinary ones, and is bounded. So are the reports of a
walk in one line, whatever the names of the directories that cannot be listed. -/
theorem reports_well_worded {parse : Bytes → Node} (hparse : Syntax.Faithful parse) (fs : FileSystem)
    (settings : Settings) :
    (∀ path root, fs.isFile (Path.absolute fs.cwd path) = true →
      (settings.kindFor? (Path.baseName (Path.absolute fs.cwd path))).isSome →
      ∃ visit, extractFile fs parse settings path root = .ok visit ∧
        ∀ d ∈ visit.result.diagnostics, d.WellWorded) ∧
    ∀ directory discovered, discover fs settings directory = .ok discovered →
      ∀ d ∈ discovered.diagnostics fs.cwd (Path.absolute fs.cwd directory),
        d.kind = .traversalError ∧ d.WellWorded := by
  refine ⟨fun path root hfile hknown => ?_, fun directory discovered _ => discovered.wellWorded _ _⟩
  obtain ⟨kind, hkind⟩ := Option.isSome_iff_exists.mp hknown
  refine ⟨_, visitFile_of_isFile hfile hkind, ?_⟩
  rw [Visit.result_mk]
  exact fileOutcome_wellWorded fs hparse settings kind _ _

/-- A piece of Java that cannot be fitted, over two lines. -/
def brokenText : String := "void\n\tf("

/-- Its tree. -/
def brokenTree : Node :=
  .node { kind := "ERROR", start := 0, stop := 8, hasError := true }
    [.node { kind := "void_type", start := 0, stop := 4 } [],
      .node { kind := "identifier", start := 6, stop := 7 } []]

/-- A parser that fits nothing: besides that tree, it has a single node for everything. -/
def coarseParse (bytes : Bytes) : Node :=
  if bytes = Utf8.encode brokenText then brokenTree
  else .node { kind := "program", start := 0, stop := bytes.length } []

theorem brokenTree_covers : brokenTree.Covers brokenText := by
  have hstart : Syntax.IsBoundary brokenText 0 := ⟨"", brokenText, by decide +kernel, by decide +kernel⟩
  have htype : Syntax.IsBoundary brokenText 4 := ⟨"void", "\n\tf(", by decide +kernel, by decide +kernel⟩
  have hname : Syntax.IsBoundary brokenText 6 := ⟨"void\n\t", "f(", by decide +kernel, by decide +kernel⟩
  have hname' : Syntax.IsBoundary brokenText 7 := ⟨"void\n\tf", "(", by decide +kernel, by decide +kernel⟩
  have hstop : Syntax.IsBoundary brokenText 8 := ⟨brokenText, "", by decide +kernel, by decide +kernel⟩
  refine .node (by decide) hstart hstop (by decide) (by decide) ?_
  simp only [List.forall_mem_cons]
  exact ⟨.node (by decide) hstart htype (by decide) (by decide) (by simp),
    .node (by decide) hname hname' (by decide) (by decide) (by simp), by simp⟩

theorem brokenTree_kinds : brokenTree.KindsInLine := by
  refine .node (by decide) ?_
  simp only [List.forall_mem_cons]
  exact ⟨.node (by decide) (by simp), .node (by decide) (by simp), by simp⟩

theorem coarseParse_faithful : Syntax.Faithful coarseParse := by
  have hcases : ∀ text, text = brokenText ∨ coarseParse (Utf8.encode text) =
      .node { kind := "program", start := 0, stop := (Utf8.encode text).length } [] := by
    intro text
    by_cases hbytes : Utf8.encode text = Utf8.encode brokenText
    · left
      have hdecode := Utf8.decode_eq_ok_iff.mpr hbytes
      rw [Utf8.decode_eq_ok_iff.mpr rfl] at hdecode
      exact Except.ok.inj hdecode
    · right
      rw [coarseParse, if_neg hbytes]
  have hbroken : coarseParse (Utf8.encode brokenText) = brokenTree := if_pos rfl
  constructor
  · intro text
    rcases hcases text with rfl | hcoarse
    · rw [hbroken]
      exact brokenTree_covers
    · rw [hcoarse]
      exact .node (Nat.zero_le _) ⟨"", text, by simp, rfl⟩ ⟨text, "", by simp, rfl⟩ (by simp) (by simp)
        (by simp)
  · intro text
    rcases hcases text with rfl | hcoarse
    · rw [hbroken]
      exact brokenTree_kinds
    · rw [hcoarse]
      exact .node (show InLine "program" by decide) (by simp)

/-- A directory with that piece of Java, and one that cannot be listed and has a line feed in its name. -/
def tornEntries : Entries :=
  [("A.java", .file (Utf8.encode brokenText)), ("x\ny", .directory [])]

/-- The file system of that directory. -/
def torn : FileSystem where
  entries := [("d", .directory tornEntries)]
  unlistable := [("/d/x\ny", .denied)]

theorem discover_torn : discover torn {} "d" = .ok ⟨[("/d/A.java" : Text)], [⟨.denied, "/d/x\ny"⟩]⟩ := by
  have hroot : Path.absolute torn.cwd "d" = "/d" := by decide +kernel
  have hpieces : Path.pieces (Path.append "/" "/d") = [("" : Text), "d"] := by decide +kernel
  have hentry : torn.entry "/d" = .ok (.directory tornEntries) := by
    simp [FileSystem.entry, FileSystem.locate, torn, hpieces, locateFrom, Trail.here, Trail.place,
      Entries.get?, bind, Except.bind]
  have ha : Path.append "/d" "A.java" = "/d/A.java" := by decide +kernel
  have hx : Path.append "/d" "x\ny" = "/d/x\ny" := by decide +kernel
  have horder : ("A.java" : Text) ≤ "x\ny" := by decide +kernel
  have henterx : ({} : Settings).entersAt "/" "/d" "/d/x\ny" = true := by decide +kernel
  have htakesa : ({} : Settings).takesAt "/" "/d" "/d/A.java" = true := by decide +kernel
  have hmet : sightings torn (({} : Settings).entersAt "/" "/d") "/d" (.directory tornEntries) =
      [.file "/d/A.java", .unlistable ⟨.denied, "/d/x\ny"⟩] := by
    simp [sightings, branches, torn, tornEntries, FileSystem.filesIn, FileSystem.showsFile,
      FileSystem.listingCause?, List.lookup_cons, List.lookup_nil, ha, hx, List.mergeSort,
      List.MergeSort.Internal.splitInTwo, nameOrder, horder, henterx]
  rw [discover, hroot]
  refine discoverAt_eq_ok_iff.mpr ⟨_, hentry, by decide, ?_⟩
  rw [discoverIn_eq, show torn.cwd = "/" from rfl, hmet]
  simp [List.filterMap_cons, Sighting.file?, Sighting.unlistable?, htakesa]

theorem entry_torn_file : torn.entry "/d/A.java" = .ok (.file (Utf8.encode brokenText)) := by
  have hpieces : Path.pieces (Path.append "/" "/d/A.java") = [("" : Text), "d", "A.java"] := by
    decide +kernel
  simp [FileSystem.entry, FileSystem.locate, torn, tornEntries, hpieces, locateFrom, Trail.here,
    Entries.get?, bind, Except.bind]

/-- The report on the piece of Java quotes it in one line, and so does the report on the directory. -/
theorem reports_well_worded_of_torn_file :
    Syntax.Faithful coarseParse ∧ torn.isFile "/d/A.java" = true ∧
    discover torn {} "d" = .ok ⟨[("/d/A.java" : Text)], [⟨.denied, "/d/x\ny"⟩]⟩ ∧
    (∃ visit, extractFile torn coarseParse {} "d/A.java" none = .ok visit ∧
      visit.result.diagnostics.map (·.message) =
        ["Failed to parse Java file", "Syntax error near 'void f('"] ∧
      ∀ d ∈ visit.result.diagnostics, d.WellWorded) ∧
    ∀ d ∈ Discovered.diagnostics ⟨[("/d/A.java" : Text)], [⟨.denied, "/d/x\ny"⟩]⟩ "/" "/d",
      d.kind = .traversalError ∧ d.WellWorded := by
  have hpath : Path.absolute torn.cwd "d/A.java" = "/d/A.java" := by decide +kernel
  have hroot : Path.absolute torn.cwd "d" = "/d" := by decide +kernel
  have hentry := entry_torn_file
  have hfile : torn.isFile "/d/A.java" = true := by
    rw [FileSystem.isFile, hentry]
    rfl
  have hread : torn.readSource "/d/A.java" = .ok (Utf8.encode brokenText) := by
    simp [FileSystem.readSource, FileSystem.read, hentry, show torn.unreadable = [] from rfl]
  have hkind : ({} : Settings).kindFor? (Path.baseName "/d/A.java") = some .java := by decide +kernel
  have hproblems : Syntax.problems (Utf8.encode brokenText) (coarseParse (Utf8.encode brokenText)) =
      [⟨some 1, "Syntax error near 'void f('"⟩] := by decide +kernel
  obtain ⟨hfiles, hwalks⟩ := reports_well_worded coarseParse_faithful torn {}
  obtain ⟨visit, hvisit, hworded⟩ := hfiles "d/A.java" none (by rw [hpath, hfile])
    (by rw [hpath, hkind]; rfl)
  refine ⟨coarseParse_faithful, hfile, discover_torn, ⟨visit, hvisit, ?_, hworded⟩, ?_⟩
  · have htaken := hvisit
    simp only [extractFile, hpath] at htaken
    rw [visitFile_of_isFile hfile hkind] at htaken
    cases htaken
    have hdecode : Utf8.decode (Utf8.encode brokenText) = .ok brokenText :=
      Utf8.decode_eq_ok_iff.mpr rfl
    simp [Visit.result_mk, fileOutcome, hread, javaOutcome, hdecode, hproblems, Outcome.result,
      problemReports]
  · have hreports := hwalks "d" _ discover_torn
    rw [hroot] at hreports
    exact hreports

end Gleaner
