import Gleaner.Proofs.Discovery.Pruning
import Gleaner.Proofs.Extraction.Accounting

/-!
# A file costs only its own elements

Two runs are compared that differ in one file: in its bytes, in whether it can be opened, and in whether
it is still there when it is to be read. Discovery looks at none of this, so that both runs take the
same files in the same order. Each file is read on its own, by the path under which it was found. The
two runs can therefore differ in what this one file yields, and in nothing before or after it.

## Main definitions

* `FileSystem.AgreeExcept`: two file systems that differ in one file

## Main results

* `visitDiscovered_congr`: what a visit depends on
* `FileSystem.AgreeExcept.discoverAt_eq`: discovery does not look into files
* `FileSystem.AgreeExcept.visitDiscovered_eq`: a file that is not the one in question yields the same
* `extractInto_isolates_file`: two runs that differ in one file
-/

namespace Gleaner

open Gleaner.Utf8 (Bytes)
open Gleaner.Syntax (Node)
open Gleaner.Path (IsName below)

variable {parse : Bytes → Node} {settings : Settings} {root : Text}

/-! ## One visit -/

/-- **A visit depends on the file that its path leads to**, on whether it can be opened under that path,
and on the working directory. -/
theorem visitDiscovered_congr {fs fs' : FileSystem} {path : Text} (hcwd : fs.cwd = fs'.cwd)
    (hunreadable : path ∈ fs.unreadable ↔ path ∈ fs'.unreadable)
    (hfile : fs.fileAt? path = fs'.fileAt? path) :
    visitDiscovered fs parse settings root path = visitDiscovered fs' parse settings root path := by
  have hisFile : fs.isFile path = fs'.isFile path := by
    rw [FileSystem.isFile_eq, FileSystem.isFile_eq, hfile]
  -- a file that is gone is not opened, so that the two reads need to agree only on one that is there
  have hvisit : visitFile fs parse settings root path = visitFile fs' parse settings root path := by
    cases hbytes : fs.fileAt? path with
    | none =>
      have hnone := FileSystem.isFile_of_fileAt?_eq_none hbytes
      rw [visitFile, visitFile, ← hisFile, hnone, if_neg Bool.false_ne_true, if_neg Bool.false_ne_true]
    | some bytes =>
      have hentry := FileSystem.entry_of_fileAt?_eq_some hbytes
      have hentry' := FileSystem.entry_of_fileAt?_eq_some (hfile.symm.trans hbytes)
      have hread : fs.readSource path = fs'.readSource path := by
        simp only [FileSystem.readSource, FileSystem.read, hentry, hentry', List.contains_iff_mem,
          hunreadable]
      simp only [visitFile, fileOutcome, hisFile, hcwd, hread]
  rw [visitDiscovered, visitDiscovered, hvisit, hcwd]

/-- Where all paths yield the same in two runs, the visits are the same. -/
theorem visits_eq_of_forall_eq {fs fs' : FileSystem} {root' : Text} {paths : List Text}
    {visits visits' : List Visit}
    (h : paths.map (visitDiscovered fs parse settings root) = visits.map .ok)
    (h' : paths.map (visitDiscovered fs' parse settings root') = visits'.map .ok)
    (hsame : ∀ path ∈ paths, visitDiscovered fs parse settings root path =
      visitDiscovered fs' parse settings root' path) : visits = visits' := by
  have hok : Function.Injective (Except.ok : Visit → Except FileError Visit) :=
    fun _ _ => Except.ok.inj
  refine List.map_injective_iff.mpr hok ?_
  rw [← h, ← h']
  exact List.map_congr_left hsame

/-! ## Two file systems -/

/-- **Two file systems that differ in one file**: the file at a place, which is opened under a path. Its
bytes may differ, it may refuse to be opened, and it may be missing. -/
structure FileSystem.AgreeExcept (place : List Text) (path : Text) (fs fs' : FileSystem) :
    Prop where
  cwd : fs.cwd = fs'.cwd
  unlistable : ∀ p, fs.listingCause? p = fs'.listingCause? p
  unreadable : ∀ p, p ≠ path → (p ∈ fs.unreadable ↔ p ∈ fs'.unreadable)
  view : ∀ p, p ≠ place → fs.view p = fs'.view p
  bytes : ∀ p, p ≠ place → fs.bytesAt? p = fs'.bytesAt? p
  leaf : fs.view place = none ∨ fs.view place = some .file
  leaf' : fs'.view place = none ∨ fs'.view place = some .file

namespace FileSystem.AgreeExcept

variable {fs fs' : FileSystem} {place : List Text} {path : Text}

/-- Where the file is in both, they have the same kinds of things at the same places. -/
theorem view_eq (h : AgreeExcept place path fs fs') (hthere : fs.view place = some .file)
    (hthere' : fs'.view place = some .file) : fs.view = fs'.view := by
  funext p
  by_cases hp : p = place
  · rw [hp, hthere, hthere']
  · exact h.view p hp

/-- **Discovery does not look into files**: while the file is there, the same is discovered. -/
theorem discoverAt_eq (h : AgreeExcept place path fs fs') (hfs : fs.WellFormed) (hfs' : fs'.WellFormed)
    (hthere : fs.view place = some .file) (hthere' : fs'.view place = some .file) {found : Discovered}
    (hfound : discoverAt fs settings root = .ok found) : discoverAt fs' settings root = .ok found := by
  rw [← hfound]
  exact (discoverAt_eq_of_view hfs hfs' h.cwd (h.view_eq hthere hthere') h.unlistable).symm

/-- **Another file yields the same**, if its path does not lead to the file in question. -/
theorem visitDiscovered_eq (h : AgreeExcept place path fs fs') {other : Text} (hne : other ≠ path)
    (hstop : (fs.route other).stop ≠ .ok ⟨place, false⟩) :
    visitDiscovered fs parse settings root other = visitDiscovered fs' parse settings root other := by
  refine visitDiscovered_congr h.cwd (h.unreadable other hne) (fileAt?_congr ?_ ?_)
  · -- the file in question may be on the way, but as a file or as nothing it ends the way
    unfold FileSystem.route
    rw [h.cwd]
    split_ifs
    · rfl
    · exact View.toOption_stop_congr h.view h.leaf h.leaf'
  · intro p hp
    refine h.bytes p ?_
    rintro rfl
    exact hstop hp

end FileSystem.AgreeExcept

/-! ## Two runs -/

/-- **A run around one file**: what the file yields stands between what is yielded before and after it,
and its reports follow those of the walk. -/
structure DirectoryRun.Surrounds (sink : Sink) (walk : List Diagnostic) (before after : List Visit)
    (visit : Visit) (run : DirectoryRun) : Prop where
  visits : run.visits = before ++ visit :: after
  elements : run.elements = before.flatMap (·.result.elements) ++ visit.result.elements ++
    after.flatMap (·.result.elements)
  entries : run.ledger.sink.entries = sink.entries ++
    ((walk ++ before.flatMap (·.result.diagnostics)) ++ visit.result.diagnostics ++
      after.flatMap (·.result.diagnostics))

/-- **A run that accounts for its files is a run around each of them**, with the visits of the files
that come before it and of those that come after it. -/
theorem DirectoryRun.Accounts.exists_surrounds {sink : Sink} {seen later : FileSystem}
    {directory path : Text} {run : DirectoryRun} {earlier rest : List Text}
    (h : run.Accounts sink seen later parse settings directory)
    (hfiles : run.discovered.files = earlier ++ path :: rest) :
    ∃ before visit after,
      earlier.map (visitDiscovered later parse settings (Path.absolute seen.cwd directory)) =
        before.map .ok ∧
      visitDiscovered later parse settings (Path.absolute seen.cwd directory) path = .ok visit ∧
      rest.map (visitDiscovered later parse settings (Path.absolute seen.cwd directory)) =
        after.map .ok ∧
      run.Surrounds sink (run.discovered.diagnostics seen.cwd (Path.absolute seen.cwd directory))
        before after visit := by
  have hvisits := h.visits
  rw [hfiles, List.map_append, List.map_cons] at hvisits
  obtain ⟨before, more, hmore, hbefore, htail⟩ := List.map_eq_append_iff.mp hvisits.symm
  obtain ⟨visit, after, rfl, hvisit, hafter⟩ := List.map_eq_cons_iff.mp htail
  refine ⟨before, visit, after, hbefore.symm, hvisit.symm, hafter.symm, hmore, ?_, ?_⟩
  · rw [h.elements, hmore, List.flatMap_append, List.flatMap_cons, List.append_assoc]
  · rw [h.entries, hmore, List.flatMap_append, List.flatMap_cons]
    simp only [List.append_assoc]

section Runs

variable {seen₁ seen₂ later₁ later₂ : FileSystem} {place : List Text} {path directory : Text}
  {found : Discovered}

/-- A discovered file is discovered once. -/
theorem exists_files_split (hwell : seen₁.WellFormed)
    (hfound : discover seen₁ settings directory = .ok found) (hpath : path ∈ found.files) :
    ∃ earlier rest, found.files = earlier ++ path :: rest ∧ path ∉ earlier ++ rest := by
  obtain ⟨earlier, rest, hfiles⟩ := List.append_of_mem hpath
  refine ⟨earlier, rest, hfiles, ?_⟩
  obtain ⟨entries, hentry, -, rfl⟩ := discoverAt_eq_ok_iff.mp hfound
  have hnodup : (discoverIn seen₁ settings (Path.absolute seen₁.cwd directory) entries).files.Nodup :=
    nodup_files_discoverIn hwell hentry
  rw [hfiles] at hnodup
  exact (List.nodup_middle.mp hnodup).notMem

/-- **Two runs that differ in one file** yield the same before and after what it yields. The file is
discovered in both. By the time it is read it may have other bytes in one run than in the other, refuse
to be opened, or be gone. No other discovered path leads to it. -/
theorem extractInto_isolates_file (sink₁ sink₂ : Sink) (parse : Bytes → Node)
    (hwell₁ : seen₁.WellFormed) (hwell₂ : seen₂.WellFormed)
    (hseen : seen₁.AgreeExcept place path seen₂) (hthere₁ : seen₁.view place = some .file)
    (hthere₂ : seen₂.view place = some .file) (hlater : later₁.AgreeExcept place path later₂)
    (hfound : discover seen₁ settings directory = .ok found) (hpath : path ∈ found.files)
    (halone : ∀ other ∈ found.files, other ≠ path → (later₁.route other).stop ≠ .ok ⟨place, false⟩) :
    ∃ run₁ run₂ visit₁ visit₂ walk before after,
      extractInto sink₁ seen₁ later₁ parse settings directory = .ok run₁ ∧
      extractInto sink₂ seen₂ later₂ parse settings directory = .ok run₂ ∧
      visitDiscovered later₁ parse settings (Path.absolute seen₁.cwd directory) path = .ok visit₁ ∧
      visitDiscovered later₂ parse settings (Path.absolute seen₂.cwd directory) path = .ok visit₂ ∧
      run₁.Surrounds sink₁ walk before after visit₁ ∧ run₂.Surrounds sink₂ walk before after visit₂ := by
  have hfound₂ : discover seen₂ settings directory = .ok found := by
    rw [discover, ← hseen.cwd]
    exact hseen.discoverAt_eq hwell₁ hwell₂ hthere₁ hthere₂ hfound
  obtain ⟨run₁, hrun₁, haccounts₁⟩ : ∃ run, extractInto sink₁ seen₁ later₁ parse settings directory =
      .ok run ∧ run.Accounts sink₁ seen₁ later₁ parse settings directory :=
    extractInto_of_discoverAt hfound
  obtain ⟨run₂, hrun₂, haccounts₂⟩ : ∃ run, extractInto sink₂ seen₂ later₂ parse settings directory =
      .ok run ∧ run.Accounts sink₂ seen₂ later₂ parse settings directory :=
    extractInto_of_discoverAt hfound₂
  have hsame₁ : run₁.discovered = found := Except.ok.inj (haccounts₁.discovered.symm.trans hfound)
  have hsame₂ : run₂.discovered = found := Except.ok.inj (haccounts₂.discovered.symm.trans hfound₂)
  -- the file is discovered once, and all the others yield the same in both runs
  obtain ⟨earlier, rest, hfiles, honce⟩ := exists_files_split hwell₁ hfound hpath
  have hothers : ∀ other ∈ earlier ++ rest,
      visitDiscovered later₁ parse settings (Path.absolute seen₁.cwd directory) other =
        visitDiscovered later₂ parse settings (Path.absolute seen₂.cwd directory) other := by
    intro other hother
    have hne : other ≠ path := by
      rintro rfl
      exact honce hother
    have hmem : other ∈ found.files := by
      rw [hfiles]
      rcases List.mem_append.mp hother with h | h
      · exact List.mem_append_left _ h
      · exact List.mem_append_right _ (List.mem_cons_of_mem _ h)
    rw [← hseen.cwd]
    exact hlater.visitDiscovered_eq hne (halone other hmem hne)
  obtain ⟨before, visit₁, after, hbefore₁, hvisit₁, hafter₁, hsurrounds₁⟩ :=
    haccounts₁.exists_surrounds (hsame₁ ▸ hfiles)
  obtain ⟨before₂, visit₂, after₂, hbefore₂, hvisit₂, hafter₂, hsurrounds₂⟩ :=
    haccounts₂.exists_surrounds (hsame₂ ▸ hfiles)
  have hbefore : before = before₂ :=
    visits_eq_of_forall_eq hbefore₁ hbefore₂ fun other h => hothers other (List.mem_append_left _ h)
  have hafter : after = after₂ :=
    visits_eq_of_forall_eq hafter₁ hafter₂ fun other h => hothers other (List.mem_append_right _ h)
  subst hbefore hafter
  rw [hsame₁] at hsurrounds₁
  rw [hsame₂, ← hseen.cwd] at hsurrounds₂
  exact ⟨run₁, run₂, visit₁, visit₂, _, before, after, hrun₁, hrun₂, hvisit₁, hvisit₂, hsurrounds₁,
    hsurrounds₂⟩

/-- Two files, the first of which may be missing. -/
def pairEntries : Option Bytes → Entries
  | none => [("b.proto", .file [])]
  | some bytes => [("a.proto", .file bytes), ("b.proto", .file [])]

/-- A directory with two files, the first of which may be missing. -/
def pairOf (first : Option Bytes) : FileSystem where
  entries := [("d", .directory (pairEntries first))]

theorem pairOf_wellFormed (first : Option Bytes) : (pairOf first).WellFormed := by
  have ha : IsName "a.proto" := by decide
  have hb : IsName "b.proto" := by decide
  have hinner : (Entry.directory (pairEntries first)).WellFormed := by
    cases first with
    | none =>
      exact .directory ⟨by simp [pairEntries, hb], by simp [pairEntries]⟩
        (by simpa [pairEntries] using .file [])
    | some bytes =>
      exact .directory ⟨by simp [pairEntries, ha, hb], by simp [pairEntries]⟩
        (by simpa [pairEntries] using ⟨.file bytes, .file []⟩)
  have hd : IsName "d" := by decide
  exact .directory ⟨by simp [pairOf, hd], by simp [pairOf]⟩ (by simpa [pairOf] using hinner)

theorem get?_pairEntries (first : Option Bytes) (name : Text) :
    (pairEntries first).get? name =
      if name = "a.proto" then first.map .file
      else if name = "b.proto" then some (.file []) else none := by
  unfold pairEntries Entries.get?
  by_cases ha : name = "a.proto"
  · subst ha
    cases first <;> simp
  · by_cases hb : name = "b.proto"
    · subst hb
      cases first <;> simp
    · cases first <;> simp [ha, hb, Ne.symm ha, Ne.symm hb]

theorem at?_pairOf (first : Option Bytes) (name : Text) (rest : List Text) :
    (pairOf first).tree.at? (name :: rest) =
      if name = "d" then (Entry.directory (pairEntries first)).at? rest else none :=
  FileSystem.at?_of_single rfl name rest

theorem at?_pairOf_congr (first first' : Option Bytes) {p : List Text}
    (hp : p ≠ [("d" : Text), "a.proto"]) :
    ((pairOf first).tree.at? p).map Entry.kind = ((pairOf first').tree.at? p).map Entry.kind ∧
    ((pairOf first).tree.at? p).bind Entry.bytes? = ((pairOf first').tree.at? p).bind Entry.bytes? := by
  rcases p with _ | ⟨x, _ | ⟨y, rest⟩⟩
  · exact ⟨rfl, rfl⟩
  · rw [at?_pairOf, at?_pairOf]
    split_ifs <;> exact ⟨rfl, rfl⟩
  · simp only [at?_pairOf, Entry.at?, get?_pairEntries]
    split_ifs with hx hy
    · subst hx hy
      cases rest with
      | nil => exact absurd rfl hp
      | cons z rest => cases first <;> cases first' <;> exact ⟨rfl, rfl⟩
    all_goals exact ⟨rfl, rfl⟩

theorem view_pairOf (first : Option Bytes) :
    (pairOf first).view [("d" : Text), "a.proto"] = first.map fun _ => .file := by
  simp [FileSystem.view, at?_pairOf, Entry.at?, get?_pairEntries, Function.comp_def, Entry.kind]

theorem pairOf_agreeExcept (first first' : Option Bytes) :
    (pairOf first).AgreeExcept [("d" : Text), "a.proto"] "/d/a.proto" (pairOf first') where
  cwd := rfl
  unlistable _ := rfl
  unreadable _ _ := Iff.rfl
  view _ hp := (at?_pairOf_congr first first' hp).1
  bytes _ hp := (at?_pairOf_congr first first' hp).2
  leaf := by cases first <;> simp [view_pairOf]
  leaf' := by cases first' <;> simp [view_pairOf]

theorem discover_pairOf (bytes : Bytes) :
    discover (pairOf (some bytes)) {} "d" = .ok ⟨[("/d/a.proto" : Text), "/d/b.proto"], []⟩ := by
  have hroot : Path.absolute "/" "d" = "/d" := by decide +kernel
  have hpieces : Path.pieces (Path.append "/" "/d") = [("" : Text), "d"] := by decide +kernel
  have hentry : (pairOf (some bytes)).entry "/d" = .ok (.directory (pairEntries (some bytes))) := by
    simp [FileSystem.entry, FileSystem.locate, pairOf, hpieces, locateFrom, Trail.here, Trail.place,
      Entries.get?, bind, Except.bind]
  have ha : Path.append "/d" "a.proto" = "/d/a.proto" := by decide +kernel
  have hb : Path.append "/d" "b.proto" = "/d/b.proto" := by decide +kernel
  have horder : ("a.proto" : Text) ≤ "b.proto" := by decide +kernel
  have htakesa : ({} : Settings).takesAt "/" "/d" "/d/a.proto" = true := by decide +kernel
  have htakesb : ({} : Settings).takesAt "/" "/d" "/d/b.proto" = true := by decide +kernel
  have hmet : sightings (pairOf (some bytes)) (({} : Settings).entersAt "/" "/d") "/d"
      (.directory (pairEntries (some bytes))) = [.file "/d/a.proto", .file "/d/b.proto"] := by
    simp [sightings, branches, pairOf, pairEntries, FileSystem.filesIn, FileSystem.showsFile,
      FileSystem.listingCause?, ha, hb, List.mergeSort, List.MergeSort.Internal.splitInTwo, nameOrder,
      horder]
  have hcwd : (pairOf (some bytes)).cwd = "/" := rfl
  rw [discover, hcwd, hroot]
  refine discoverAt_eq_ok_iff.mpr ⟨_, hentry, rfl, ?_⟩
  rw [discoverIn_eq, hcwd, hmet]
  simp [Sighting.file?, Sighting.unlistable?, htakesa, htakesb]

theorem route_pairOf (first : Option Bytes) :
    ((pairOf first).route "/d/b.proto").stop = .ok ⟨[("d" : Text), "b.proto"], false⟩ := by
  have hpieces : Path.pieces (Path.append "/" "/d/b.proto") = [("" : Text), "d", "b.proto"] := by
    decide +kernel
  have hd : (pairOf first).view [("d" : Text)] = some .directory := by
    simp [FileSystem.view, at?_pairOf, Entry.kind]
  have hb : (pairOf first).view [("d" : Text), "b.proto"] = some .file := by
    simp [FileSystem.view, at?_pairOf, Entry.at?, get?_pairEntries, Entry.kind]
  rw [FileSystem.route, if_neg (by decide), show (pairOf first).cwd = "/" from rfl, hpieces,
    View.route_skip (by decide), View.route_directory (.of_isName (by decide)) hd,
    View.route_file (.of_isName (by decide)) hb]
  rfl

/-- In one run the file is scanned, in the other it has other bytes and is gone when it is to be
read. -/
theorem extractInto_isolates_vanished_file :
    (pairOf (some [])).WellFormed ∧ (pairOf (some [255])).WellFormed ∧
    (pairOf (some [])).AgreeExcept [("d" : Text), "a.proto"] "/d/a.proto" (pairOf (some [255])) ∧
    (pairOf (some [])).AgreeExcept [("d" : Text), "a.proto"] "/d/a.proto" (pairOf none) ∧
    ∃ run₁ run₂ visit₁ visit₂ walk before after,
      extractInto {} (pairOf (some [])) (pairOf (some [])) Java.parse {} "d" = .ok run₁ ∧
      extractInto {} (pairOf (some [255])) (pairOf none) Java.parse {} "d" = .ok run₂ ∧
      run₁.Surrounds {} walk before after visit₁ ∧ run₂.Surrounds {} walk before after visit₂ ∧
      visit₁.result.failed = false ∧ visit₂.result.failed = true := by
  refine ⟨pairOf_wellFormed _, pairOf_wellFormed _, pairOf_agreeExcept _ _, pairOf_agreeExcept _ _, ?_⟩
  have halone : ∀ other ∈ [("/d/a.proto" : Text), "/d/b.proto"], other ≠ "/d/a.proto" →
      ((pairOf (some [])).route other).stop ≠ .ok ⟨[("d" : Text), "a.proto"], false⟩ := by
    intro other hother hne
    obtain rfl : other = "/d/b.proto" := by simpa [hne] using hother
    rw [route_pairOf]
    decide
  obtain ⟨run₁, run₂, visit₁, visit₂, walk, before, after, hrun₁, hrun₂, hvisit₁, hvisit₂, hsurrounds₁,
      hsurrounds₂⟩ :=
    extractInto_isolates_file {} {} Java.parse (pairOf_wellFormed (some []))
      (pairOf_wellFormed (some [255])) (pairOf_agreeExcept _ _) (view_pairOf _) (view_pairOf _)
      (pairOf_agreeExcept (some []) none) (discover_pairOf []) (List.mem_cons_self ..) halone
  have hpieces : Path.pieces (Path.append "/" "/d/a.proto") = [("" : Text), "d", "a.proto"] := by
    decide +kernel
  refine ⟨run₁, run₂, visit₁, visit₂, walk, before, after, hrun₁, hrun₂, hsurrounds₁, hsurrounds₂,
    ?_, ?_⟩
  · have hentry : (pairOf (some [])).entry "/d/a.proto" = .ok (.file []) := by
      simp [FileSystem.entry, FileSystem.locate, pairOf, pairEntries, hpieces, locateFrom, Trail.here,
        Entries.get?, bind, Except.bind]
    have hkind : ({} : Settings).kindFor? (Path.baseName "/d/a.proto") = some .schema := by
      decide +kernel
    have hscanned : ((schemaOutcome (Path.relative "/" "/d" "/d/a.proto") (Path.baseName "/d/a.proto")
        []).result (Path.relative "/" "/d" "/d/a.proto")).failed = false := by decide +kernel
    rw [visitDiscovered, visitFile, FileSystem.isFile, hentry, hkind] at hvisit₁
    cases hvisit₁
    rw [Visit.result_mk, fileOutcome, FileSystem.readSource, FileSystem.read, hentry]
    exact hscanned
  · have hgone : (pairOf none).isFile "/d/a.proto" = false := by
      simp [FileSystem.isFile, FileSystem.entry, FileSystem.locate, pairOf, pairEntries, hpieces,
        locateFrom, Trail.here, Entries.get?, bind, Except.bind]
    rw [visitDiscovered, visitFile, hgone] at hvisit₂
    cases hvisit₂
    rfl

end Runs

end Gleaner
