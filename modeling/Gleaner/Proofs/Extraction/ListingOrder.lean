import Gleaner.Proofs.Extraction.Exclusion

/-!
# The order of a listing does not matter

A directory is listed in whatever order its entries happen to be stored. Two file systems are compared
that differ in this order only, in any number of directories and at any depth. What is at a place is
found by the names that lead there, so that both have the same at every place. A walk sorts the names of
each directory before it reports a file or goes further down. So the same files are discovered in the
same order, the same directories are reported, and two runs are the same throughout.

## Main definitions

* `Entry.Reordered`, `FileSystem.Reordered`: the same tree, listed in another order

## Main results

* `Entry.Reordered.map_at?_eq`: what is at a place does not depend on the order
* `FileSystem.Reordered.discoverAt_eq`: neither does what is discovered
* `FileSystem.Reordered.visitDiscovered_eq`: nor what a file yields
* `extractInto_ignores_listing_order`: two runs that differ in the order of listings
-/

namespace Gleaner

open Gleaner.Utf8 (Bytes)
open Gleaner.Syntax (Node)

/-! ## Trees -/

/-- **The same tree, listed in another order.** The entries of a directory may be permuted, in the
directory itself and in those below it, one after the other. -/
inductive Entry.Reordered : Entry → Entry → Prop
  | refl (entry : Entry) : Entry.Reordered entry entry
  | trans {first second third : Entry} : Entry.Reordered first second → Entry.Reordered second third →
      Entry.Reordered first third
  | perm {entries entries' : Entries} : entries.Perm entries' →
      Entry.Reordered (.directory entries) (.directory entries')
  | inner (before after : Entries) (name : Text) {entry entry' : Entry} :
      Entry.Reordered entry entry' →
      Entry.Reordered (.directory (before ++ (name, entry) :: after))
        (.directory (before ++ (name, entry') :: after))

theorem Entries.Named.perm {entries entries' : Entries} (h : entries.Named)
    (hperm : entries.Perm entries') : entries'.Named := by
  constructor
  · intro x hx
    exact h.names x (hperm.mem_iff.mpr hx)
  · exact (hperm.map Prod.fst).nodup_iff.mp h.distinct

/-- Where names are distinct, an entry is found by its name in any order. -/
theorem Entries.Named.get?_eq_of_perm {entries entries' : Entries} (h : entries.Named)
    (hperm : entries.Perm entries') (name : Text) : entries.get? name = entries'.get? name := by
  ext entry
  rw [h.get?_eq_some_iff, (h.perm hperm).get?_eq_some_iff, hperm.mem_iff]

theorem Entries.get?_append (before after : Entries) (name : Text) :
    Entries.get? (before ++ after) name = (before.get? name).or (after.get? name) := by
  rw [Entries.get?, List.find?_append, Option.map_or]
  rfl

theorem Entries.get?_cons (key : Text) (entry : Entry) (entries : Entries) (name : Text) :
    Entries.get? ((key, entry) :: entries) name = if key = name then some entry else entries.get? name := by
  by_cases hkey : key = name <;> simp [Entries.get?, hkey]

namespace Entry.Reordered

variable {entry entry' : Entry}

theorem wellFormed (h : entry.Reordered entry') (hwell : entry.WellFormed) : entry'.WellFormed := by
  induction h with
  | refl => exact hwell
  | trans _ _ ih₁ ih₂ => exact ih₂ (ih₁ hwell)
  | perm hperm =>
    refine .directory (hwell.named.perm hperm) ?_
    intro x hx
    exact hwell.inner (hperm.mem_iff.mpr hx)
  | inner before after name _ ih =>
    have hnames := hwell.named.names
    have hdistinct := hwell.named.distinct
    have hinner : ∀ x ∈ before ++ (name, _) :: after, x.2.WellFormed := fun _ => hwell.inner
    simp only [List.forall_mem_append, List.forall_mem_cons] at hnames hinner
    simp only [List.map_append, List.map_cons] at hdistinct
    refine .directory ⟨?_, ?_⟩ ?_
    · simpa only [List.forall_mem_append, List.forall_mem_cons] using hnames
    · simpa only [List.map_append, List.map_cons] using hdistinct
    · simp only [List.forall_mem_append, List.forall_mem_cons]
      exact ⟨hinner.1, ih hinner.2.1, hinner.2.2⟩

/-- **What is at a place does not depend on the order**, as far as it can be told without a look into
directories. -/
theorem map_at?_eq {β : Type} {f : Entry → β}
    (hf : ∀ entries entries', f (.directory entries) = f (.directory entries'))
    (h : entry.Reordered entry') (hwell : entry.WellFormed) (place : List Text) :
    (entry.at? place).map f = (entry'.at? place).map f := by
  induction h generalizing place with
  | refl => rfl
  | trans h₁ _ ih₁ ih₂ => exact (ih₁ hwell place).trans (ih₂ (h₁.wellFormed hwell) place)
  | perm hperm =>
    cases place with
    | nil => exact congrArg some (hf _ _)
    | cons name rest => rw [Entry.at?, Entry.at?, hwell.named.get?_eq_of_perm hperm]
  | inner before after name _ ih =>
    cases place with
    | nil => exact congrArg some (hf _ _)
    | cons step rest =>
      have hinner := hwell.inner (List.mem_append_right before (List.mem_cons_self ..))
      rw [Entry.at?, Entry.at?, Entries.get?_append, Entries.get?_append, Entries.get?_cons,
        Entries.get?_cons]
      -- the entry in question is found only if none before it has the name
      cases Entries.get? before step with
      | some found => rfl
      | none =>
        rw [Option.none_or, Option.none_or]
        split_ifs
        · exact ih hinner rest
        · rfl

end Entry.Reordered

/-! ## File systems -/

/-- **The same file system, listed in another order.** The same paths refuse to be listed or opened. -/
structure FileSystem.Reordered (fs fs' : FileSystem) : Prop where
  tree : fs.tree.Reordered fs'.tree
  cwd : fs.cwd = fs'.cwd
  unlistable : ∀ path, fs.listingCause? path = fs'.listingCause? path
  unreadable : ∀ path, path ∈ fs.unreadable ↔ path ∈ fs'.unreadable

namespace FileSystem.Reordered

variable {fs fs' : FileSystem} {parse : Bytes → Node} {settings : Settings} {root path : Text}

theorem view_eq (h : fs.Reordered fs') (hwell : fs.WellFormed) : fs.view = fs'.view := by
  funext place
  exact h.tree.map_at?_eq (fun _ _ => rfl) hwell place

theorem bytesAt?_eq (h : fs.Reordered fs') (hwell : fs.WellFormed) (place : List Text) :
    fs.bytesAt? place = fs'.bytesAt? place := by
  have hbytes : (fs.tree.at? place).map Entry.bytes? = (fs'.tree.at? place).map Entry.bytes? :=
    h.tree.map_at?_eq (fun _ _ => rfl) hwell place
  simpa only [bytesAt?, Option.bind_map, Function.id_comp] using congrArg (Option.bind · id) hbytes

/-- **What is discovered does not depend on the order.** -/
theorem discoverAt_eq (h : fs.Reordered fs') (hwell : fs.WellFormed) :
    discoverAt fs settings root = discoverAt fs' settings root :=
  discoverAt_eq_of_view hwell (h.tree.wellFormed hwell) h.cwd (h.view_eq hwell) h.unlistable

/-- **What a file yields does not depend on the order.** -/
theorem visitDiscovered_eq (h : fs.Reordered fs') (hwell : fs.WellFormed) :
    visitDiscovered fs parse settings root path = visitDiscovered fs' parse settings root path := by
  refine visitDiscovered_congr h.cwd (h.unreadable path) (fileAt?_congr ?_ ?_)
  · rw [route_eq_of_view h.cwd (h.view_eq hwell)]
  · intro place _
    exact h.bytesAt?_eq hwell place

end FileSystem.Reordered

/-! ## Two runs -/

section Runs

variable {seen seen' later later' : FileSystem}

/-- **Two runs that differ in the order of listings** discover the same files and report the same
directories, or fail to discover in the same way, and they yield the same. -/
theorem extractInto_ignores_listing_order (sink : Sink) (parse : Bytes → Node)
    (settings : Settings) (directory : Text) (hwell : seen.WellFormed) (hwell' : later.WellFormed)
    (hseen : seen.Reordered seen') (hlater : later.Reordered later') :
    discover seen settings directory = discover seen' settings directory ∧
    (discover seen settings directory).map
        (·.diagnostics seen.cwd (Path.absolute seen.cwd directory)) =
      (discover seen' settings directory).map
        (·.diagnostics seen'.cwd (Path.absolute seen'.cwd directory)) ∧
    extractInto sink seen later parse settings directory =
      extractInto sink seen' later' parse settings directory := by
  have hfound : discover seen settings directory = discover seen' settings directory := by
    rw [discover, discover, ← hseen.cwd]
    exact hseen.discoverAt_eq hwell
  refine ⟨hfound, ?_, ?_⟩
  · rw [hfound, hseen.cwd]
  · refine extractInto_congr hseen.cwd (hseen.discoverAt_eq hwell) ?_
    intro found _ path _
    exact hlater.visitDiscovered_eq hwell'

/-- A directory with two files. -/
def folder (first second : Text) : Entry :=
  .directory [(first, .file []), (second, .file [])]

/-- A directory with a file, a folder of two files, and a directory that cannot be listed. All is listed
by name. -/
def tidy : FileSystem where
  entries := [("d", .directory [("a.proto", .file []), ("b", folder "x.proto" "y.proto"),
    ("c", .directory [])])]
  unlistable := [("/d/c", .denied)]

/-- The same, listed in another order at two levels. -/
def scattered : FileSystem where
  entries := [("d", .directory [("b", folder "y.proto" "x.proto"), ("c", .directory []),
    ("a.proto", .file [])])]
  unlistable := [("/d/c", .denied)]

theorem tidy_wellFormed : tidy.WellFormed := by
  have hfolder : (folder "x.proto" "y.proto").WellFormed :=
    .directory ⟨by decide, by decide⟩ (by simpa using .file [])
  have hempty : (Entry.directory []).WellFormed := .directory ⟨by decide, by decide⟩ (by simp)
  have hinner : (Entry.directory [("a.proto", .file []), ("b", folder "x.proto" "y.proto"),
      ("c", .directory [])]).WellFormed :=
    .directory ⟨by simp; decide, by simp⟩ (by simpa using ⟨.file [], hfolder, hempty⟩)
  exact .directory ⟨by simp [tidy]; decide, by simp [tidy]⟩ (by simpa [tidy] using hinner)

theorem tidy_reordered : tidy.Reordered scattered where
  tree := by
    have hfolder : (folder "x.proto" "y.proto").Reordered (folder "y.proto" "x.proto") :=
      .perm (List.Perm.swap ..)
    refine .inner [] [] "d" (.trans (.inner [("a.proto", .file [])] [("c", .directory [])] "b" hfolder) ?_)
    exact .perm ((List.Perm.swap ..).trans ((List.Perm.swap ..).cons _))
  cwd := rfl
  unlistable _ := rfl
  unreadable _ := Iff.rfl

theorem discover_tidy :
    discover tidy {} "d" = .ok
      ⟨[("/d/a.proto" : Text), "/d/b/x.proto", "/d/b/y.proto"], [⟨.denied, "/d/c"⟩]⟩ := by
  have hroot : Path.absolute "/" "d" = "/d" := by decide +kernel
  have hpieces : Path.pieces (Path.append "/" "/d") = [("" : Text), "d"] := by decide +kernel
  have ha : Path.append "/d" "a.proto" = "/d/a.proto" := by decide +kernel
  have hb : Path.append "/d" "b" = "/d/b" := by decide +kernel
  have hc : Path.append "/d" "c" = "/d/c" := by decide +kernel
  have hx : Path.append "/d/b" "x.proto" = "/d/b/x.proto" := by decide +kernel
  have hy : Path.append "/d/b" "y.proto" = "/d/b/y.proto" := by decide +kernel
  have hab : ("a.proto" : Text) ≤ "b" := by decide +kernel
  have hac : ("a.proto" : Text) ≤ "c" := by decide +kernel
  have hbc : ("b" : Text) ≤ "c" := by decide +kernel
  have hxy : ("x.proto" : Text) ≤ "y.proto" := by decide +kernel
  have henterb : ({} : Settings).entersAt "/" "/d" "/d/b" = true := by decide +kernel
  have henterc : ({} : Settings).entersAt "/" "/d" "/d/c" = true := by decide +kernel
  have htakes : ∀ path ∈ [("/d/a.proto" : Text), "/d/b/x.proto", "/d/b/y.proto"],
      ({} : Settings).takesAt "/" "/d" path = true := by decide +kernel
  obtain ⟨entries, hentries⟩ : ∃ entries, tidy.entries = [(("d" : Text), .directory entries)] := ⟨_, rfl⟩
  have hentry : tidy.entry "/d" = .ok (.directory entries) := by
    simp [FileSystem.entry, FileSystem.locate, hentries, show tidy.cwd = "/" from rfl, hpieces, locateFrom,
      Trail.here, Trail.place, Entries.get?, bind, Except.bind]
  have hmet : sightings tidy (({} : Settings).entersAt "/" "/d") "/d" (.directory entries) =
      [.file "/d/a.proto", .file "/d/b/x.proto", .file "/d/b/y.proto", .unlistable ⟨.denied, "/d/c"⟩] := by
    cases hentries
    simp [sightings, branches, tidy, folder, FileSystem.filesIn, FileSystem.showsFile,
      FileSystem.listingCause?, List.lookup_cons, List.lookup_nil, ha, hb, hc, hx, hy, List.mergeSort,
      List.MergeSort.Internal.splitInTwo, nameOrder, hab, hac, hbc, hxy, henterb, henterc]
  rw [discover, show tidy.cwd = "/" from rfl, hroot]
  refine discoverAt_eq_ok_iff.mpr ⟨_, hentry, by decide, ?_⟩
  rw [discoverIn_eq, show tidy.cwd = "/" from rfl, hmet]
  simp only [List.forall_mem_cons] at htakes
  simp [List.filterMap_cons, Sighting.file?, Sighting.unlistable?, htakes]

/-- The files are found by name, the directory that cannot be listed is reported, and all is taken in
one run as in the other. -/
theorem extractInto_ignores_listing_order_of_scattered :
    tidy.WellFormed ∧ tidy.Reordered scattered ∧
    discover scattered {} "d" = .ok
      ⟨[("/d/a.proto" : Text), "/d/b/x.proto", "/d/b/y.proto"], [⟨.denied, "/d/c"⟩]⟩ ∧
    ∃ run, extractInto {} tidy tidy Java.parse {} "d" = .ok run ∧
      extractInto {} scattered scattered Java.parse {} "d" = .ok run := by
  obtain ⟨hfound, -, hsame⟩ := extractInto_ignores_listing_order {} Java.parse {} "d"
    tidy_wellFormed tidy_wellFormed tidy_reordered tidy_reordered
  obtain ⟨run, hrun, -⟩ : ∃ run, extractInto {} tidy tidy Java.parse {} "d" = .ok run ∧
      run.Accounts {} tidy tidy Java.parse {} "d" := extractInto_of_discoverAt discover_tidy
  refine ⟨tidy_wellFormed, tidy_reordered, ?_, run, hrun, ?_⟩
  · rw [← hfound, discover_tidy]
  · rw [← hsame, hrun]

end Runs

end Gleaner
