import Gleaner.Proofs.Discovery.Walk

/-!
# Pruning loses no file

Discovery does not enter a directory that has an excluded segment in its path, and it tests each file
it meets on its own. The two tests look at different texts: the path of a directory with a slash after
it, and the whole path of a file. Still they never disagree. Walking through the whole tree, excluded
directories and all, and testing only the files at the end finds the same files in the same order.

## Main definitions

* `wholeWalk`: the paths below a directory, nothing left out but what cannot be listed

## Main results

* `mem_wholeWalk`: a path of the walk is made of names below its directory
* `nodup_wholeWalk`: no path is met twice
* `discover_eq_filter_wholeWalk`: discovery finds what the whole walk finds and the test keeps
-/

namespace Gleaner

open Gleaner.Path (IsName below)

/-! ## The whole tree -/

/-- The names in a directory that are not those of directories, in order. -/
def Entries.leaves (entries : Entries) : List Text :=
  ((entries.mergeSort nameOrder).filter fun x => !x.2.isDirectory).map Prod.fst

/-- The directories in a directory, in the order of their names. -/
def Entries.directories (entries : Entries) : List (Text × Entries) :=
  (entries.mergeSort nameOrder).filterMap fun x =>
    match x.2 with
    | .directory inner => some (x.1, inner)
    | _ => none

theorem Entries.mem_directories {entries : Entries} {x : Text × Entries} :
    x ∈ entries.directories ↔ (x.1, Entry.directory x.2) ∈ entries := by
  rw [Entries.directories, List.mem_filterMap]
  constructor
  · rintro ⟨⟨name, entry⟩, hmem, hentry⟩
    cases entry with
    | directory inner =>
      cases hentry
      exact List.mem_mergeSort.mp hmem
    | file bytes => cases hentry
    | link target => cases hentry
  · intro hmem
    exact ⟨_, List.mem_mergeSort.mpr hmem, rfl⟩

theorem Entries.sizeOf_lt_of_mem_directories {entries : Entries} {x : Text × Entries}
    (h : x ∈ entries.directories) : sizeOf x.2 < sizeOf entries := by
  have hlt := List.sizeOf_lt_of_mem (Entries.mem_directories.mp h)
  simp only [Prod.mk.sizeOf_spec, Entry.directory.sizeOf_spec] at hlt
  omega

/-- **The paths below a directory**, all of them but those of directories: first what is right in it, in
the order of names, and then what is below each of its directories, in the order of their names. Links
are not followed, and a directory that cannot be listed has nothing below it. -/
def wholeWalk (fs : FileSystem) (path : Text) (entries : Entries) : List Text :=
  if (fs.listingCause? path).isSome then []
  else
    entries.leaves.map (Path.append path) ++
      entries.directories.attach.flatMap fun x => wholeWalk fs (Path.append path x.1.1) x.1.2
termination_by sizeOf entries
decreasing_by exact Entries.sizeOf_lt_of_mem_directories x.2

section Whole

variable {fs : FileSystem} {path : Text} {entries : Entries}

/-- What a name yields among what is right in a directory. -/
def leafPath (path name : Text) (entry : Entry) : List Text :=
  if entry.isDirectory then [] else [Path.append path name]

theorem eq_of_mem_leafPath {path name p : Text} {entry : Entry} (h : p ∈ leafPath path name entry) :
    p = below path [name] := by
  unfold leafPath at h
  split_ifs at h
  · cases h
  · exact List.mem_singleton.mp h

/-- What a name yields among what is below the directories in a directory. -/
def directoryPaths (fs : FileSystem) (path name : Text) : Entry → List Text
  | .directory inner => wholeWalk fs (Path.append path name) inner
  | _ => []

theorem leaves_map_eq_inOrder :
    entries.leaves.map (Path.append path) = entries.inOrder (leafPath path) := by
  rw [Entries.leaves, Entries.inOrder]
  induction entries.mergeSort nameOrder with
  | nil => rfl
  | cons x l ih =>
    rw [List.flatMap_cons, ← ih, leafPath]
    cases hdirectory : x.2.isDirectory <;> simp [hdirectory]

theorem directories_flatMap_eq_inOrder :
    (entries.directories.flatMap fun x => wholeWalk fs (Path.append path x.1) x.2) =
      entries.inOrder (directoryPaths fs path) := by
  rw [Entries.directories, Entries.inOrder]
  induction entries.mergeSort nameOrder with
  | nil => rfl
  | cons x l ih =>
    obtain ⟨name, entry⟩ := x
    rw [List.flatMap_cons, ← ih]
    cases entry with
    | file bytes => rfl
    | link target => rfl
    | directory inner => rfl

theorem wholeWalk_eq :
    wholeWalk fs path entries =
      if (fs.listingCause? path).isSome then []
      else entries.inOrder (leafPath path) ++ entries.inOrder (directoryPaths fs path) := by
  have hattach : (entries.directories.attach.flatMap fun x =>
      wholeWalk fs (Path.append path x.1.1) x.1.2) =
      entries.directories.flatMap fun x => wholeWalk fs (Path.append path x.1) x.2 := by
    rw [← List.flatMap_map Subtype.val fun x : Text × Entries =>
      wholeWalk fs (Path.append path x.1) x.2, List.attach_map_subtype_val]
  rw [wholeWalk, hattach, leaves_map_eq_inOrder, directories_flatMap_eq_inOrder]

/-- **A path of the walk is made of names below its directory.** -/
theorem mem_wholeWalk (h : (Entry.directory entries).WellFormed) (path : Text) :
    ∀ p ∈ wholeWalk fs path entries,
      ∃ names, names ≠ [] ∧ (∀ name ∈ names, IsName name) ∧ p = below path names := by
  revert path
  refine Entry.WellFormed.directory_induction h fun entries hwell ih => ?_
  intro path p hp
  rw [wholeWalk_eq] at hp
  split_ifs at hp
  · cases hp
  rcases List.mem_append.mp hp with hp | hp
  · obtain ⟨name, entry, hmem, hleaf⟩ := Entries.mem_inOrder.mp hp
    have hname : IsName name := hwell.named.names _ hmem
    exact ⟨[name], List.cons_ne_nil _ _, by simpa using hname, eq_of_mem_leafPath hleaf⟩
  · obtain ⟨name, entry, hmem, hbelow⟩ := Entries.mem_inOrder.mp hp
    cases entry with
    | file bytes => cases hbelow
    | link target => cases hbelow
    | directory inner =>
      obtain ⟨names, -, hnames, rfl⟩ := ih name inner hmem _ p hbelow
      have hname : IsName name := hwell.named.names _ hmem
      exact ⟨name :: names, List.cons_ne_nil _ _, List.forall_mem_cons.mpr ⟨hname, hnames⟩, rfl⟩

/-- What a name yields below a directory starts with that name, and goes on after it. -/
theorem mem_directoryPaths (h : (Entry.directory entries).WellFormed) {name p : Text} {entry : Entry}
    (hmem : (name, entry) ∈ entries) (hp : p ∈ directoryPaths fs path name entry) :
    ∃ names, names ≠ [] ∧ (∀ n ∈ name :: names, IsName n) ∧ p = below path (name :: names) := by
  cases entry with
  | file bytes => cases hp
  | link target => cases hp
  | directory inner =>
    obtain ⟨names, hne, hnames, rfl⟩ := mem_wholeWalk (h.inner hmem) _ p hp
    have hname : IsName name := h.named.names _ hmem
    exact ⟨names, hne, List.forall_mem_cons.mpr ⟨hname, hnames⟩, rfl⟩

/-- **No path is met twice.** -/
theorem nodup_wholeWalk (h : (Entry.directory entries).WellFormed) (path : Text) :
    (wholeWalk fs path entries).Nodup := by
  revert path
  refine Entry.WellFormed.directory_induction h fun entries hwell ih => ?_
  intro path
  have hnamed := hwell.named
  rw [wholeWalk_eq]
  split_ifs
  · exact List.nodup_nil
  refine List.Nodup.append ?_ ?_ ?_
  · refine hnamed.nodup_inOrder (fun name entry _ => ?_) ?_
    · unfold leafPath
      split_ifs <;> simp
    · intro name entry name' entry' hmem hmem' hne p hp hp'
      have hname : IsName name := hnamed.names _ hmem
      have hname' : IsName name' := hnamed.names _ hmem'
      have hsame : below path [name] = below path [name'] :=
        (eq_of_mem_leafPath hp).symm.trans (eq_of_mem_leafPath hp')
      have hnames := Path.below_injective (by simpa using hname) (by simpa using hname') hsame
      exact hne (List.cons.inj hnames).1
  · refine hnamed.nodup_inOrder (fun name entry hmem => ?_) ?_
    · cases entry with
      | file bytes => exact List.nodup_nil
      | link target => exact List.nodup_nil
      | directory inner => exact ih name inner hmem _
    · intro name entry name' entry' hmem hmem' hne p hp hp'
      obtain ⟨names, -, hnames, hbelow⟩ := mem_directoryPaths hwell hmem hp
      obtain ⟨names', -, hnames', hbelow'⟩ := mem_directoryPaths hwell hmem' hp'
      exact hne (List.cons.inj (Path.below_injective hnames hnames' (hbelow.symm.trans hbelow'))).1
  · -- what is right in the directory has one name below it, all else has more
    intro p hp hp'
    obtain ⟨name, entry, hmem, hleaf⟩ := Entries.mem_inOrder.mp hp
    obtain ⟨name', entry', hmem', hbelow⟩ := Entries.mem_inOrder.mp hp'
    have hname : IsName name := hnamed.names _ hmem
    obtain ⟨names, hne, hnames, hbelow⟩ := mem_directoryPaths hwell hmem' hbelow
    have hsame : below path [name] = below path (name' :: names) :=
      (eq_of_mem_leafPath hleaf).symm.trans hbelow
    have heq := Path.below_injective (by simpa using hname) hnames hsame
    exact hne (List.cons.inj heq).2.symm

end Whole

/-! ## Discovery -/

section Discovery

variable {fs : FileSystem} {settings : Settings} {root : Text}

theorem entersAt_below {cwd : Text} {names : List Text} (h : ∀ name ∈ names, IsName name)
    (hne : names ≠ []) :
    settings.entersAt cwd root (below root names) =
      !Path.isExcluded settings.excludedSegments (Path.join names ++ "/") := by
  rw [Settings.entersAt, Path.relative_below cwd root h hne, Settings.enters]

/-- **Below a directory that is not entered no file takes part.** -/
theorem takesAt_below_eq_false {cwd : Text} {names more : List Text}
    (h : ∀ name ∈ names, IsName name) (hmore : ∀ name ∈ more, IsName name) (hne : names ≠ [])
    (hmore_ne : more ≠ []) (hpruned : settings.entersAt cwd root (below root names) = false) :
    settings.takesAt cwd root (below root (names ++ more)) = false := by
  have hall : ∀ name ∈ names ++ more, IsName name := by
    intro name hname
    rcases List.mem_append.mp hname with hname | hname
    · exact h name hname
    · exact hmore name hname
  rw [entersAt_below h hne, Bool.not_eq_false'] at hpruned
  rw [Settings.takesAt, Path.relative_below cwd root hall (by simp [hne]), Settings.takes,
    Path.isExcluded_below hne hmore_ne hpruned]
  rfl

/-- What the files right in a directory come to: of the names that are not those of directories, the
ones that lead to files. -/
theorem filter_fileSighting_eq {entries : Entries} {path name : Text} {entry : Entry}
    {place : List Text} (hreaches : fs.Reaches path place)
    (hat : fs.tree.at? place = some (.directory entries)) (hname : IsName name)
    (hget : entries.get? name = some entry) (keep : Text → Bool) :
    ((fs.fileSighting path name entry).filterMap Sighting.file?).filter keep =
      (leafPath path name entry).filter fun p => fs.isFile p && keep p := by
  have hshows := hreaches.showsFile_eq hat hname
  rw [hget, Option.elim_some] at hshows
  rw [FileSystem.fileSighting, leafPath, hshows]
  cases hfile : fs.isFile (Path.append path name) with
  | true =>
    -- an entry that leads to a file is no directory
    rw [hfile] at hshows
    have hdirectory : entry.isDirectory = false := by
      cases entry with
      | file bytes => rfl
      | link target => rfl
      | directory inner => cases hshows
    simp [Sighting.file?, hdirectory, List.filter_cons, hfile]
  | false => cases hdirectory : entry.isDirectory <;> simp [hfile]

/-- **The files of a walk are, of all that is below a directory, the files that take part.** The
induction is on the tree; where the walk does not go on, nothing below takes part. -/
theorem filter_sightings_eq {entries : Entries} (hwell : (Entry.directory entries).WellFormed)
    (names place : List Text) (hnames : ∀ name ∈ names, IsName name)
    (hreaches : fs.Reaches (below root names) place)
    (hat : fs.tree.at? place = some (.directory entries)) :
    ((sightings fs (settings.entersAt fs.cwd root) (below root names) (.directory entries)).filterMap
        Sighting.file?).filter (settings.takesAt fs.cwd root) =
      (wholeWalk fs (below root names) entries).filter fun path =>
        fs.isFile path && settings.takesAt fs.cwd root path := by
  revert names place
  refine Entry.WellFormed.directory_induction hwell fun entries hwell ih => ?_
  intro names place hnames hreaches hat
  rw [sightings_directory hwell.named, wholeWalk_eq]
  cases fs.listingCause? (below root names) with
  | some cause => rfl
  | none =>
    dsimp only
    rw [Option.isSome_none, if_neg Bool.false_ne_true, List.filterMap_append, List.filter_append,
      List.filter_append]
    simp only [Entries.filterMap_inOrder, Entries.filter_inOrder]
    congr 1
    · refine Entries.inOrder_eq_of_mem fun name entry hmem => ?_
      exact filter_fileSighting_eq hreaches hat (hwell.named.names _ hmem)
        (hwell.named.get?_eq_some_iff.mpr hmem) _
    · refine Entries.inOrder_eq_of_mem fun name entry hmem => ?_
      have hname : IsName name := hwell.named.names _ hmem
      cases entry with
      | file bytes =>
        rw [subdirectorySightings_of_not_directory rfl]
        rfl
      | link target =>
        rw [subdirectorySightings_of_not_directory rfl]
        rfl
      | directory inner =>
        have hnames' : ∀ n ∈ names ++ [name], IsName n := by
          simpa [or_imp, forall_and] using ⟨hnames, hname⟩
        rw [subdirectorySightings, directoryPaths, ← Path.below_concat]
        split_ifs with henters
        · have hinner : fs.tree.at? (place ++ [name]) = some (.directory inner) := by
            rw [Entry.at?_concat hat, hwell.named.get?_eq_some_iff.mpr hmem]
          refine ih name inner hmem (names ++ [name]) (place ++ [name]) hnames' ?_ hinner
          rw [Path.below_concat]
          exact hreaches.append hname (FileSystem.view_eq_directory_iff.mpr ⟨inner, hinner⟩)
        · -- the walk leaves all of this out, and so does the test, file by file
          refine (List.filter_eq_nil_iff.mpr fun p hp => ?_).symm
          obtain ⟨more, hmore_ne, hmore, rfl⟩ := mem_wholeWalk (hwell.inner hmem) _ p hp
          rw [← Path.below_append, takesAt_below_eq_false hnames' hmore (by simp) hmore_ne
            (Bool.eq_false_iff.mpr henters), Bool.and_false]
          exact Bool.false_ne_true

/-- A path below a root is never empty, so that whether it takes part is a matter of its text. -/
theorem includes_below {cwd : Text} {names : List Text} (h : ∀ name ∈ names, IsName name)
    (hne : names ≠ []) :
    settings.includes cwd root (below root names) =
      .ok (settings.takesAt cwd root (below root names)) := by
  have hpath : (below root names).isEmpty = false := by
    obtain ⟨init, last, rfl⟩ := (List.eq_nil_or_concat names).resolve_left hne
    rw [List.concat_eq_append, Path.below_concat]
    exact Path.isEmpty_append _ (h last (by simp))
  simp only [Settings.includes, Path.relativeTo, hpath]
  rfl

/-- The files that are discovered are, of all that is below the root, those that take part. -/
theorem files_discoverIn {entries : Entries} (hfs : fs.WellFormed)
    (hroot : fs.entry root = .ok (.directory entries)) :
    (discoverIn fs settings root entries).files = (wholeWalk fs root entries).filter fun path =>
      fs.isFile path && settings.takesAt fs.cwd root path := by
  obtain ⟨place, hreaches, hat⟩ := FileSystem.reaches_of_entry hroot
  exact filter_sightings_eq (Entry.WellFormed.at? hfs hat) [] place (by simp) hreaches hat

theorem nodup_files_discoverIn {entries : Entries} (hfs : fs.WellFormed)
    (hroot : fs.entry root = .ok (.directory entries)) :
    (discoverIn fs settings root entries).files.Nodup := by
  obtain ⟨place, -, hat⟩ := FileSystem.reaches_of_entry hroot
  rw [files_discoverIn hfs hroot]
  exact (nodup_wholeWalk (Entry.WellFormed.at? hfs hat) root).filter _

/-- **Pruning loses no file.** Discovery in a directory that can be listed finds, in this order, the
paths of the whole walk that lead to files and take part, and none of them twice. -/
theorem discover_eq_filter_wholeWalk {directory : Text} {entries : Entries} (settings : Settings)
    (hfs : fs.WellFormed)
    (hroot : fs.entry (Path.absolute fs.cwd directory) = .ok (.directory entries))
    (hlisted : fs.listingCause? (Path.absolute fs.cwd directory) = none) :
    ∃ found, discover fs settings directory = .ok found ∧
      found.files = (wholeWalk fs (Path.absolute fs.cwd directory) entries).filter (fun path =>
        fs.isFile path &&
          decide (settings.includes fs.cwd (Path.absolute fs.cwd directory) path = .ok true)) ∧
      found.files.Nodup := by
  refine ⟨_, discoverAt_eq_ok_iff.mpr ⟨entries, hroot, hlisted, rfl⟩, ?_,
    nodup_files_discoverIn hfs hroot⟩
  obtain ⟨place, -, hat⟩ := FileSystem.reaches_of_entry hroot
  rw [files_discoverIn hfs hroot]
  refine List.filter_congr fun path hpath => ?_
  obtain ⟨names, hne, hnames, rfl⟩ := mem_wholeWalk (Entry.WellFormed.at? hfs hat) _ path hpath
  rw [includes_below hnames hne]
  simp

/-- A directory with a file, and with an excluded directory that has another. -/
def twoLevels : Entries :=
  [("build", .directory [("b.proto", .file [])]), ("a.proto", .file [])]

/-- A file system with files at two levels. -/
def nested : FileSystem where
  entries := [("d", .directory twoLevels)]

theorem nested_wellFormed : nested.WellFormed := by
  have hbuild : (Entry.directory [("b.proto", .file [])]).WellFormed :=
    .directory ⟨by decide, by decide⟩ (by simpa using .file [])
  have hinner : (Entry.directory twoLevels).WellFormed :=
    .directory ⟨by decide, by decide⟩ (by simpa [twoLevels] using ⟨hbuild, .file []⟩)
  exact .directory ⟨by decide, by decide⟩ (by simpa [nested] using hinner)

theorem nested_entry : nested.entry "/d" = .ok (.directory twoLevels) := by
  have hpieces : Path.pieces (Path.append "/" "/d") = [("" : Text), "d"] := by decide +kernel
  simp [FileSystem.entry, FileSystem.locate, nested, hpieces, locateFrom, Trail.here, Trail.place,
    Entries.get?, bind, Except.bind]

theorem wholeWalk_nested :
    wholeWalk nested "/d" twoLevels = [("/d/a.proto" : Text), "/d/build/b.proto"] := by
  have ha : Path.append "/d" "a.proto" = "/d/a.proto" := by decide +kernel
  have hbuild : Path.append "/d" "build" = "/d/build" := by decide +kernel
  have hb : Path.append "/d/build" "b.proto" = "/d/build/b.proto" := by decide +kernel
  have horder : ¬ ("build" : Text) ≤ "a.proto" := by decide +kernel
  have hsorted : twoLevels.mergeSort nameOrder =
      [(("a.proto" : Text), .file []), ("build", .directory [("b.proto", .file [])])] := by
    simp [twoLevels, List.mergeSort, nameOrder, horder, List.MergeSort.Internal.splitInTwo]
  have hinner : wholeWalk nested "/d/build" [("b.proto", .file [])] =
      [("/d/build/b.proto" : Text)] := by
    rw [wholeWalk_eq]
    simp [Entries.inOrder, leafPath, directoryPaths, nested, FileSystem.listingCause?, Entry.isDirectory,
      hb]
  have hlisted : nested.listingCause? "/d" = none := rfl
  rw [wholeWalk_eq, hlisted, Option.isSome_none, if_neg Bool.false_ne_true]
  simp [Entries.inOrder, hsorted, leafPath, directoryPaths, Entry.isDirectory, ha, hbuild, hinner]

/-- The whole walk meets the file in the excluded directory, and discovery leaves it out. -/
theorem discover_leaves_out_build :
    nested.WellFormed ∧ nested.entry (Path.absolute nested.cwd "d") = .ok (.directory twoLevels) ∧
    nested.listingCause? (Path.absolute nested.cwd "d") = none ∧
    wholeWalk nested "/d" twoLevels = [("/d/a.proto" : Text), "/d/build/b.proto"] ∧
    ∃ found, discover nested {} "d" = .ok found ∧ found.files = [("/d/a.proto" : Text)] := by
  have hroot : Path.absolute nested.cwd "d" = "/d" := by decide +kernel
  have hentry : nested.entry (Path.absolute nested.cwd "d") = .ok (.directory twoLevels) := by
    rw [hroot, nested_entry]
  have hlisted : nested.listingCause? (Path.absolute nested.cwd "d") = none := rfl
  refine ⟨nested_wellFormed, hentry, hlisted, wholeWalk_nested, ?_⟩
  obtain ⟨found, hfound, hfiles, -⟩ :=
    discover_eq_filter_wholeWalk {} nested_wellFormed hentry hlisted
  refine ⟨found, hfound, ?_⟩
  have ha : ({} : Settings).includes nested.cwd "/d" "/d/a.proto" = .ok true := by decide +kernel
  have hb : ({} : Settings).includes nested.cwd "/d" "/d/build/b.proto" = .ok false := by decide +kernel
  have hpieces : Path.pieces (Path.append "/" "/d/a.proto") = [("" : Text), "d", "a.proto"] := by
    decide +kernel
  have hfile : nested.isFile "/d/a.proto" = true := by
    simp [FileSystem.isFile, FileSystem.entry, FileSystem.locate, nested, twoLevels, hpieces,
      locateFrom, Trail.here, Entries.get?, bind, Except.bind, Entry.isFile]
  rw [hfiles, hroot, wholeWalk_nested]
  simp [ha, hb, hfile]

end Discovery

end Gleaner
