import Mathlib.Data.List.Nodup
import Gleaner.Discovery
import Gleaner.Proofs.FileSystem.Route

/-!
# What a walk depends on

A walk takes the entries of each directory in the order of their names. Since no two have the same
name, it does not matter in which order the directory holds them: `Entries.inOrder_congr` says that all
that counts is what each name yields, where a name that is not there yields nothing. So two walks
through different trees meet the same if, at every directory that both enter, the same names are files
and the same names are entered.

## Main definitions

* `Entries.inOrder`: what entries yield, in the order of their names
* `FileSystem.Entered`: the way of a walk to a directory

## Main results

* `Entries.inOrder_congr`: a pass over a directory, name by name
* `sightings_directory`: a walk through a directory is two such passes
* `FileSystem.Reaches.showsFile_eq`: a walk meets the names that lead to files
* `exists_entered_of_mem`: what a walk meets, it meets in a directory that it gets to
* `sightings_congr`: two walks that meet the same
* `discoverAt_congr`: two discoveries that find the same
* `discoverAt_eq_of_view`: discovery in two trees with the same kinds of things at the same places
-/

namespace Gleaner

open Gleaner.Path (IsName below)

/-! ## The order of names -/

/-- No character has the number of a surrogate. -/
theorem CodePoint.toNat_inj {c d : CodePoint} (h : c.toNat = d.toNat) : c = d := by
  cases c with
  | char c =>
    cases d with
    | char d => rw [Char.toNat_inj.mp h]
    | surrogate offset =>
      have hvalid := c.valid
      have hnumber : c.val.toNat = 0xd800 + offset := h
      omega
  | surrogate offset =>
    cases d with
    | char d =>
      have hvalid := d.valid
      have hnumber : 0xd800 + offset = d.val.toNat := h
      omega
    | surrogate offset' => rw [Fin.ext (Nat.add_left_cancel h)]

namespace Text

variable {s t u : Text}

theorem le_trans (hst : s ≤ t) (htu : t ≤ u) : s ≤ u :=
  List.le_trans (α := ℕ) hst htu

theorem le_total (s t : Text) : s ≤ t ∨ t ≤ s :=
  List.le_total (α := ℕ) s.codes t.codes

theorem le_antisymm (hst : s ≤ t) (hts : t ≤ s) : s = t := by
  have hcodes : s.codes = t.codes := List.le_antisymm (α := ℕ) hst hts
  exact toList_inj.mp (List.map_injective_iff.mpr (fun _ _ => CodePoint.toNat_inj) hcodes)

end Text

theorem nameOrder_trans {α : Type} (a b c : Text × α) (hab : nameOrder a b = true)
    (hbc : nameOrder b c = true) : nameOrder a c = true := by
  simp only [nameOrder, decide_eq_true_eq] at *
  exact Text.le_trans hab hbc

theorem nameOrder_total {α : Type} (a b : Text × α) :
    (nameOrder a b || nameOrder b a) = true := by
  simp only [nameOrder, Bool.or_eq_true, decide_eq_true_eq]
  exact Text.le_total a.1 b.1

theorem pairwise_mergeSort_nameOrder {α : Type} (l : List (Text × α)) :
    (l.mergeSort nameOrder).Pairwise fun a b => a.1 ≤ b.1 :=
  (List.pairwise_mergeSort nameOrder_trans nameOrder_total l).imp fun h => of_decide_eq_true h

/-- A list of entries with distinct names is put in order in one way only. -/
theorem eq_of_perm_of_ordered {α : Type} {l l' : List (Text × α)} (hdistinct : (l.map Prod.fst).Nodup)
    (h : l.Pairwise fun a b => a.1 ≤ b.1) (h' : l'.Pairwise fun a b => a.1 ≤ b.1)
    (hperm : l.Perm l') : l = l' := by
  refine List.Perm.eq_of_pairwise (fun a b ha hb hab hba => ?_) h h' hperm
  exact List.inj_on_of_nodup_map hdistinct ha (hperm.mem_iff.mpr hb) (Text.le_antisymm hab hba)

/-! ## Name by name -/

/-- What the entries of a directory yield, in the order of their names. -/
def Entries.inOrder {β : Type} (entries : Entries) (yield : Text → Entry → List β) : List β :=
  (entries.mergeSort nameOrder).flatMap fun x => yield x.1 x.2

section InOrder

variable {β : Type} {entries : Entries} {yield yield' : Text → Entry → List β}

theorem Entries.inOrder_eq_of_mem
    (h : ∀ name entry, (name, entry) ∈ entries → yield name entry = yield' name entry) :
    entries.inOrder yield = entries.inOrder yield' := by
  refine List.flatMap_congr fun x hx => h x.1 x.2 ?_
  exact List.mem_mergeSort.mp hx

theorem Entries.mem_inOrder {b : β} :
    b ∈ entries.inOrder yield ↔ ∃ name entry, (name, entry) ∈ entries ∧ b ∈ yield name entry := by
  rw [Entries.inOrder, List.mem_flatMap]
  constructor
  · rintro ⟨x, hx, hb⟩
    exact ⟨x.1, x.2, List.mem_mergeSort.mp hx, hb⟩
  · rintro ⟨name, entry, hmem, hb⟩
    exact ⟨(name, entry), List.mem_mergeSort.mpr hmem, hb⟩

theorem Entries.filterMap_inOrder {γ : Type} (f : β → Option γ) :
    (entries.inOrder yield).filterMap f =
      entries.inOrder fun name entry => (yield name entry).filterMap f :=
  List.filterMap_flatMap ..

theorem Entries.filter_inOrder (keep : β → Bool) :
    (entries.inOrder yield).filter keep =
      entries.inOrder fun name entry => (yield name entry).filter keep :=
  List.filter_flatMap ..

/-- Nothing is yielded twice if no entry yields anything twice, or anything that another yields. -/
theorem Entries.Named.nodup_inOrder (h : entries.Named)
    (hyield : ∀ name entry, (name, entry) ∈ entries → (yield name entry).Nodup)
    (hdisjoint : ∀ name entry name' entry', (name, entry) ∈ entries → (name', entry') ∈ entries →
      name ≠ name' → List.Disjoint (yield name entry) (yield name' entry')) :
    (entries.inOrder yield).Nodup := by
  have hperm := List.mergeSort_perm entries nameOrder
  have hnames : (entries.mergeSort nameOrder).Pairwise fun a b => a.1 ≠ b.1 :=
    List.pairwise_map.mp ((hperm.map Prod.fst).nodup_iff.mpr h.distinct)
  rw [Entries.inOrder, List.nodup_flatMap]
  refine ⟨fun x hx => hyield x.1 x.2 (hperm.mem_iff.mp hx), ?_⟩
  refine List.Pairwise.imp_of_mem (fun {a b} ha hb hne => ?_) hnames
  exact hdisjoint a.1 a.2 b.1 b.2 (hperm.mem_iff.mp ha) (hperm.mem_iff.mp hb) hne

theorem flatMap_filter_nonempty {α : Type} (l : List α) (f : α → List β) :
    (l.filter fun a => !(f a).isEmpty).flatMap f = l.flatMap f := by
  induction l with
  | nil => rfl
  | cons a l ih =>
    cases hfa : f a with
    | nil => simp [hfa, ih]
    | cons b bs => simp [hfa, ih]

/-- A pass over a directory as a pass over its names. -/
theorem Entries.Named.inOrder_eq_flatMap_names (h : entries.Named) :
    entries.inOrder yield =
      ((entries.mergeSort nameOrder).map Prod.fst).flatMap fun name =>
        (entries.get? name).elim [] (yield name) := by
  rw [List.flatMap_map]
  refine List.flatMap_congr fun x hx => ?_
  have hget : entries.get? x.1 = some x.2 := h.get?_eq_some_iff.mpr (List.mem_mergeSort.mp hx)
  rw [hget, Option.elim_some]

/-- **A pass over a directory depends on what each name yields**, and on nothing else: not on the order
of the entries, and not on names that yield nothing. -/
theorem Entries.inOrder_congr {other : Entries} (h : entries.Named) (h' : other.Named)
    (hsame : ∀ name, (entries.get? name).elim [] (yield name) =
      (other.get? name).elim [] (yield' name)) :
    entries.inOrder yield = other.inOrder yield' := by
  rw [h.inOrder_eq_flatMap_names, h'.inOrder_eq_flatMap_names, ← funext hsame]
  rw [← flatMap_filter_nonempty, ← flatMap_filter_nonempty (List.map Prod.fst (other.mergeSort _))]
  congr 1
  -- both lists hold the names that yield something, in order
  have hordered : ∀ es : Entries, ((es.mergeSort nameOrder).map Prod.fst).Pairwise (· ≤ ·) :=
    fun es => List.pairwise_map.mpr (pairwise_mergeSort_nameOrder es)
  have hnodup : ∀ es : Entries, es.Named → ((es.mergeSort nameOrder).map Prod.fst).Nodup :=
    fun es hes => ((List.mergeSort_perm es nameOrder).map Prod.fst).nodup_iff.mpr hes.distinct
  have hmem : ∀ es : Entries, es.Named → ∀ name,
      name ∈ (es.mergeSort nameOrder).map Prod.fst ↔ (es.get? name).isSome := by
    intro es hes name
    rw [List.mem_map, Option.isSome_iff_exists]
    constructor
    · rintro ⟨x, hx, rfl⟩
      exact ⟨x.2, hes.get?_eq_some_iff.mpr (List.mem_mergeSort.mp hx)⟩
    · rintro ⟨entry, hentry⟩
      exact ⟨(name, entry), List.mem_mergeSort.mpr (Entries.mem_of_get?_eq_some hentry), rfl⟩
  refine List.Perm.eq_of_pairwise (fun _ _ _ _ => Text.le_antisymm) ((hordered entries).filter _)
    ((hordered other).filter _) ?_
  rw [List.perm_ext_iff_of_nodup ((hnodup entries h).filter _) ((hnodup other h').filter _)]
  intro name
  rw [List.mem_filter, List.mem_filter, hmem entries h, hmem other h']
  refine and_congr_left fun hyields => ?_
  have hyields' := hyields
  rw [hsame name] at hyields'
  cases hget : entries.get? name with
  | none => simp [hget] at hyields
  | some entry =>
    cases hget' : other.get? name with
    | none => simp [hget'] at hyields'
    | some entry' => simp

end InOrder

/-! ## One directory -/

section Directory

variable {fs : FileSystem} {enters : Text → Bool} {path name : Text} {entries : Entries}

/-- What a name yields among the files that a walk meets in a directory. -/
def FileSystem.fileSighting (fs : FileSystem) (path name : Text) (entry : Entry) : List Sighting :=
  if fs.showsFile (Path.append path name) entry then [.file (Path.append path name)] else []

/-- What a name yields among the subdirectories of a directory. -/
def subdirectorySightings (fs : FileSystem) (enters : Text → Bool) (path name : Text)
    (entry : Entry) : List Sighting :=
  if enters (Path.append path name) then sightings fs enters (Path.append path name) entry else []

theorem filesIn_eq_inOrder (h : entries.Named) :
    fs.filesIn path entries = entries.inOrder (fs.fileSighting path) := by
  have hsorted : (entries.filter fun x => fs.showsFile (Path.append path x.1) x.2).mergeSort nameOrder =
      (entries.mergeSort nameOrder).filter fun x => fs.showsFile (Path.append path x.1) x.2 := by
    refine eq_of_perm_of_ordered ?_ (pairwise_mergeSort_nameOrder _)
      ((pairwise_mergeSort_nameOrder _).filter _) ?_
    · refine (((List.mergeSort_perm _ nameOrder).map Prod.fst).nodup_iff).mpr ?_
      exact h.distinct.sublist (List.filter_sublist.map Prod.fst)
    · exact (List.mergeSort_perm _ _).trans ((List.mergeSort_perm _ _).symm.filter _)
  have hflat : ∀ l : Entries, l.flatMap (fun x => fs.fileSighting path x.1 x.2) =
      (l.filter fun x => fs.showsFile (Path.append path x.1) x.2).map fun x =>
        Sighting.file (Path.append path x.1) := by
    intro l
    induction l with
    | nil => rfl
    | cons x l ih =>
      rw [List.flatMap_cons, ih, FileSystem.fileSighting]
      by_cases hshows : fs.showsFile (Path.append path x.1) x.2 <;> simp [hshows]
  rw [FileSystem.filesIn, Entries.inOrder, hflat, ← hsorted]

theorem branches_eq_map :
    branches fs enters path entries =
      entries.map fun x => (x.1, subdirectorySightings fs enters path x.1 x.2) := by
  induction entries with
  | nil => rfl
  | cons x entries ih => rw [branches, ih, List.map_cons, subdirectorySightings]

/-- **A walk through a directory** is one pass over its files and one over its subdirectories. -/
theorem sightings_directory (h : entries.Named) :
    sightings fs enters path (.directory entries) =
      match fs.listingCause? path with
      | some cause => [.unlistable ⟨cause, path⟩]
      | none => entries.inOrder (fs.fileSighting path) ++
        entries.inOrder (subdirectorySightings fs enters path) := by
  have hbranches : ((branches fs enters path entries).mergeSort nameOrder).flatMap Prod.snd =
      entries.inOrder (subdirectorySightings fs enters path) := by
    have hsort : (entries.mergeSort nameOrder).map
        (fun x => (x.1, subdirectorySightings fs enters path x.1 x.2)) =
        (entries.map fun x => (x.1, subdirectorySightings fs enters path x.1 x.2)).mergeSort nameOrder :=
      List.map_mergeSort fun a _ b _ => rfl
    rw [branches_eq_map, ← hsort, List.flatMap_map, Entries.inOrder]
  rw [sightings]
  cases fs.listingCause? path with
  | some cause => rfl
  | none => simp only [filesIn_eq_inOrder h, hbranches]

theorem subdirectorySightings_of_not_directory {entry : Entry} (h : entry.isDirectory = false) :
    subdirectorySightings fs enters path name entry = [] := by
  cases entry with
  | file bytes => simp [subdirectorySightings, sightings]
  | link target => simp [subdirectorySightings, sightings]
  | directory entries => cases h

/-- **A walk meets the names that lead to files**, in a directory that its path leads to. -/
theorem FileSystem.Reaches.showsFile_eq {place : List Text} (h : fs.Reaches path place)
    (hat : fs.tree.at? place = some (.directory entries)) (hname : IsName name) :
    (entries.get? name).elim false (fs.showsFile (Path.append path name)) =
      fs.isFile (Path.append path name) := by
  have hview : fs.view (place ++ [name]) = (entries.get? name).map Entry.kind := by
    rw [FileSystem.view, Entry.at?_concat hat]
  cases hget : entries.get? name with
  | none =>
    rw [hget] at hview
    rw [fs.isFile_eq, h.fileAt?_append_eq_none hname (.inl hview)]
    rfl
  | some entry =>
    rw [hget] at hview
    cases entry with
    | file bytes =>
      have hfile := FileSystem.isSome_bytesAt?_iff.mpr hview
      rw [fs.isFile_eq, h.fileAt?_append_of_file hname hview, hfile]
      rfl
    | link target => rfl
    | directory inner =>
      rw [fs.isFile_eq, h.fileAt?_append_eq_none hname (.inr hview)]
      rfl

/-- What a name yields among the files depends on whether it leads to a file. -/
theorem FileSystem.Reaches.elim_fileSighting {place : List Text} (h : fs.Reaches path place)
    (hat : fs.tree.at? place = some (.directory entries)) (hname : IsName name) :
    (entries.get? name).elim [] (fs.fileSighting path name) =
      if fs.isFile (Path.append path name) then [.file (Path.append path name)] else [] := by
  rw [← h.showsFile_eq hat hname]
  cases entries.get? name with
  | none => rfl
  | some entry => rfl

/-- What a name yields among the subdirectories: nothing, if it is not that of a directory, or of one
that is not entered. -/
theorem elim_subdirectorySightings_eq_nil {place : List Text}
    (hat : fs.tree.at? place = some (.directory entries))
    (h : ¬ enters (Path.append path name) = true ∨ fs.view (place ++ [name]) ≠ some .directory) :
    (entries.get? name).elim [] (subdirectorySightings fs enters path name) = [] := by
  cases hget : entries.get? name with
  | none => rfl
  | some entry =>
    rw [Option.elim_some]
    rcases h with henters | hview
    · rw [subdirectorySightings, if_neg henters]
    · cases entry with
      | file bytes => exact subdirectorySightings_of_not_directory rfl
      | link target => exact subdirectorySightings_of_not_directory rfl
      | directory inner =>
        refine absurd ?_ hview
        rw [FileSystem.view, Entry.at?_concat hat, hget]
        rfl

theorem elim_subdirectorySightings_of_directory {inner : Entries}
    (hget : entries.get? name = some (.directory inner))
    (henters : enters (Path.append path name) = true) :
    (entries.get? name).elim [] (subdirectorySightings fs enters path name) =
      sightings fs enters (Path.append path name) (.directory inner) := by
  rw [hget, Option.elim_some, subdirectorySightings, if_pos henters]

/-- A directory in a directory is one of its entries. -/
theorem exists_get?_of_view {place : List Text}
    (hat : fs.tree.at? place = some (.directory entries))
    (hview : fs.view (place ++ [name]) = some .directory) :
    ∃ inner, entries.get? name = some (.directory inner) := by
  rw [← Entry.at?_concat hat]
  exact FileSystem.view_eq_directory_iff.mp hview

end Directory

/-! ## Where a walk gets to -/

/-- Names along which a walk from a root gets to a directory: they lead to it, and every directory on
the way is entered. -/
structure FileSystem.Entered (fs : FileSystem) (enters : Text → Bool) (root : Text)
    (base names : List Text) : Prop where
  legal : ∀ name ∈ names, IsName name
  reaches : fs.Reaches (below root names) (base ++ names)
  open_way : ∀ way, way ≠ [] → way <+: names → enters (below root way) = true

section Walks

variable {fs fs' : FileSystem} {enters : Text → Bool} {root : Text} {base : List Text}

theorem FileSystem.Reaches.entered (h : fs.Reaches root base) : fs.Entered enters root base [] where
  legal := by simp
  reaches := by rwa [List.append_nil]
  open_way way hne hway := absurd (List.prefix_nil.mp hway) hne

theorem FileSystem.Entered.legal_concat {names : List Text} {name : Text}
    (h : fs.Entered enters root base names) (hname : IsName name) :
    ∀ n ∈ names ++ [name], IsName n := by
  intro n hn
  rcases List.mem_append.mp hn with hn | hn
  · exact h.legal n hn
  · rwa [List.mem_singleton.mp hn]

/-- A walk that is in a directory gets to the directories in it that it enters. -/
theorem FileSystem.Entered.concat {names : List Text} {name : Text}
    (h : fs.Entered enters root base names) (hname : IsName name)
    (hview : fs.view (base ++ (names ++ [name])) = some .directory)
    (henters : enters (below root (names ++ [name])) = true) :
    fs.Entered enters root base (names ++ [name]) where
  legal := h.legal_concat hname
  reaches := by
    rw [Path.below_concat, ← List.append_assoc]
    exact h.reaches.append hname (by rwa [List.append_assoc])
  open_way way hne hway := by
    rcases List.prefix_concat_iff.mp hway with rfl | hway
    · exact henters
    · exact h.open_way way hne hway

/-- A directory, or nothing, at a name in a directory that a walk gets to is no file. -/
theorem FileSystem.Entered.isFile_eq_false {names : List Text} {name : Text}
    (hgot : fs.Entered enters root base names) (hname : IsName name)
    (hview : fs.view (base ++ (names ++ [name])) = none ∨
      fs.view (base ++ (names ++ [name])) = some .directory) :
    fs.isFile (below root (names ++ [name])) = false := by
  rw [← List.append_assoc] at hview
  rw [Path.below_concat, FileSystem.isFile_eq, hgot.reaches.fileAt?_append_eq_none hname hview]
  rfl

/-- **What a walk meets, it meets in a directory that it gets to**: the directory cannot be listed, or it
shows a file. The induction is on the tree. -/
theorem exists_entered_of_mem (hfs : fs.WellFormed) {entries : Entries} (names : List Text)
    (hgot : fs.Entered enters root base names)
    (hat : fs.tree.at? (base ++ names) = some (.directory entries)) {met : Sighting}
    (hmet : met ∈ sightings fs enters (below root names) (.directory entries)) :
    ∃ (way : List Text) (inner : Entries), fs.Entered enters root base way ∧
      fs.tree.at? (base ++ way) = some (.directory inner) ∧
      ((∃ cause, met = .unlistable ⟨cause, below root way⟩ ∧
          fs.listingCause? (below root way) = some cause) ∨
        met ∈ inner.inOrder (fs.fileSighting (below root way))) := by
  have hwell : (Entry.directory entries).WellFormed := Entry.WellFormed.at? hfs hat
  revert names
  refine Entry.WellFormed.directory_induction hwell fun entries hwell ih => ?_
  intro names hgot hat hmet
  rw [sightings_directory hwell.named] at hmet
  split at hmet
  · next cause hlisted =>
    exact ⟨names, entries, hgot, hat, .inl ⟨cause, List.mem_singleton.mp hmet, hlisted⟩⟩
  rcases List.mem_append.mp hmet with hmet | hmet
  · exact ⟨names, entries, hgot, hat, .inr hmet⟩
  · -- in a directory in it, which the walk enters
    obtain ⟨name, entry, hmem, hshown⟩ := Entries.mem_inOrder.mp hmet
    have hname : IsName name := hwell.named.names _ hmem
    cases entry with
    | file bytes =>
      rw [subdirectorySightings_of_not_directory rfl] at hshown
      cases hshown
    | link target =>
      rw [subdirectorySightings_of_not_directory rfl] at hshown
      cases hshown
    | directory inner =>
      have hinner : fs.tree.at? (base ++ (names ++ [name])) = some (.directory inner) := by
        rw [← List.append_assoc, Entry.at?_concat hat, hwell.named.get?_eq_some_iff.mpr hmem]
      rw [subdirectorySightings, ← Path.below_concat] at hshown
      split_ifs at hshown with henters
      · have hview := FileSystem.view_eq_directory_iff.mpr ⟨inner, hinner⟩
        exact ih name inner hmem (names ++ [name]) (hgot.concat hname hview henters) hinner hshown
      · cases hshown

/-- **The files that a walk meets** are named in directories that it gets to. -/
theorem exists_entered_of_mem_sightings (hfs : fs.WellFormed) {entries : Entries} (names : List Text)
    (hgot : fs.Entered enters root base names)
    (hat : fs.tree.at? (base ++ names) = some (.directory entries)) {path : Text}
    (hmet : .file path ∈ sightings fs enters (below root names) (.directory entries)) :
    ∃ way name, fs.Entered enters root base way ∧ IsName name ∧ path = below root (way ++ [name]) ∧
      fs.isFile path = true := by
  obtain ⟨way, inner, hway, hinner, ⟨cause, hlist, -⟩ | hin⟩ :=
    exists_entered_of_mem hfs names hgot hat hmet
  · cases hlist
  have hwell : (Entry.directory inner).WellFormed := Entry.WellFormed.at? hfs hinner
  obtain ⟨name, entry, hmem, hshown⟩ := Entries.mem_inOrder.mp hin
  have hname : IsName name := hwell.named.names _ hmem
  have hshows := hway.reaches.showsFile_eq hinner hname
  rw [hwell.named.get?_eq_some_iff.mpr hmem, Option.elim_some] at hshows
  rw [FileSystem.fileSighting, hshows] at hshown
  split_ifs at hshown with hfile
  · obtain rfl : path = Path.append (below root way) name := by simpa using hshown
    exact ⟨way, name, hway, hname, (Path.below_concat ..).symm, hfile⟩
  · cases hshown

/-- **The directories that a walk cannot list** are among those that it gets to. -/
theorem exists_entered_of_mem_unlistable (hfs : fs.WellFormed) {entries : Entries} (names : List Text)
    (hgot : fs.Entered enters root base names)
    (hat : fs.tree.at? (base ++ names) = some (.directory entries)) {failure : OsError}
    (hmet : .unlistable failure ∈ sightings fs enters (below root names) (.directory entries)) :
    ∃ way, fs.Entered enters root base way ∧ failure.path = below root way ∧
      fs.listingCause? (below root way) = some failure.cause := by
  obtain ⟨way, inner, hway, -, ⟨cause, hlist, hlisted⟩ | hin⟩ :=
    exists_entered_of_mem hfs names hgot hat hmet
  · cases hlist
    exact ⟨way, hway, rfl, hlisted⟩
  · -- what a directory shows is a file
    obtain ⟨name, entry, -, hshown⟩ := Entries.mem_inOrder.mp hin
    unfold FileSystem.fileSighting at hshown
    split_ifs at hshown <;> simp at hshown

/-! ## Two walks -/

/-- **Two walks meet the same** if, in the directories that both get to, the same names lead to files,
the same names are those of directories that are entered, and the same directories cannot be listed.
The induction is on the tree of the first. -/
theorem sightings_congr (hfs : fs.WellFormed) (hfs' : fs'.WellFormed)
    (hlist : ∀ names, fs.Entered enters root base names → fs'.Entered enters root base names →
      fs.listingCause? (below root names) = fs'.listingCause? (below root names))
    (hfile : ∀ names name, fs.Entered enters root base names → fs'.Entered enters root base names →
      IsName name → fs.isFile (below root (names ++ [name])) = fs'.isFile (below root (names ++ [name])))
    (hdirectory : ∀ names name, fs.Entered enters root base names →
      fs'.Entered enters root base names → IsName name →
      enters (below root (names ++ [name])) = true →
      (fs.view (base ++ (names ++ [name])) = some .directory ↔
        fs'.view (base ++ (names ++ [name])) = some .directory))
    {entries : Entries} (names : List Text) (entries' : Entries)
    (hgot : fs.Entered enters root base names) (hgot' : fs'.Entered enters root base names)
    (hat : fs.tree.at? (base ++ names) = some (.directory entries))
    (hat' : fs'.tree.at? (base ++ names) = some (.directory entries')) :
    sightings fs enters (below root names) (.directory entries) =
      sightings fs' enters (below root names) (.directory entries') := by
  have hwell : (Entry.directory entries).WellFormed := Entry.WellFormed.at? hfs hat
  revert names entries'
  refine Entry.WellFormed.directory_induction hwell fun entries hwell ih => ?_
  intro names entries' hgot hgot' hat hat'
  have hwell' : (Entry.directory entries').WellFormed := Entry.WellFormed.at? hfs' hat'
  -- a text that is no name has no entry in either directory
  have habsent : ∀ name, ¬ IsName name → entries.get? name = none ∧ entries'.get? name = none := by
    intro name hname
    constructor
    · by_contra hsome
      obtain ⟨entry, hget⟩ := Option.ne_none_iff_exists'.mp hsome
      exact hname (hwell.named.names _ (Entries.mem_of_get?_eq_some hget))
    · by_contra hsome
      obtain ⟨entry, hget⟩ := Option.ne_none_iff_exists'.mp hsome
      exact hname (hwell'.named.names _ (Entries.mem_of_get?_eq_some hget))
  rw [sightings_directory hwell.named, sightings_directory hwell'.named, hlist names hgot hgot']
  split
  · rfl
  congr 1
  · refine Entries.inOrder_congr hwell.named hwell'.named fun name => ?_
    by_cases hname : IsName name
    · have hsame := hfile names name hgot hgot' hname
      rw [Path.below_concat] at hsame
      rw [hgot.reaches.elim_fileSighting hat hname, hgot'.reaches.elim_fileSighting hat' hname, hsame]
    · rw [(habsent name hname).1, (habsent name hname).2, Option.elim_none, Option.elim_none]
  · refine Entries.inOrder_congr hwell.named hwell'.named fun name => ?_
    by_cases hname : IsName name
    · have hsame := hdirectory names name hgot hgot' hname
      rw [Path.below_concat, ← List.append_assoc] at hsame
      by_cases henters : enters (Path.append (below root names) name) = true
      · by_cases hview : fs.view (base ++ names ++ [name]) = some .directory
        · have hview' := (hsame henters).mp hview
          obtain ⟨inner, hget⟩ := exists_get?_of_view hat hview
          obtain ⟨inner', hget'⟩ := exists_get?_of_view hat' hview'
          rw [elim_subdirectorySightings_of_directory hget henters,
            elim_subdirectorySightings_of_directory hget' henters]
          rw [List.append_assoc] at hview hview'
          rw [← Path.below_concat] at henters ⊢
          refine ih name inner (Entries.mem_of_get?_eq_some hget) (names ++ [name]) inner'
            (hgot.concat hname hview henters) (hgot'.concat hname hview' henters) ?_ ?_
          · rw [← List.append_assoc, Entry.at?_concat hat, hget]
          · rw [← List.append_assoc, Entry.at?_concat hat', hget']
        · have hview' := fun h => hview ((hsame henters).mpr h)
          rw [elim_subdirectorySightings_eq_nil hat (.inr hview),
            elim_subdirectorySightings_eq_nil hat' (.inr hview')]
      · rw [elim_subdirectorySightings_eq_nil hat (.inl henters),
          elim_subdirectorySightings_eq_nil hat' (.inl henters)]
    · rw [(habsent name hname).1, (habsent name hname).2, Option.elim_none, Option.elim_none]

/-! ## Two discoveries -/

/-- Whether a walk from a root enters the directory at a path. -/
def Settings.entersAt (settings : Settings) (cwd root path : Text) : Bool :=
  settings.enters (Path.relative cwd root path)

/-- Whether the file at a path takes part, seen from a root. -/
def Settings.takesAt (settings : Settings) (cwd root path : Text) : Bool :=
  settings.takes (Path.relative cwd root path) (Path.baseName path)

theorem discoverIn_eq {settings : Settings} {entries : Entries} :
    discoverIn fs settings root entries =
      { files := ((sightings fs (settings.entersAt fs.cwd root) root (.directory entries)).filterMap
          Sighting.file?).filter (settings.takesAt fs.cwd root)
        unlistable := (sightings fs (settings.entersAt fs.cwd root) root (.directory entries)).filterMap
          Sighting.unlistable? } := rfl

/-- A path that leads to a directory has that directory. -/
theorem FileSystem.Reaches.exists_entry (h : fs.Reaches root base) :
    ∃ entries, fs.tree.at? base = some (.directory entries) ∧
      fs.entry root = .ok (.directory entries) := by
  obtain ⟨entries, hat⟩ := FileSystem.view_eq_directory_iff.mp h.directory
  refine ⟨entries, hat, ?_⟩
  rw [FileSystem.entry_eq, h.stop]
  simp [hat]

/-- Discovery succeeds exactly in a directory that can be listed, with what a walk through it meets. -/
theorem discoverAt_eq_ok_iff {settings : Settings} {found : Discovered} :
    discoverAt fs settings root = .ok found ↔
      ∃ entries, fs.entry root = .ok (.directory entries) ∧ fs.listingCause? root = none ∧
        found = discoverIn fs settings root entries := by
  unfold discoverAt
  rcases hentry : fs.entry root with _ | (_ | _ | _)
  case ok.directory entries =>
    cases fs.listingCause? root <;> simp [eq_comm]
  all_goals simp

/-- The files that are discovered are named in directories that the walk gets to. -/
theorem exists_entered_of_mem_files {settings : Settings} {entries : Entries} (hfs : fs.WellFormed)
    (hroot : fs.Reaches root base) (hentry : fs.entry root = .ok (.directory entries)) {path : Text}
    (hpath : path ∈ (discoverIn fs settings root entries).files) :
    ∃ names name, fs.Entered (settings.entersAt fs.cwd root) root base names ∧ IsName name ∧
      path = below root (names ++ [name]) ∧ fs.isFile path = true := by
  obtain ⟨entries', hat, hentry'⟩ := hroot.exists_entry
  obtain rfl : entries = entries' := Entry.directory.inj (Except.ok.inj (hentry.symm.trans hentry'))
  rw [discoverIn_eq] at hpath
  obtain ⟨met, hmet, hfile⟩ := List.mem_filterMap.mp (List.mem_filter.mp hpath).1
  cases met with
  | unlistable _ => cases hfile
  | file p =>
    cases hfile
    exact exists_entered_of_mem_sightings hfs [] hroot.entered (by rwa [List.append_nil]) hmet

/-- **Two discoveries find the same** if their walks meet the same, and both fail if the root can be
listed in neither. -/
theorem discoverAt_congr {settings : Settings} (hfs : fs.WellFormed) (hfs' : fs'.WellFormed)
    (hcwd : fs.cwd = fs'.cwd) (hroot : fs.Reaches root base) (hroot' : fs'.Reaches root base)
    (hlist : ∀ names, fs.Entered (settings.entersAt fs.cwd root) root base names →
      fs.listingCause? (below root names) = fs'.listingCause? (below root names))
    (hfile : ∀ names name, fs.Entered (settings.entersAt fs.cwd root) root base names →
      fs'.Entered (settings.entersAt fs.cwd root) root base names → IsName name →
      fs.isFile (below root (names ++ [name])) = fs'.isFile (below root (names ++ [name])))
    (hdirectory : ∀ names name, fs.Entered (settings.entersAt fs.cwd root) root base names →
      IsName name → settings.entersAt fs.cwd root (below root (names ++ [name])) = true →
      (fs.view (base ++ (names ++ [name])) = some .directory ↔
        fs'.view (base ++ (names ++ [name])) = some .directory)) :
    discoverAt fs settings root = discoverAt fs' settings root := by
  obtain ⟨entries, hat, hentry⟩ := hroot.exists_entry
  obtain ⟨entries', hat', hentry'⟩ := hroot'.exists_entry
  -- the walks start at the root, with no names below it
  have hmet : sightings fs (settings.entersAt fs.cwd root) root (.directory entries) =
      sightings fs' (settings.entersAt fs.cwd root) root (.directory entries') := by
    refine sightings_congr hfs hfs' (fun names hgot _ => hlist names hgot) hfile
      (fun names name hgot _ => hdirectory names name hgot) [] entries' hroot.entered
      hroot'.entered ?_ ?_
    · rwa [List.append_nil]
    · rwa [List.append_nil]
  have hfound : discoverIn fs settings root entries = discoverIn fs' settings root entries' := by
    rw [hcwd] at hmet
    rw [discoverIn_eq, discoverIn_eq, hcwd, hmet]
  have hlisted := hlist [] hroot.entered
  rw [Path.below_nil] at hlisted
  simp only [discoverAt, hentry, hentry', hfound, hlisted]

/-- A path has the same route in two file systems that have the same kinds of things at the same
places. -/
theorem FileSystem.route_eq_of_view (hcwd : fs.cwd = fs'.cwd) (hview : fs.view = fs'.view)
    (path : Text) : fs.route path = fs'.route path := by
  rw [FileSystem.route, FileSystem.route, hcwd, hview]

/-- In two such file systems a path leads to things of the same kind, or nowhere for the same cause. -/
theorem FileSystem.map_kind_entry_of_view (hcwd : fs.cwd = fs'.cwd) (hview : fs.view = fs'.view)
    (path : Text) : (fs.entry path).map Entry.kind = (fs'.entry path).map Entry.kind := by
  rw [FileSystem.entry_eq, FileSystem.entry_eq, FileSystem.route_eq_of_view hcwd hview]
  cases (fs'.route path).stop with
  | error cause => rfl
  | ok stop =>
    have hplace : (fs.tree.at? stop.place).map Entry.kind = (fs'.tree.at? stop.place).map Entry.kind :=
      congrFun hview stop.place
    cases hat : fs.tree.at? stop.place with
    | none =>
      rw [hat] at hplace
      simp only [hat, Option.map_eq_none_iff.mp hplace.symm]
    | some entry =>
      rw [hat] at hplace
      obtain ⟨entry', hat', hkind⟩ := Option.map_eq_some_iff.mp hplace.symm
      simp only [hat, hat']
      split_ifs
      · rfl
      · exact congrArg Except.ok hkind.symm

/-- Nothing is discovered where nothing is. -/
theorem discoverAt_of_missing {settings : Settings} {cause : OsCause}
    (h : (fs.entry root).map Entry.kind = .error cause) :
    discoverAt fs settings root = .error (.missing root) := by
  cases hentry : fs.entry root with
  | error cause' => simp only [discoverAt, hentry]
  | ok entry =>
    rw [hentry] at h
    cases h

/-- Nothing is discovered in what is no directory. -/
theorem discoverAt_of_not_directory {settings : Settings} {kind : Kind}
    (h : (fs.entry root).map Entry.kind = .ok kind) (hkind : kind ≠ .directory) :
    discoverAt fs settings root = .error (.notDirectory root) := by
  cases hentry : fs.entry root with
  | error cause =>
    rw [hentry] at h
    cases h
  | ok entry =>
    rw [hentry] at h
    obtain rfl := Except.ok.inj h
    cases entry with
    | file bytes => simp only [discoverAt, hentry]
    | link target => simp only [discoverAt, hentry]
    | directory entries => exact absurd rfl hkind

/-- **Discovery asks what kind of thing is at a place**, and which directories can be listed. Where the
answers are the same, the same is discovered, or discovery fails in the same way. -/
theorem discoverAt_eq_of_view {settings : Settings} (hfs : fs.WellFormed) (hfs' : fs'.WellFormed)
    (hcwd : fs.cwd = fs'.cwd) (hview : fs.view = fs'.view)
    (hlist : ∀ path, fs.listingCause? path = fs'.listingCause? path) :
    discoverAt fs settings root = discoverAt fs' settings root := by
  have hroute := FileSystem.route_eq_of_view hcwd hview
  have hsame := FileSystem.map_kind_entry_of_view hcwd hview root
  cases hentry : fs.entry root with
  | error cause =>
    rw [hentry] at hsame
    rw [discoverAt_of_missing hsame.symm]
    exact discoverAt_of_missing (congrArg (Except.map Entry.kind) hentry)
  | ok entry =>
    by_cases hkind : entry.kind = .directory
    · -- both walks start at the same place
      obtain ⟨entries, rfl⟩ : ∃ entries, entry = .directory entries := by
        cases entry with
        | directory entries => exact ⟨entries, rfl⟩
        | file bytes => cases hkind
        | link target => cases hkind
      obtain ⟨base, hreaches, -⟩ := FileSystem.reaches_of_entry hentry
      have hreaches' : fs'.Reaches root base := by
        refine ⟨?_, ?_⟩
        · rw [← hroute]
          exact hreaches.stop
        · rw [← hview]
          exact hreaches.directory
      refine discoverAt_congr hfs hfs' hcwd hreaches hreaches' (fun names _ => hlist _) ?_ ?_
      · intro names name _ _ _
        rw [Bool.eq_iff_iff, FileSystem.isFile_iff, FileSystem.isFile_iff, hroute, hview]
      · intro names name _ _ _
        rw [hview]
    · rw [hentry] at hsame
      rw [discoverAt_of_not_directory hsame.symm hkind]
      exact discoverAt_of_not_directory (congrArg (Except.map Entry.kind) hentry) hkind

end Walks

end Gleaner
