import Gleaner.Proofs.FileSystem.Resolve

/-!
# File systems that grow

Writing a file and making directories take nothing away: directories, links and files stay what they
are, no link is made, and the bytes of a file change only at the places written to. Such changes can
follow one another, and all along the way a path points to the same place. So a file that was written
once can be read ever after, unless its place is written to again.

## Main definitions

* `FileSystem.Vacant`: a place where a file can be put
* `FileSystem.Grows`: what a change keeps, but for the bytes at the places that are touched

## Main results

* `FileSystem.view_putAt`, `FileSystem.bytesAt?_putAt`: only the place itself is changed
* `FileSystem.Grows.resolve_eq`, `FileSystem.Grows.read`: paths and files that are kept
* `FileSystem.grows_of_write`, `FileSystem.read_of_write`: what is written can be read
* `FileSystem.makeDirectories_grows`: making directories touches no file
-/

namespace Gleaner

open Gleaner.Utf8 (Bytes)

/-! ## Putting an entry into a tree -/

namespace Entries

theorem get?_put (name : Text) (entry : Entry) (entries : Entries) (n : Text) :
    (entries.put name entry).get? n = if n = name then some entry else entries.get? n := by
  induction entries with
  | nil => by_cases h : n = name <;> simp [put, get?, h, eq_comm]
  | cons x entries ih =>
    obtain ⟨m, e⟩ := x
    by_cases hm : m = name
    · subst hm
      by_cases h : n = m <;> simp [put, get?, h, eq_comm]
    · by_cases h : m = n
      · subst h
        simp [put, get?, hm]
      · simpa [put, get?, hm, h] using ih

/-- Changing entries under their names. -/
theorem get?_map (change : Text → Entry → Entry) (entries : Entries) (n : Text) :
    get? (entries.map fun x => (x.1, change x.1 x.2)) n = (entries.get? n).map (change n) := by
  induction entries with
  | nil => rfl
  | cons x entries ih =>
    by_cases h : x.1 = n
    · simp [get?, h]
    · simpa [get?, h] using ih

/-- What an entry becomes on the way to the place of a new one. -/
def deepen (entry : Entry) (name : Text) (rest : List Text) (n : Text) : Entry → Entry
  | .directory inner => if n = name then .directory (putAt entry rest inner) else .directory inner
  | e => e

theorem putAt_cons_cons (entry : Entry) (name next : Text) (rest : List Text) (entries : Entries) :
    putAt entry (name :: next :: rest) entries =
      entries.map fun x => (x.1, deepen entry name (next :: rest) x.1 x.2) := by
  rw [putAt]
  · refine List.map_congr_left fun x _ => ?_
    obtain ⟨n, e⟩ := x
    cases e with
    | directory inner => by_cases h : n = name <;> simp [deepen, h]
    | file bytes => rfl
    | link target => rfl
  · simp

end Entries

namespace Entry

variable {entries : Entries} {here place : List Text} {name : Text}

/-- Below the place of a new entry is what is below the entry. -/
theorem at?_putAt_append {inner : Entries}
    (h : (Entry.directory entries).at? here = some (.directory inner)) (entry : Entry)
    (rest : List Text) :
    (Entry.directory (Entries.putAt entry (here ++ [name]) entries)).at? (here ++ name :: rest) =
      entry.at? rest := by
  induction here generalizing entries with
  | nil => rw [List.nil_append, List.nil_append, Entries.putAt, Entry.at?, Entries.get?_put, if_pos rfl,
      Option.bind_some]
  | cons first here ih =>
    obtain ⟨e, hget, hrest⟩ := Option.bind_eq_some_iff.mp h
    cases e with
    | file bytes => cases here <;> cases hrest
    | link target => cases here <;> cases hrest
    | directory below =>
      obtain ⟨next, more, hnext⟩ := List.exists_cons_of_ne_nil
        (List.append_ne_nil_of_right_ne_nil here (List.cons_ne_nil name []))
      rw [List.cons_append, List.cons_append, hnext, Entries.putAt_cons_cons, Entry.at?,
        Entries.get?_map, hget, ← hnext, Option.map_some, Option.bind_some, Entries.deepen, if_pos rfl]
      exact ih hrest

/-- Elsewhere everything stays as it is, what is inside of directories left out. -/
theorem map_at?_putAt {β : Type} (f : Entry → β)
    (hf : ∀ es es', f (.directory es) = f (.directory es')) (entry : Entry)
    (hplace : ¬ here ++ [name] <+: place) :
    ((Entry.directory (Entries.putAt entry (here ++ [name]) entries)).at? place).map f =
      ((Entry.directory entries).at? place).map f := by
  induction here generalizing entries place with
  | nil =>
    cases place with
    | nil => simp [hf _ entries]
    | cons n rest =>
      -- another name of the same directory
      have hne : n ≠ name := by
        rintro rfl
        exact hplace ⟨rest, rfl⟩
      rw [List.nil_append, Entries.putAt, Entry.at?, Entry.at?, Entries.get?_put, if_neg hne]
  | cons first here ih =>
    cases place with
    | nil => simp [hf _ entries]
    | cons n rest =>
      -- the way goes on, so that only what is under the first name changes
      obtain ⟨next, more, hnext⟩ := List.exists_cons_of_ne_nil
        (List.append_ne_nil_of_right_ne_nil here (List.cons_ne_nil name []))
      rw [List.cons_append, hnext, Entries.putAt_cons_cons, Entry.at?, Entry.at?, Entries.get?_map]
      cases hget : entries.get? n with
      | none => rfl
      | some e =>
        rw [Option.map_some, Option.bind_some, Option.bind_some]
        cases e with
        | file bytes => rfl
        | link target => rfl
        | directory inner =>
          by_cases hn : n = first
          · rw [Entries.deepen, if_pos hn, ← hnext]
            refine ih fun hprefix => hplace ?_
            rw [hn, List.cons_append]
            exact List.cons_prefix_cons.mpr ⟨rfl, hprefix⟩
          · rw [Entries.deepen, if_neg hn]

end Entry

namespace FileSystem

variable {fs fs' fs'' : FileSystem} {path : Text} {place target : List Text} {bytes : Bytes}

/-! ## Places where a file can be put -/

/-- **A place where a file can be put**: a name in a directory, with a file or nothing there. -/
structure Vacant (fs : FileSystem) (place : List Text) : Prop where
  within : ∃ here name, place = here ++ [name] ∧ fs.view here = some .directory
  leaf : fs.view place = none ∨ fs.view place = some .file

theorem Vacant.at?_append_eq_none (h : fs.Vacant place) (name : Text) (rest : List Text) :
    fs.tree.at? (place ++ name :: rest) = none := by
  rw [Entry.at?_append]
  have hleaf := h.leaf
  unfold view at hleaf
  cases hat : fs.tree.at? place with
  | none => rfl
  | some entry =>
    cases entry with
    | file bytes => rfl
    | link target => rfl
    | directory entries =>
      rw [hat] at hleaf
      rcases hleaf with hleaf | hleaf <;> cases hleaf

/-- An entry with nothing below it. -/
def IsLeaf (entry : Entry) : Prop :=
  ∀ name rest, entry.at? (name :: rest) = none

theorem isLeaf_file (bytes : Bytes) : IsLeaf (.file bytes) := fun _ _ => rfl

theorem isLeaf_directory_nil : IsLeaf (.directory []) := fun _ _ => rfl

/-- Only the place itself is changed. -/
theorem map_at?_tree_putAt {β : Type} (f : Entry → β)
    (hf : ∀ es es', f (.directory es) = f (.directory es')) {entry : Entry} (hentry : IsLeaf entry)
    (h : fs.Vacant target) (place : List Text) :
    ((fs.putAt target entry).tree.at? place).map f =
      if place = target then some (f entry) else (fs.tree.at? place).map f := by
  obtain ⟨here, name, rfl, hhere⟩ := h.within
  obtain ⟨inner, hinner⟩ := view_eq_directory_iff.mp hhere
  by_cases hprefix : here ++ [name] <+: place
  · obtain ⟨rest, rfl⟩ := hprefix
    have hat : (fs.putAt (here ++ [name]) entry).tree.at? (here ++ [name] ++ rest) = entry.at? rest := by
      rw [List.append_assoc]
      exact Entry.at?_putAt_append hinner entry rest
    cases rest with
    | nil =>
      rw [hat, Entry.at?_nil, List.append_nil, if_pos rfl]
      rfl
    | cons next rest =>
      -- nothing is below the new entry, and nothing was there before
      rw [hat, hentry, if_neg (by simp), h.at?_append_eq_none]
  · have hne : place ≠ here ++ [name] := by
      rintro rfl
      exact hprefix (List.prefix_refl _)
    rw [if_neg hne]
    exact Entry.map_at?_putAt f hf entry hprefix

theorem view_putAt {entry : Entry} (hentry : IsLeaf entry) (h : fs.Vacant target)
    (place : List Text) :
    (fs.putAt target entry).view place = if place = target then some entry.kind else fs.view place :=
  map_at?_tree_putAt Entry.kind (fun _ _ => rfl) hentry h place

theorem bytesAt?_eq_join (fs : FileSystem) (place : List Text) :
    fs.bytesAt? place = ((fs.tree.at? place).map Entry.bytes?).join := by
  rw [bytesAt?]
  cases fs.tree.at? place <;> rfl

theorem bytesAt?_putAt {entry : Entry} (hentry : IsLeaf entry) (h : fs.Vacant target)
    (place : List Text) :
    (fs.putAt target entry).bytesAt? place =
      if place = target then entry.bytes? else fs.bytesAt? place := by
  rw [bytesAt?_eq_join, map_at?_tree_putAt Entry.bytes? (fun _ _ => rfl) hentry h, bytesAt?_eq_join]
  split_ifs <;> rfl

/-! ## Growth -/

/-- **What a change keeps.** Everything stays of the kind it is, no link is made, and the bytes of files
stay but at the places touched. -/
structure Grows (fs : FileSystem) (touched : List (List Text)) (fs' : FileSystem) : Prop where
  cwd : fs'.cwd = fs.cwd
  kept : ∀ place kind, fs.view place = some kind → fs'.view place = some kind
  links : ∀ place target, fs'.view place = some (.link target) → fs.view place = some (.link target)
  bytes : ∀ place, place ∉ touched → fs'.bytesAt? place = fs.bytesAt? place

namespace Grows

variable {touched more : List (List Text)}

protected theorem refl (fs : FileSystem) (touched : List (List Text)) : fs.Grows touched fs :=
  ⟨rfl, fun _ _ h => h, fun _ _ h => h, fun _ _ => rfl⟩

theorem mono (h : fs.Grows touched fs') (hsubset : touched ⊆ more) : fs.Grows more fs' :=
  ⟨h.cwd, h.kept, h.links, fun place hplace => h.bytes place fun hmem => hplace (hsubset hmem)⟩

theorem trans (h : fs.Grows touched fs') (h' : fs'.Grows touched fs'') : fs.Grows touched fs'' where
  cwd := h'.cwd.trans h.cwd
  kept place kind hplace := h'.kept place kind (h.kept place kind hplace)
  links place target hplace := h.links place target (h'.links place target hplace)
  bytes place hplace := (h'.bytes place hplace).trans (h.bytes place hplace)

/-- **A path points to the same place**, before and after. -/
theorem resolve_eq (h : fs.Grows touched fs') (path : Text) : fs'.resolve path = fs.resolve path := by
  unfold resolve
  rw [h.cwd]
  exact View.resolve_congr (fun place target => ⟨h.kept place _, h.links place target⟩) ..

end Grows

/-- On the way to something that is there, everything asked for is there. -/
theorem asked_of_stop {view : View} {links : ℕ} {here pieces : List Text} {stop : Stop}
    (h : (view.route links here pieces).stop = .ok stop) (hstop : view stop.place ≠ none) :
    ∀ place ∈ (view.route links here pieces).asked, view place ≠ none := by
  fun_induction View.route view links here pieces with
  | case1 links here => simp
  | case2 links here piece rest hskip ih => exact ih h
  | case3 links here rest _ ih => exact ih h
  | case4 links here piece rest hpiece hup hview =>
    split_ifs at h
    cases h
    exact absurd hview hstop
  | case5 links here piece rest hpiece hup hview => simp [hview]
  | case6 links here piece rest hpiece hup hview ih =>
    exact List.forall_mem_cons.mpr ⟨by simp [hview], ih h⟩
  | case7 here piece rest hpiece hup target hview => simp [hview]
  | case8 here piece rest hpiece hup target hview links ih =>
    simp only [dite_eq_ite] at ih
    exact List.forall_mem_cons.mpr ⟨by simp [hview], ih h⟩

theorem Grows.route_eq {touched : List (List Text)} {stop : Stop} (h : fs.Grows touched fs')
    (hstop : (fs.route path).stop = .ok stop) (hthere : fs.view stop.place ≠ none) :
    fs'.route path = fs.route path := by
  unfold route at hstop ⊢
  split_ifs at hstop ⊢
  rw [h.cwd]
  refine View.route_congr fun place hplace => ?_
  obtain ⟨kind, hkind⟩ := Option.ne_none_iff_exists'.mp (asked_of_stop hstop hthere place hplace)
  rw [hkind, h.kept place kind hkind]

/-! ## Reading -/

theorem read_eq_ok_iff : fs.read path = .ok bytes ↔ fs.fileAt? path = some bytes := by
  constructor
  · intro h
    cases hfile : fs.fileAt? path with
    | some found =>
      rw [read, entry_of_fileAt?_eq_some hfile] at h
      cases h
      rfl
    | none =>
      have hnot := isFile_of_fileAt?_eq_none hfile
      unfold isFile at hnot
      unfold read at h
      cases hentry : fs.entry path with
      | error cause => simp [hentry] at h
      | ok entry =>
        rw [hentry] at h hnot
        cases entry with
        | file _ => cases hnot
        | directory _ => cases h
        | link _ => cases h
  · intro h
    rw [read, entry_of_fileAt?_eq_some h]

theorem fileAt?_eq_some_iff : fs.fileAt? path = some bytes ↔
    (fs.route path).stop = .ok ⟨fs.resolve path, false⟩ ∧ fs.bytesAt? (fs.resolve path) = some bytes := by
  constructor
  · intro h
    unfold fileAt? at h
    split at h
    · next place hstop =>
      obtain rfl : place = fs.resolve path := route_resolve hstop
      exact ⟨hstop, h⟩
    · cases h
  · rintro ⟨hstop, hbytes⟩
    rw [fileAt?, hstop]
    exact hbytes

/-- What a path points to and holds bytes is what is read. -/
theorem bytesAt?_of_read (h : fs.read path = .ok bytes) : fs.bytesAt? (fs.resolve path) = some bytes :=
  (fileAt?_eq_some_iff.mp (read_eq_ok_iff.mp h)).2

/-- **A file that can be read stays as it is** where its place is not touched. -/
theorem Grows.read {touched : List (List Text)} (h : fs.Grows touched fs')
    (hread : fs.read path = .ok bytes) (hplace : fs.resolve path ∉ touched) :
    fs'.read path = .ok bytes := by
  rw [read_eq_ok_iff, fileAt?_eq_some_iff] at hread ⊢
  obtain ⟨hstop, hbytes⟩ := hread
  have hthere : fs.view (fs.resolve path) ≠ none := by
    have hview := isSome_bytesAt?_iff.mp (Option.isSome_of_eq_some hbytes)
    simp [hview]
  rw [h.route_eq hstop hthere, h.resolve_eq, h.bytes _ hplace]
  exact ⟨hstop, hbytes⟩

/-! ## Writing -/

theorem Vacant.grows_file (h : fs.Vacant target) (bytes : Bytes) :
    fs.Grows [target] (fs.putAt target (.file bytes)) where
  cwd := rfl
  kept place kind hplace := by
    rw [view_putAt (isLeaf_file bytes) h]
    split_ifs with hsame
    · subst hsame
      rcases h.leaf with hleaf | hleaf
      · rw [hleaf] at hplace
        cases hplace
      · rw [hleaf] at hplace
        exact hplace
    · exact hplace
  links place link hplace := by
    rw [view_putAt (isLeaf_file bytes) h] at hplace
    split_ifs at hplace
    · cases hplace
    · exact hplace
  bytes place hplace := by
    rw [bytesAt?_putAt (isLeaf_file bytes) h, if_neg (by simpa using hplace)]

theorem Vacant.grows_directory (h : fs.Vacant target) (hnone : fs.view target = none) :
    fs.Grows [] (fs.putAt target (.directory [])) where
  cwd := rfl
  kept place kind hplace := by
    rw [view_putAt isLeaf_directory_nil h]
    split_ifs with hsame
    · subst hsame
      rw [hnone] at hplace
      cases hplace
    · exact hplace
  links place link hplace := by
    rw [view_putAt isLeaf_directory_nil h] at hplace
    split_ifs at hplace
    · cases hplace
    · exact hplace
  bytes place _ := by
    rw [bytesAt?_putAt isLeaf_directory_nil h]
    split_ifs with hsame
    · subst hsame
      -- nothing was there, and a directory has no bytes
      have hbytes : ¬ (fs.bytesAt? place).isSome := by simp [isSome_bytesAt?_iff, hnone]
      rw [Option.not_isSome_iff_eq_none.mp hbytes]
      rfl
    · rfl

theorem stop_of_locate {place : Place} (h : fs.locate true path = .ok place) :
    (fs.route path).stop = .ok ⟨place.components, place.slashed⟩ := by
  rw [locate_eq_route] at h
  cases hstop : (fs.route path).stop with
  | error cause =>
    rw [hstop] at h
    cases h
  | ok stop =>
    rw [hstop] at h
    cases h
    rfl

/-- What is found and is no directory and no link leaves room for a file. -/
theorem Found.vacant {follow : Bool} {place : Place} (h : fs.Found follow target place)
    (hentry : ∀ entry, place.entry = some entry → entry.kind = .file) : fs.Vacant target := by
  have hview : fs.view place.components = place.entry.map Entry.kind := by rw [view, h.entry]
  have hleaf : place.entry.map Entry.kind = none ∨ place.entry.map Entry.kind = some .file := by
    cases hplace : place.entry with
    | none => exact .inl rfl
    | some entry => exact .inr (congrArg some (hentry entry hplace))
  have hcomponents : place.components = target := by
    refine h.resolved (.inr fun link hlink => ?_)
    cases hentry _ hlink
  rw [← hcomponents]
  refine ⟨h.within fun entries hdirectory => ?_, hview ▸ hleaf⟩
  cases hentry _ hdirectory

/-- What can be reached is found. -/
theorem locate_of_reach {follow : Bool} {place : Place} (h : fs.reach follow path = .ok place) :
    fs.locate follow path = .ok place := by
  unfold reach at h
  split at h
  · cases h
  · cases hlocate : fs.locate follow path with
    | error cause =>
      rw [hlocate] at h
      cases h
    | ok found =>
      rw [hlocate] at h
      cases h
      rfl

/-- A file is written at the place that its path points to. -/
theorem modify_eq_ok {change : Bytes → Bytes} (h : fs.modify path change = .ok fs') :
    fs.Vacant (fs.resolve path) ∧ (fs.route path).stop = .ok ⟨fs.resolve path, false⟩ ∧
      fs' = fs.putAt (fs.resolve path) (.file (change ((fs.bytesAt? (fs.resolve path)).getD []))) := by
  unfold modify at h
  cases hreach : fs.reach true path with
  | error e => simp [hreach] at h
  | ok place =>
    have hlocate := locate_of_reach hreach
    have hfound := locate_found hlocate
    have hplace := hfound.resolved (.inl rfl)
    have hbytes : fs.bytesAt? (fs.resolve path) = place.entry.bind Entry.bytes? := by
      rw [bytesAt?, ← hplace, hfound.entry]
    rw [hreach] at h
    dsimp only at h
    split_ifs at h with hslashed
    have hstop : (fs.route path).stop = .ok ⟨fs.resolve path, false⟩ := by
      rw [stop_of_locate hlocate, hplace, Bool.eq_false_iff.mpr hslashed]
    split at h
    · next old hentry =>
      -- a file that is there is written over
      refine ⟨hfound.vacant fun entry hother => ?_, hstop, ?_⟩
      · cases hentry.symm.trans hother
        rfl
      · rw [hbytes, hentry, ← hplace]
        exact (Except.ok.inj h).symm
    · cases h
    · next hentry =>
      -- a name that is free is taken
      refine ⟨hfound.vacant fun entry hother => ?_, hstop, ?_⟩
      · cases hentry.symm.trans hother
      · rw [hbytes, hentry, ← hplace]
        exact (Except.ok.inj h).symm

theorem grows_of_modify {change : Bytes → Bytes} (h : fs.modify path change = .ok fs') :
    fs.Grows [fs.resolve path] fs' := by
  obtain ⟨hvacant, -, rfl⟩ := modify_eq_ok h
  exact hvacant.grows_file _

theorem grows_of_write (h : fs.write path bytes = .ok fs') : fs.Grows [fs.resolve path] fs' :=
  grows_of_modify h

/-- **What is written can be read.** -/
theorem read_of_write (h : fs.write path bytes = .ok fs') : fs'.read path = .ok bytes := by
  have hresolve := (grows_of_write h).resolve_eq path
  obtain ⟨hvacant, hstop, rfl⟩ := modify_eq_ok h
  rw [read_eq_ok_iff, fileAt?_eq_some_iff, hresolve, bytesAt?_putAt (isLeaf_file _) hvacant, if_pos rfl]
  refine ⟨?_, rfl⟩
  -- the two file systems differ at one place only, where each has a file or nothing
  have hsame : ((fs.putAt (fs.resolve path) (.file bytes)).route path).stop.toOption =
      (fs.route path).stop.toOption := by
    unfold route
    split_ifs
    · rfl
    · have hother : ∀ place, place ≠ fs.resolve path →
          fs.view place = (fs.putAt (fs.resolve path) (.file bytes)).view place := by
        intro place hplace
        rw [view_putAt (isLeaf_file bytes) hvacant, if_neg hplace]
      refine View.toOption_stop_congr hother hvacant.leaf (.inr ?_)
      rw [view_putAt (isLeaf_file bytes) hvacant, if_pos rfl]
      rfl
  rw [hstop] at hsame
  cases hnew : ((fs.putAt (fs.resolve path) (.file bytes)).route path).stop with
  | error cause =>
    rw [hnew] at hsame
    cases hsame
  | ok stop =>
    rw [hnew] at hsame
    exact congrArg _ (Option.some.inj hsame)

/-! ## Making directories -/

/-- A directory is made at the place that its path points to. -/
theorem makeDirectory_eq_ok (h : fs.makeDirectory path = .ok fs') :
    fs.Vacant (fs.resolve path) ∧ fs.view (fs.resolve path) = none ∧
      fs' = fs.putAt (fs.resolve path) (.directory []) := by
  unfold makeDirectory at h
  cases hreach : fs.reach false path with
  | error e => simp [hreach] at h
  | ok place =>
    have hfound := locate_found (locate_of_reach hreach)
    simp only [hreach] at h
    split at h
    · cases h
    · next hentry =>
      cases h
      have hplace := hfound.resolved (.inr (by simp [hentry]))
      refine ⟨hfound.vacant (by simp [hentry]), ?_, by rw [hplace]⟩
      rw [view, ← hplace, hfound.entry, hentry]
      rfl

theorem grows_of_makeDirectory (h : fs.makeDirectory path = .ok fs') : fs.Grows [] fs' := by
  obtain ⟨hvacant, hnone, rfl⟩ := makeDirectory_eq_ok h
  exact hvacant.grows_directory hnone

theorem makeLast_grows (fs : FileSystem) (path : Text) : fs.Grows [] (fs.makeLast path).1 := by
  unfold makeLast
  split
  · next hmade => exact grows_of_makeDirectory hmade
  · split_ifs <;> exact .refl fs []
  · exact .refl fs []

/-- What is made: the last directory alone, those above it alone, or all of them. -/
theorem makeDirectoriesFrom_succ (depth : ℕ) (fs : FileSystem) (path : Text) :
    let above := (makeDirectoriesFrom depth fs (splitName path).1).1
    (makeDirectoriesFrom (depth + 1) fs path).1 = (fs.makeLast path).1 ∨
      (makeDirectoriesFrom (depth + 1) fs path).1 = above ∨
      (makeDirectoriesFrom (depth + 1) fs path).1 = (above.makeLast path).1 := by
  simp only [makeDirectoriesFrom]
  rcases splitName path with ⟨head, tail⟩
  dsimp only
  rcases makeDirectoriesFrom depth fs head with ⟨next, _ | e⟩
  · split_ifs <;> simp
  · dsimp only
    split_ifs <;> simp

theorem makeDirectoriesFrom_grows (depth : ℕ) (fs : FileSystem) (path : Text) :
    fs.Grows [] (makeDirectoriesFrom depth fs path).1 := by
  induction depth generalizing fs path with
  | zero => exact makeLast_grows fs path
  | succ depth ih =>
    have habove := ih fs (splitName path).1
    rcases makeDirectoriesFrom_succ depth fs path with hmade | hmade | hmade
    · rw [hmade]
      exact makeLast_grows fs path
    · rw [hmade]
      exact habove
    · rw [hmade]
      exact habove.trans (makeLast_grows _ path)

/-- **Making directories touches no file**, whether or not it succeeds. -/
theorem makeDirectories_grows (fs : FileSystem) (path : Text) :
    fs.Grows [] (fs.makeDirectories path).1 :=
  makeDirectoriesFrom_grows path.length fs path

end FileSystem

end Gleaner
