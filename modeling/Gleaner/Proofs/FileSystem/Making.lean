import Gleaner.Proofs.FileSystem.Growth

/-!
# Where directories are made

A file system that grows may get new directories, and `Grows` does not say where. Making a directory with
those above it makes them at the places that their paths point to and nowhere else, and writing a file
makes none. So a place that is neither written to nor on the way to a new directory stays as it is, also
if nothing is there.

## Main definitions

* `FileSystem.Spreads`: growth that makes directories at given places only
* `FileSystem.directoriesTo`, `FileSystem.above`: a directory and those above it, those that a file needs
* `FileSystem.SameAt`: what stays as it is

## Main results

* `FileSystem.Spreads.sameAt`: other places stay as they are
* `FileSystem.spreads_of_modify`, `FileSystem.makeDirectories_spreads`: what files and directories need
* `FileSystem.makeDirectories_root`: the root needs nothing
-/

namespace Gleaner.FileSystem

open Gleaner.Utf8 (Bytes)

variable {fs fs' fs'' : FileSystem} {path : Text} {place : List Text}
  {touched made : List (List Text)}

/-- **Growth that makes directories at given places only.** -/
structure Spreads (fs : FileSystem) (touched made : List (List Text)) (fs' : FileSystem) : Prop
    extends fs.Grows touched fs' where
  fresh : ∀ place, fs.view place = none → fs'.view place = some .directory → place ∈ made

namespace Spreads

protected theorem refl (fs : FileSystem) (touched made : List (List Text)) :
    fs.Spreads touched made fs := by
  refine ⟨.refl fs touched, fun place hnone hdirectory => ?_⟩
  rw [hnone] at hdirectory
  cases hdirectory

theorem mono {touched' made' : List (List Text)} (h : fs.Spreads touched made fs')
    (htouched : touched ⊆ touched') (hmade : made ⊆ made') : fs.Spreads touched' made' fs' :=
  ⟨h.toGrows.mono htouched, fun place hnone hdirectory => hmade (h.fresh place hnone hdirectory)⟩

theorem trans (h : fs.Spreads touched made fs') (h' : fs'.Spreads touched made fs'') :
    fs.Spreads touched made fs'' := by
  refine ⟨h.toGrows.trans h'.toGrows, fun place hnone hdirectory => ?_⟩
  -- what came in the first step has stayed, so it was a directory from the start
  cases hmiddle : fs'.view place with
  | none => exact h'.fresh place hmiddle hdirectory
  | some kind =>
    have hkind := (h'.kept place kind hmiddle).symm.trans hdirectory
    exact h.fresh place hnone (hmiddle.trans hkind)

end Spreads

/-- Of the same kind at a place, and with the same bytes there. -/
def SameAt (fs fs' : FileSystem) (place : List Text) : Prop :=
  fs'.view place = fs.view place ∧ fs'.bytesAt? place = fs.bytesAt? place

/-- **Other places stay as they are.** -/
theorem Spreads.sameAt (h : fs.Spreads touched made fs') (htouched : place ∉ touched)
    (hmade : place ∉ made) : fs.SameAt fs' place := by
  have hbytes := h.bytes place htouched
  refine ⟨?_, hbytes⟩
  cases hview : fs.view place with
  | some kind => exact h.kept place kind hview
  | none =>
    -- nothing can have come: no directory, no link, and no file, which would have bytes
    cases hnew : fs'.view place with
    | none => rfl
    | some kind =>
      cases kind with
      | directory => exact absurd (h.fresh place hview hnew) hmade
      | link target => exact (h.links place target hnew).symm.trans hview
      | file =>
        have hsome := isSome_bytesAt?_iff.mpr hnew
        rw [hbytes, isSome_bytesAt?_iff, hview] at hsome
        cases hsome

/-- A file is written without making a directory. -/
theorem spreads_of_modify {change : Bytes → Bytes} (h : fs.modify path change = .ok fs') :
    fs.Spreads [fs.resolve path] [] fs' := by
  refine ⟨grows_of_modify h, fun place hnone hdirectory => ?_⟩
  obtain ⟨hvacant, -, rfl⟩ := modify_eq_ok h
  rw [view_putAt (isLeaf_file _) hvacant] at hdirectory
  split_ifs at hdirectory
  · cases hdirectory
  · rw [hnone] at hdirectory
    cases hdirectory

/-! ## Making directories -/

/-- A directory and those above it, from the innermost on. -/
def directoriesTo : (depth : ℕ) → Text → List Text
  | 0, path => [path]
  | depth + 1, path => path :: directoriesTo depth (splitName path).1

theorem spreads_of_makeDirectory (h : fs.makeDirectory path = .ok fs') :
    fs.Spreads [] [fs.resolve path] fs' := by
  refine ⟨grows_of_makeDirectory h, fun place hnone hdirectory => ?_⟩
  obtain ⟨hvacant, -, rfl⟩ := makeDirectory_eq_ok h
  rw [view_putAt isLeaf_directory_nil hvacant] at hdirectory
  split_ifs at hdirectory with hplace
  · exact List.mem_singleton.mpr hplace
  · rw [hnone] at hdirectory
    cases hdirectory

theorem makeLast_spreads (fs : FileSystem) (path : Text) :
    fs.Spreads [] [fs.resolve path] (fs.makeLast path).1 := by
  unfold makeLast
  split
  · next hmade => exact spreads_of_makeDirectory hmade
  · split_ifs <;> exact .refl fs [] _
  · exact .refl fs [] _

theorem makeDirectoriesFrom_spreads (depth : ℕ) (fs : FileSystem) (path : Text) :
    fs.Spreads [] ((directoriesTo depth path).map fs.resolve) (makeDirectoriesFrom depth fs path).1 := by
  -- By the number of directories above: those are made first, and the last one after them.
  induction depth generalizing fs path with
  | zero => exact makeLast_spreads fs path
  | succ depth ih =>
    have habove := (ih fs (splitName path).1).mono (List.Subset.refl _)
      (List.subset_cons_self (fs.resolve path) _)
    -- also after the directories above it, the last one is made where its path points to
    have hlast (next : FileSystem) (h : fs.Grows [] next) :
        next.Spreads [] ((directoriesTo (depth + 1) path).map fs.resolve) (next.makeLast path).1 := by
      refine (makeLast_spreads next path).mono (List.Subset.refl _) ?_
      rw [h.resolve_eq path, directoriesTo, List.map_cons]
      exact List.cons_subset_cons _ (List.nil_subset _)
    rcases makeDirectoriesFrom_succ depth fs path with hmade | hmade | hmade
    · rw [hmade]
      exact hlast fs (.refl fs [])
    · rw [hmade]
      exact habove
    · rw [hmade]
      exact habove.trans (hlast _ habove.toGrows)

/-- **Making a directory with those above it** makes them at the places of their paths. -/
theorem makeDirectories_spreads (fs : FileSystem) (path : Text) :
    fs.Spreads [] ((directoriesTo path.length path).map fs.resolve) (fs.makeDirectories path).1 :=
  makeDirectoriesFrom_spreads path.length fs path

/-- The places of the directories that a file needs. -/
def above (fs : FileSystem) (path : Text) : List (List Text) :=
  let directory := Path.parent (Path.absolute fs.cwd path)
  (directoriesTo directory.length directory).map fs.resolve

theorem Grows.above_eq (h : fs.Grows touched fs') (path : Text) : fs'.above path = fs.above path := by
  have hresolve : fs'.resolve = fs.resolve := funext h.resolve_eq
  rw [above, above, h.cwd, hresolve]

/-- The root of a file system is there. -/
theorem makeDirectories_root (hcwd : fs.cwd = "/") : fs.makeDirectories "/" = (fs, none) := by
  have hsplit : splitName "/" = (("/" : Text), ("" : Text)) := by decide +kernel
  have hpieces : Path.pieces (Path.append "/" "/") = (["", ""] : List Text) := by decide +kernel
  have hlength : ("/" : Text).length = 1 := by decide
  have hfault : pathFault? "/" = none := by decide
  have hempty : ("/" : Text).isEmpty = false := by decide
  simp [makeDirectories, hlength, makeDirectoriesFrom, hsplit, makeLast, makeDirectory, reach, hfault,
    isDirectory, entry, locate, hempty, hcwd, hpieces, locateFrom, Trail.place, Entry.isDirectory, bind,
    Except.bind, Except.mapError]

end Gleaner.FileSystem
