import Gleaner.FileSystem.Change
import Gleaner.Proofs.FileSystem.Route

/-!
# Where a path points

A path points to a place whether or not something is there: links on the way are followed, and a name
that stands for nothing, or for a file, is taken as it is. Where a path points depends on the links of
the file system and on nothing else, so directories and files may come and go. Where a path leads, it
leads to the place that it points to.

## Main definitions

* `View.resolve`, `FileSystem.resolve`: the place that a path points to

## Main results

* `View.resolve_congr`: only links matter
* `FileSystem.locate_found`: what is found lies in a directory, at the place that the path points to
* `FileSystem.route_resolve`: the same along a route
-/

namespace Gleaner

open Gleaner.Utf8 (Bytes)

/-- The place that pieces point to from a directory, in a view; `links` is how many links may still be
followed, and the next one is taken as a name. -/
def View.resolve (view : View) (links : ℕ) (here : List Text) : List Text → List Text
  | [] => here
  | piece :: rest =>
    if piece = "" || piece = "." then View.resolve view links here rest
    else if piece = ".." then View.resolve view links here.dropLast rest
    else
      match view (here ++ [piece]) with
      | some (.link target) =>
        match links with
        | 0 => View.resolve view 0 (here ++ [piece]) rest
        | links + 1 =>
          View.resolve view links (if Path.isAbsolute target then [] else here)
            (Path.pieces target ++ rest)
      | _ => View.resolve view links (here ++ [piece]) rest
termination_by pieces => (links, pieces.length)

namespace View

variable {view other : View} {links : ℕ} {here rest : List Text} {piece : Text}

theorem resolve_nil : view.resolve links here [] = here := by
  rw [resolve]

theorem resolve_skip (h : (decide (piece = "") || decide (piece = ".")) = true) :
    view.resolve links here (piece :: rest) = view.resolve links here rest := by
  rw [resolve, if_pos h]

theorem resolve_up : view.resolve links here (".." :: rest) = view.resolve links here.dropLast rest := by
  rw [resolve, if_neg (by decide), if_pos rfl]

theorem resolve_step (h : IsStep piece)
    (hview : ∀ target, view (here ++ [piece]) ≠ some (.link target)) :
    view.resolve links here (piece :: rest) = view.resolve links (here ++ [piece]) rest := by
  rw [resolve, if_neg h.1, if_neg h.2]
  split
  · next target hlink => exact absurd hlink (hview target)
  · rfl

theorem resolve_link_zero {target : Text} (h : IsStep piece)
    (hview : view (here ++ [piece]) = some (.link target)) :
    view.resolve 0 here (piece :: rest) = view.resolve 0 (here ++ [piece]) rest := by
  rw [resolve, if_neg h.1, if_neg h.2, hview]

theorem resolve_link_succ {target : Text} (h : IsStep piece)
    (hview : view (here ++ [piece]) = some (.link target)) :
    view.resolve (links + 1) here (piece :: rest) =
      view.resolve links (if Path.isAbsolute target then [] else here) (Path.pieces target ++ rest) := by
  rw [resolve, if_neg h.1, if_neg h.2, hview]

/-- Without links, names lead one below the other. -/
theorem resolve_of_no_links (hview : ∀ place target, view place ≠ some (.link target))
    (links : ℕ) {names : List Text} (hnames : ∀ name ∈ names, IsStep name) (here : List Text) :
    view.resolve links here names = here ++ names := by
  induction names generalizing here with
  | nil => rw [resolve_nil, List.append_nil]
  | cons name names ih =>
    rw [resolve_step (hnames name (List.mem_cons_self ..)) (hview _),
      ih (fun other hother => hnames other (List.mem_cons_of_mem _ hother)), List.append_assoc,
      List.singleton_append]

/-- Empty pieces point nowhere else. -/
theorem resolve_of_all_empty (h : rest.all (· = "") = true) : view.resolve links here rest = here := by
  induction rest with
  | nil => exact resolve_nil
  | cons piece rest ih =>
    rw [List.all_cons, Bool.and_eq_true] at h
    rw [resolve_skip (by simp [of_decide_eq_true h.1]), ih h.2]

/-- **Only links matter** for where a path points. -/
theorem resolve_congr (h : ∀ place target, view place = some (.link target) ↔
    other place = some (.link target)) (links : ℕ) (here pieces : List Text) :
    other.resolve links here pieces = view.resolve links here pieces := by
  fun_induction View.resolve view links here pieces with
  | case1 links here => exact resolve_nil
  | case2 links here piece rest hskip ih => rw [resolve_skip hskip, ih]
  | case3 links here rest _ ih => rw [resolve_up, ih]
  | case4 here piece rest hpiece hup target hview ih =>
    rw [resolve_link_zero ⟨hpiece, hup⟩ ((h _ _).mp hview), ih]
  | case5 here piece rest hpiece hup target hview links ih =>
    rw [resolve_link_succ ⟨hpiece, hup⟩ ((h _ _).mp hview)]
    simpa only [dite_eq_ite] using ih
  | case6 links here piece rest hpiece hup hview ih =>
    rw [resolve_step ⟨hpiece, hup⟩ fun target hlink => hview target ((h _ _).mpr hlink), ih]

end View

namespace FileSystem

variable {fs : FileSystem} {path : Text} {follow : Bool} {place : Place}

/-- The place that a path points to. -/
def resolve (fs : FileSystem) (path : Text) : List Text :=
  fs.view.resolve maxLinks [] (Path.pieces (Path.append fs.cwd path))

/-- **Where a path leads.** What is found is what is there; unless it is a directory it is a name in one;
and unless it is a link that is not followed, it is at the place that the path points to. -/
structure Found (fs : FileSystem) (follow : Bool) (target : List Text) (place : Place) : Prop where
  entry : fs.tree.at? place.components = place.entry
  within : (∀ entries, place.entry ≠ some (.directory entries)) →
    ∃ here name, place.components = here ++ [name] ∧ fs.view here = some .directory
  resolved : (follow = true ∨ ∀ t, place.entry ≠ some (.link t)) → place.components = target

theorem locateFrom_found {links : ℕ} {trail : Trail} {pieces : List Text}
    (h : Trail.Within fs.entries trail)
    (hplace : locateFrom fs.entries follow links trail pieces = .ok place) :
    fs.Found follow (fs.view.resolve links trail.components pieces) place := by
  -- the innermost directory of the trail is the one that the place is in
  have hhere : ∀ {trail : Trail}, Trail.Within fs.entries trail →
      fs.view trail.components = some .directory := fun htrail =>
    view_eq_directory_iff.mpr ⟨_, htrail.at?_components⟩
  fun_induction locateFrom fs.entries follow links trail pieces with
  | case1 links trail =>
    cases hplace
    exact ⟨h.at?_components, fun hdirectory => absurd rfl (hdirectory _), fun _ => View.resolve_nil.symm⟩
  | case2 links trail piece rest hskip ih =>
    rw [View.resolve_skip hskip]
    exact ih h hplace
  | case3 links trail rest _ ih =>
    rw [View.resolve_up, ← Trail.components_drop]
    exact ih h.drop hplace
  | case4 links trail piece rest hpiece hup hget hall =>
    cases hplace
    refine ⟨(h.at?_concat piece).trans hget, fun _ => ⟨_, _, rfl, hhere h⟩, fun _ => ?_⟩
    have hview : fs.view (trail.components ++ [piece]) = none := by rw [h.view_concat, hget]; rfl
    rw [View.resolve_step ⟨hpiece, hup⟩ (by simp [hview]), View.resolve_of_all_empty hall]
  | case5 links trail piece rest hpiece hup hget hall => cases hplace
  | case6 links trail piece rest hpiece hup entries hget ih =>
    have hview : fs.view (trail.components ++ [piece]) = some .directory := by
      rw [h.view_concat, hget]; rfl
    rw [View.resolve_step ⟨hpiece, hup⟩ (by simp [hview]), ← Trail.components_cons piece entries]
    exact ih (h.cons hget) hplace
  | case7 links trail piece rest hpiece hup bytes hget hall =>
    cases hplace
    refine ⟨(h.at?_concat piece).trans hget, fun _ => ⟨_, _, rfl, hhere h⟩, fun _ => ?_⟩
    have hview : fs.view (trail.components ++ [piece]) = some .file := by
      rw [h.view_concat, hget]; rfl
    rw [View.resolve_step ⟨hpiece, hup⟩ (by simp [hview]), View.resolve_of_all_empty hall]
  | case8 links trail piece rest hpiece hup bytes hget hall => cases hplace
  | case9 links trail piece rest hpiece hup target hget hstay =>
    cases hplace
    refine ⟨(h.at?_concat piece).trans hget, fun _ => ⟨_, _, rfl, hhere h⟩, ?_⟩
    rintro (rfl | hlink)
    · simp at hstay
    · exact absurd rfl (hlink target)
  | case10 trail piece rest hpiece hup target hget _ => cases hplace
  | case11 trail piece rest hpiece hup target hget _ links ih =>
    have hview : fs.view (trail.components ++ [piece]) = some (.link target) := by
      rw [h.view_concat, hget]; rfl
    rw [View.resolve_link_succ ⟨hpiece, hup⟩ hview]
    -- an absolute target starts over from the root
    split_ifs at ih hplace ⊢ with habsolute
    · exact ih .nil hplace
    · exact ih h hplace

theorem locate_found (h : fs.locate follow path = .ok place) : fs.Found follow (fs.resolve path) place := by
  unfold locate at h
  split_ifs at h
  exact locateFrom_found .nil h

/-- **A path that leads somewhere leads to where it points**, links followed. -/
theorem route_resolve {stop : Stop} (h : (fs.route path).stop = .ok stop) :
    stop.place = fs.resolve path := by
  have hlocate : fs.locate true path = .ok (stop.toPlace fs.tree) := by
    rw [locate_eq_route, h]
    rfl
  exact (locate_found hlocate).resolved (.inl rfl)

end FileSystem

end Gleaner
