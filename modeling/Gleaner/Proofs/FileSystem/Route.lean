import Gleaner.FileSystem.Locate
import Gleaner.Proofs.FileSystem.Tree

/-!
# Following a path

To follow a path one asks, place by place, what is there: a file, a link with its target, a directory,
or nothing. The bytes of files and the order of directories do not matter, and neither do places that
are not asked for. This module says so: the *route* of a path is the list of the places asked for and
where they lead, and `locate_eq_route` ties it to the search through the tree.

## Main definitions

* `View.route`, `FileSystem.route`: the way of a path
* `FileSystem.Reaches`: a path that leads to a directory
* `FileSystem.fileAt?`: the bytes of the file that a path leads to

## Main results

* `FileSystem.locate_eq_route`: a path is followed along its route
* `View.route_congr`: a route depends only on the places that it asks for
* `View.asked_subset`: where less is there, no more is asked for
* `View.toOption_stop_congr`: a file that is there or not does not change where other paths lead
* `View.route_append`, `FileSystem.Reaches.route_append`: a path that goes on from a directory
* `View.route_invariant`: what holds all along a route
* `FileSystem.Reaches.below`: the way to a directory further down
-/

namespace Gleaner

open Gleaner.Utf8 (Bytes)

/-! ## Routes -/

/-- Where a path leads: the place, and whether slashes follow the name of a file or of nothing. -/
structure Stop where
  place : List Text
  slashed : Bool := false
deriving DecidableEq

/-- The way of a path: the places asked for, in order, and where it leads. -/
structure Route where
  asked : List (List Text)
  stop : Except OsCause Stop

/-- A route that asks for other places first. -/
def Route.after (places : List (List Text)) (r : Route) : Route :=
  ⟨places ++ r.asked, r.stop⟩

/-- The route along pieces from a directory, in a view; `links` is how many links may still be
followed. Links are followed also at the end. -/
def View.route (view : View) (links : ℕ) (here : List Text) : List Text → Route
  | [] => ⟨[], .ok ⟨here, false⟩⟩
  | piece :: rest =>
    if piece = "" || piece = "." then View.route view links here rest
    else if piece = ".." then View.route view links here.dropLast rest
    else
      match view (here ++ [piece]) with
      | none =>
        ⟨[here ++ [piece]],
          if rest.all (· = "") then .ok ⟨here ++ [piece], !rest.isEmpty⟩ else .error .missing⟩
      | some .file =>
        ⟨[here ++ [piece]],
          if rest.all (· = "") then .ok ⟨here ++ [piece], !rest.isEmpty⟩ else .error .notDirectory⟩
      | some .directory => (View.route view links (here ++ [piece]) rest).after [here ++ [piece]]
      | some (.link target) =>
        match links with
        | 0 => ⟨[here ++ [piece]], .error .tooManyLinks⟩
        | links + 1 =>
          (View.route view links (if Path.isAbsolute target then [] else here)
            (Path.pieces target ++ rest)).after [here ++ [piece]]
termination_by pieces => (links, pieces.length)

section Steps

variable {view : View} {links : ℕ} {here : List Text} {piece : Text} {rest : List Text}

/-- A piece that is the name of something, and not a sign for the directory itself or the one above. -/
def IsStep (piece : Text) : Prop :=
  ¬(decide (piece = "") || decide (piece = ".")) = true ∧ piece ≠ ".."

theorem IsStep.of_isName (h : Path.IsName piece) : IsStep piece := by
  refine ⟨?_, h.2.2.1⟩
  simp [h.1, h.2.1]

namespace View

theorem route_nil : view.route links here [] = ⟨[], .ok ⟨here, false⟩⟩ := by
  rw [route]

theorem route_skip (h : (decide (piece = "") || decide (piece = ".")) = true) :
    view.route links here (piece :: rest) = view.route links here rest := by
  rw [route, if_pos h]

theorem route_up : view.route links here (".." :: rest) = view.route links here.dropLast rest := by
  rw [route, if_neg (by decide), if_pos rfl]

theorem route_none (h : IsStep piece) (hview : view (here ++ [piece]) = none) :
    view.route links here (piece :: rest) =
      ⟨[here ++ [piece]],
        if rest.all (· = "") then .ok ⟨here ++ [piece], !rest.isEmpty⟩ else .error .missing⟩ := by
  rw [route, if_neg h.1, if_neg h.2, hview]

theorem route_file (h : IsStep piece) (hview : view (here ++ [piece]) = some .file) :
    view.route links here (piece :: rest) =
      ⟨[here ++ [piece]],
        if rest.all (· = "") then .ok ⟨here ++ [piece], !rest.isEmpty⟩
        else .error .notDirectory⟩ := by
  rw [route, if_neg h.1, if_neg h.2, hview]

theorem route_directory (h : IsStep piece) (hview : view (here ++ [piece]) = some .directory) :
    view.route links here (piece :: rest) =
      (view.route links (here ++ [piece]) rest).after [here ++ [piece]] := by
  rw [route, if_neg h.1, if_neg h.2, hview]

theorem route_link_zero {target : Text} (h : IsStep piece)
    (hview : view (here ++ [piece]) = some (.link target)) :
    view.route 0 here (piece :: rest) = ⟨[here ++ [piece]], .error .tooManyLinks⟩ := by
  rw [route, if_neg h.1, if_neg h.2, hview]

theorem route_link_succ {target : Text} (h : IsStep piece)
    (hview : view (here ++ [piece]) = some (.link target)) :
    view.route (links + 1) here (piece :: rest) =
      (view.route links (if Path.isAbsolute target then [] else here)
        (Path.pieces target ++ rest)).after [here ++ [piece]] := by
  rw [route, if_neg h.1, if_neg h.2, hview]

end View

end Steps

/-- The directories of a trail lie one in the other, the outermost in the root. -/
inductive Trail.Within (root : Entries) : Trail → Prop
  | nil : Trail.Within root []
  | cons {trail : Trail} {name : Text} {entries : Entries} (h : Trail.Within root trail)
      (hget : (trail.here root).get? name = some (.directory entries)) :
      Trail.Within root ((name, entries) :: trail)

theorem Trail.Within.drop {root : Entries} {trail : Trail} (h : Trail.Within root trail) :
    Trail.Within root (trail.drop 1) := by
  cases h with
  | nil => exact .nil
  | cons h _ => exact h

theorem Trail.components_drop (trail : Trail) :
    Trail.components (trail.drop 1) = trail.components.dropLast := by
  cases trail with
  | nil => rfl
  | cons x trail => simp [Trail.components]

theorem Trail.components_cons (name : Text) (entries : Entries) (trail : Trail) :
    Trail.components ((name, entries) :: trail) = trail.components ++ [name] := by
  simp [Trail.components]

/-- The innermost directory of a trail is what is at its place. -/
theorem Trail.Within.at?_components {fs : FileSystem} {trail : Trail}
    (h : Trail.Within fs.entries trail) :
    fs.tree.at? trail.components = some (.directory (trail.here fs.entries)) := by
  induction h with
  | nil => rfl
  | cons h hget ih =>
    rw [Trail.components_cons, Entry.at?_concat ih, hget]
    rfl

theorem Trail.Within.at?_concat {fs : FileSystem} {trail : Trail}
    (h : Trail.Within fs.entries trail) (name : Text) :
    fs.tree.at? (trail.components ++ [name]) = (trail.here fs.entries).get? name :=
  Entry.at?_concat h.at?_components name

/-- What a view tells of the places right in the innermost directory. -/
theorem Trail.Within.view_concat {fs : FileSystem} {trail : Trail}
    (h : Trail.Within fs.entries trail) (name : Text) :
    fs.view (trail.components ++ [name]) = ((trail.here fs.entries).get? name).map Entry.kind := by
  rw [FileSystem.view, h.at?_concat]

/-- The place in a tree where a route stops. -/
def Stop.toPlace (root : Entry) (stop : Stop) : Place :=
  ⟨stop.place, root.at? stop.place, stop.slashed⟩

/-- **Pieces are followed along their route.** The trail is all that the search keeps, and the route
keeps its place instead. -/
theorem locateFrom_eq_route {fs : FileSystem} {links : ℕ} {trail : Trail} {pieces : List Text}
    (h : Trail.Within fs.entries trail) :
    locateFrom fs.entries true links trail pieces =
      (fs.view.route links trail.components pieces).stop.map (Stop.toPlace fs.tree) := by
  fun_induction locateFrom fs.entries true links trail pieces with
  | case1 links trail =>
    rw [View.route_nil, Except.map, Stop.toPlace, h.at?_components, Trail.place]
  | case2 links trail piece rest hskip ih => rw [View.route_skip hskip, ih h]
  | case3 links trail rest _ ih => rw [View.route_up, ih h.drop, Trail.components_drop]
  | case4 links trail piece rest hpiece hup hget hall =>
    rw [View.route_none ⟨hpiece, hup⟩ (by rw [h.view_concat, hget]; rfl), if_pos hall, Except.map,
      Stop.toPlace, h.at?_concat, hget]
  | case5 links trail piece rest hpiece hup hget hall =>
    rw [View.route_none ⟨hpiece, hup⟩ (by rw [h.view_concat, hget]; rfl), if_neg hall, Except.map]
  | case6 links trail piece rest hpiece hup entries hget ih =>
    rw [View.route_directory ⟨hpiece, hup⟩ (by rw [h.view_concat, hget]; rfl), ih (h.cons hget),
      Trail.components_cons, Route.after]
  | case7 links trail piece rest hpiece hup bytes hget hall =>
    rw [View.route_file ⟨hpiece, hup⟩ (by rw [h.view_concat, hget]; rfl), if_pos hall, Except.map,
      Stop.toPlace, h.at?_concat, hget]
  | case8 links trail piece rest hpiece hup bytes hget hall =>
    rw [View.route_file ⟨hpiece, hup⟩ (by rw [h.view_concat, hget]; rfl), if_neg hall, Except.map]
  | case9 links trail piece rest hpiece hup target hget hstay => simp at hstay
  | case10 trail piece rest hpiece hup target hget _ =>
    rw [View.route_link_zero ⟨hpiece, hup⟩ (by rw [h.view_concat, hget]; rfl), Except.map]
  | case11 trail piece rest hpiece hup target hget _ links ih =>
    rw [View.route_link_succ ⟨hpiece, hup⟩ (by rw [h.view_concat, hget]; rfl), Route.after]
    -- an absolute target starts over from the root
    split_ifs at ih ⊢ with habsolute
    · exact ih .nil
    · exact ih h

/-! ## What a route depends on -/

namespace View

variable {view other : View} {links : ℕ} {here pieces : List Text}

/-- **A route depends only on the places that it asks for.** -/
theorem route_congr (h : ∀ place ∈ (view.route links here pieces).asked, view place = other place) :
    other.route links here pieces = view.route links here pieces := by
  fun_induction View.route view links here pieces with
  | case1 links here => rw [route_nil]
  | case2 links here piece rest hskip ih => rw [route_skip hskip, ih h]
  | case3 links here rest _ ih => rw [route_up, ih h]
  | case4 links here piece rest hpiece hup hview =>
    -- a step asks for its own place first, so both views have the same there
    have hsame := h (here ++ [piece]) (by simp)
    rw [hview] at hsame
    rw [route_none ⟨hpiece, hup⟩ hsame.symm]
  | case5 links here piece rest hpiece hup hview =>
    have hsame := h (here ++ [piece]) (by simp)
    rw [hview] at hsame
    rw [route_file ⟨hpiece, hup⟩ hsame.symm]
  | case6 links here piece rest hpiece hup hview ih =>
    have hsame := h (here ++ [piece]) (by simp [Route.after])
    rw [hview] at hsame
    rw [route_directory ⟨hpiece, hup⟩ hsame.symm,
      ih fun place hplace => h place (List.mem_append_right _ hplace)]
  | case7 here piece rest hpiece hup target hview =>
    have hsame := h (here ++ [piece]) (by simp)
    rw [hview] at hsame
    rw [route_link_zero ⟨hpiece, hup⟩ hsame.symm]
  | case8 here piece rest hpiece hup target hview links ih =>
    have hsame := h (here ++ [piece]) (by simp [Route.after])
    rw [hview] at hsame
    rw [route_link_succ ⟨hpiece, hup⟩ hsame.symm]
    simp only [dite_eq_ite] at ih
    rw [ih fun place hplace => h place (List.mem_append_right _ hplace)]

/-- Where less is there and fewer links may be followed, a route asks for no more places. -/
theorem asked_subset {fewer : ℕ} (hlinks : fewer ≤ links)
    (hless : ∀ place, other place = none ∨ other place = view place) :
    (other.route fewer here pieces).asked ⊆ (view.route links here pieces).asked := by
  fun_induction View.route view links here pieces generalizing fewer with
  | case1 links here =>
    rw [route_nil]
    exact List.Subset.refl _
  | case2 links here piece rest hskip ih =>
    rw [route_skip hskip]
    exact ih hlinks
  | case3 links here rest _ ih =>
    rw [route_up]
    exact ih hlinks
  | case4 links here piece rest hpiece hup hview =>
    have hsame : other (here ++ [piece]) = none := (hless _).elim id (·.trans hview)
    rw [route_none ⟨hpiece, hup⟩ hsame]
    exact List.Subset.refl _
  | case5 links here piece rest hpiece hup hview =>
    rcases hless (here ++ [piece]) with hsame | hsame
    · rw [route_none ⟨hpiece, hup⟩ hsame]
      exact List.Subset.refl _
    · rw [route_file ⟨hpiece, hup⟩ (hsame.trans hview)]
      exact List.Subset.refl _
  | case6 links here piece rest hpiece hup hview ih =>
    rcases hless (here ++ [piece]) with hsame | hsame
    · rw [route_none ⟨hpiece, hup⟩ hsame]
      exact List.subset_append_left _ _
    · rw [route_directory ⟨hpiece, hup⟩ (hsame.trans hview)]
      exact List.cons_subset_cons _ (ih hlinks)
  | case7 here piece rest hpiece hup target hview =>
    -- where no link may be followed, none may with fewer
    obtain rfl : fewer = 0 := Nat.le_zero.mp hlinks
    rcases hless (here ++ [piece]) with hsame | hsame
    · rw [route_none ⟨hpiece, hup⟩ hsame]
      exact List.Subset.refl _
    · rw [route_link_zero ⟨hpiece, hup⟩ (hsame.trans hview)]
      exact List.Subset.refl _
  | case8 here piece rest hpiece hup target hview links ih =>
    rcases hless (here ++ [piece]) with hsame | hsame
    · rw [route_none ⟨hpiece, hup⟩ hsame]
      exact List.subset_append_left _ _
    · cases fewer with
      | zero =>
        rw [route_link_zero ⟨hpiece, hup⟩ (hsame.trans hview)]
        exact List.subset_append_left _ _
      | succ fewer =>
        rw [route_link_succ ⟨hpiece, hup⟩ (hsame.trans hview)]
        simp only [dite_eq_ite] at ih
        exact List.cons_subset_cons _ (ih (Nat.succ_le_succ_iff.mp hlinks))

/-- At a file, or where nothing is, a route stops, and it leads somewhere if only slashes are left. -/
theorem toOption_stop_of_leaf {piece : Text} {rest : List Text} (h : IsStep piece)
    (hleaf : view (here ++ [piece]) = none ∨ view (here ++ [piece]) = some .file) :
    (view.route links here (piece :: rest)).stop.toOption =
      if rest.all (· = "") then some ⟨here ++ [piece], !rest.isEmpty⟩ else none := by
  rcases hleaf with hleaf | hleaf
  · rw [route_none h hleaf]
    dsimp only
    split_ifs <;> rfl
  · rw [route_file h hleaf]
    dsimp only
    split_ifs <;> rfl

/-- Two views that differ at one place only, where each has a file or nothing, lead to the same places.
Only the cause may differ for which a path leads nowhere. -/
theorem toOption_stop_congr {apart : List Text}
    (h : ∀ place, place ≠ apart → view place = other place)
    (hleaf : view apart = none ∨ view apart = some .file)
    (hleaf' : other apart = none ∨ other apart = some .file) :
    (other.route links here pieces).stop.toOption = (view.route links here pieces).stop.toOption := by
  -- at the place that is apart both views have a leaf, and elsewhere they agree
  have hleaves : ∀ place, view place = none ∨ view place = some .file →
      other place = none ∨ other place = some .file := by
    intro place hplace
    by_cases hsame : place = apart
    · rwa [hsame]
    · rwa [← h place hsame]
  have hinner : ∀ place kind, kind ≠ .file → view place = some kind → other place = some kind := by
    intro place kind hkind hplace
    rw [← hplace]
    refine (h place ?_).symm
    rintro rfl
    rw [hplace] at hleaf
    simp [hkind] at hleaf
  fun_induction View.route view links here pieces with
  | case1 links here => rw [route_nil]
  | case2 links here piece rest hskip ih => rw [route_skip hskip, ih]
  | case3 links here rest _ ih => rw [route_up, ih]
  | case4 links here piece rest hpiece hup hview =>
    rw [toOption_stop_of_leaf ⟨hpiece, hup⟩ (hleaves _ (.inl hview))]
    split_ifs <;> rfl
  | case5 links here piece rest hpiece hup hview =>
    rw [toOption_stop_of_leaf ⟨hpiece, hup⟩ (hleaves _ (.inr hview))]
    split_ifs <;> rfl
  | case6 links here piece rest hpiece hup hview ih =>
    rw [route_directory ⟨hpiece, hup⟩ (hinner _ _ (by simp) hview)]
    exact ih
  | case7 here piece rest hpiece hup target hview =>
    rw [route_link_zero ⟨hpiece, hup⟩ (hinner _ _ (by simp) hview)]
  | case8 here piece rest hpiece hup target hview links ih =>
    rw [route_link_succ ⟨hpiece, hup⟩ (hinner _ _ (by simp) hview)]
    simp only [dite_eq_ite] at ih
    exact ih

/-- Empty pieces lead nowhere else. -/
theorem route_of_all_empty (h : ∀ piece ∈ pieces, piece = "") :
    view.route links here pieces = ⟨[], .ok ⟨here, false⟩⟩ := by
  induction pieces with
  | nil => exact route_nil
  | cons piece pieces ih =>
    rw [route_skip (by simp [h piece]), ih fun p hp => h p (List.mem_cons_of_mem _ hp)]

/-- **A path that goes on from a directory** asks first for what leads to the directory, and then goes
on from there, with the links that are left. Empty pieces at the end of the first part may be left
out. -/
theorem route_append {tail : List Text} {place : List Text} (htail : ∀ piece ∈ tail, piece = "")
    (hstop : (view.route links here (pieces ++ tail)).stop = .ok ⟨place, false⟩)
    (hplace : view place = some .directory) :
    ∃ left ≤ links, ∀ more, view.route links here (pieces ++ more) =
      (view.route left place more).after (view.route links here (pieces ++ tail)).asked := by
  fun_induction View.route view links here pieces with
  | case1 links here =>
    rw [List.nil_append, route_of_all_empty htail] at hstop ⊢
    cases hstop
    exact ⟨links, le_rfl, fun more => rfl⟩
  | case2 links here piece rest hskip ih =>
    simp only [List.cons_append, route_skip hskip] at hstop ⊢
    exact ih hstop
  | case3 links here rest _ ih =>
    simp only [List.cons_append, route_up] at hstop ⊢
    exact ih hstop
  | case4 links here piece rest hpiece hup hview =>
    -- the route would end here, and here is no directory
    simp only [List.cons_append, route_none ⟨hpiece, hup⟩ hview] at hstop
    split_ifs at hstop
    rw [← (Stop.mk.inj (Except.ok.inj hstop)).1, hview] at hplace
    cases hplace
  | case5 links here piece rest hpiece hup hview =>
    simp only [List.cons_append, route_file ⟨hpiece, hup⟩ hview] at hstop
    split_ifs at hstop
    rw [← (Stop.mk.inj (Except.ok.inj hstop)).1, hview] at hplace
    cases hplace
  | case6 links here piece rest hpiece hup hview ih =>
    simp only [List.cons_append, route_directory ⟨hpiece, hup⟩ hview] at hstop ⊢
    obtain ⟨left, hleft, hmore⟩ := ih hstop
    exact ⟨left, hleft, fun more => by rw [hmore more]; rfl⟩
  | case7 here piece rest hpiece hup target hview =>
    simp only [List.cons_append, route_link_zero ⟨hpiece, hup⟩ hview] at hstop
    cases hstop
  | case8 here piece rest hpiece hup target hview links ih =>
    simp only [List.cons_append, route_link_succ ⟨hpiece, hup⟩ hview] at hstop ⊢
    simp only [dite_eq_ite, List.append_assoc] at ih
    obtain ⟨left, hleft, hmore⟩ := ih hstop
    exact ⟨left, Nat.le_succ_of_le hleft, fun more => by rw [hmore more]; rfl⟩

/-- A property of places that holds at the root, goes up with `..`, and goes down along the places
asked for, holds of all these places and of the one where the route stops. -/
theorem route_invariant {P : List Text → Prop} (hroot : P []) (hup : ∀ p, P p → P p.dropLast)
    (hdown : ∀ p name, P p → p ++ [name] ∈ (view.route links here pieces).asked → P (p ++ [name]))
    (hhere : P here) :
    (∀ p ∈ (view.route links here pieces).asked, P p) ∧
      ∀ stop, (view.route links here pieces).stop = .ok stop → P stop.place := by
  fun_induction View.route view links here pieces with
  | case1 links here =>
    refine ⟨by simp, ?_⟩
    rintro stop ⟨⟩
    exact hhere
  | case2 links here piece rest hskip ih => exact ih hdown hhere
  | case3 links here rest _ ih => exact ih hdown (hup _ hhere)
  | case4 links here piece rest hpiece hnotUp hview =>
    have hnext := hdown here piece hhere (List.mem_singleton_self _)
    refine ⟨by simpa using hnext, ?_⟩
    rintro stop hstop
    split_ifs at hstop
    cases hstop
    exact hnext
  | case5 links here piece rest hpiece hnotUp hview =>
    have hnext := hdown here piece hhere (List.mem_singleton_self _)
    refine ⟨by simpa using hnext, ?_⟩
    rintro stop hstop
    split_ifs at hstop
    cases hstop
    exact hnext
  | case6 links here piece rest hpiece hnotUp hview ih =>
    have hnext := hdown here piece hhere (List.mem_cons_self ..)
    obtain ⟨hasked, hstop⟩ := ih (fun p name hp hmem =>
      hdown p name hp (List.mem_cons_of_mem _ hmem)) hnext
    exact ⟨List.forall_mem_cons.mpr ⟨hnext, hasked⟩, hstop⟩
  | case7 here piece rest hpiece hnotUp target hview =>
    have hnext := hdown here piece hhere (List.mem_singleton_self _)
    exact ⟨by simpa using hnext, fun stop hstop => by cases hstop⟩
  | case8 here piece rest hpiece hnotUp target hview links ih =>
    have hnext := hdown here piece hhere (List.mem_cons_self ..)
    -- a link goes on from the root, or from the directory that it is in
    have hstart : P (if Path.isAbsolute target then [] else here) := by
      split_ifs
      · exact hroot
      · exact hhere
    simp only [dite_eq_ite] at ih
    obtain ⟨hasked, hstop⟩ := ih (fun p name hp hmem =>
      hdown p name hp (List.mem_cons_of_mem _ hmem)) hstart
    exact ⟨List.forall_mem_cons.mpr ⟨hnext, hasked⟩, hstop⟩

end View

/-! ## Paths -/

namespace FileSystem

open Gleaner.Path (IsName)

variable {fs : FileSystem} {path name : Text} {place : List Text}

/-- The route of a path. -/
def route (fs : FileSystem) (path : Text) : Route :=
  if path.isEmpty then ⟨[], .error .missing⟩
  else fs.view.route maxLinks [] (Path.pieces (Path.append fs.cwd path))

/-- **A path is followed along its route.** -/
theorem locate_eq_route (fs : FileSystem) (path : Text) :
    fs.locate true path = (fs.route path).stop.map (Stop.toPlace fs.tree) := by
  unfold locate route
  split_ifs
  · rfl
  · exact locateFrom_eq_route .nil

/-- What is at a path is what is where its route stops. -/
theorem entry_eq (fs : FileSystem) (path : Text) :
    fs.entry path =
      match (fs.route path).stop with
      | .error cause => .error cause
      | .ok stop =>
        match fs.tree.at? stop.place with
        | none => .error .missing
        | some entry => if stop.slashed then .error .notDirectory else .ok entry := by
  unfold entry
  rw [locate_eq_route]
  cases (fs.route path).stop with
  | error cause => rfl
  | ok stop => rfl

/-- **A path leads to a directory at a place.** -/
structure Reaches (fs : FileSystem) (path : Text) (place : List Text) : Prop where
  stop : (fs.route path).stop = .ok ⟨place, false⟩
  directory : fs.view place = some .directory

theorem reaches_of_entry {entries : Entries} (h : fs.entry path = .ok (.directory entries)) :
    ∃ place, fs.Reaches path place ∧ fs.tree.at? place = some (.directory entries) := by
  rw [entry_eq] at h
  cases hstop : (fs.route path).stop with
  | error cause => simp [hstop] at h
  | ok stop =>
    cases hat : fs.tree.at? stop.place with
    | none => simp [hstop, hat] at h
    | some entry =>
      simp only [hstop, hat] at h
      split_ifs at h with hslashed
      cases h
      refine ⟨stop.place, ⟨?_, view_eq_directory_iff.mpr ⟨entries, hat⟩⟩, hat⟩
      rw [hstop, ← Bool.eq_false_iff.mpr hslashed]

/-- **One name after a path that leads to a directory**: it is asked for in the directory, after all
that the path asks for. -/
theorem Reaches.route_append (h : fs.Reaches path place) (hname : IsName name) :
    ∃ left ≤ maxLinks, fs.route (Path.append path name) =
      (fs.view.route left place [name]).after (fs.route path).asked := by
  have hpath : path.isEmpty = false := by
    rw [Bool.eq_false_iff]
    intro hempty
    have hstop := h.stop
    rw [route, if_pos hempty] at hstop
    cases hstop
  obtain ⟨base, hpieces, hbase⟩ := Path.pieces_append (Path.append fs.cwd path) hname
  -- the pieces of the path are those before the name, and perhaps an empty one
  obtain ⟨tail, htail, hall⟩ : ∃ tail, Path.pieces (Path.append fs.cwd path) = base ++ tail ∧
      ∀ piece ∈ tail, piece = "" := by
    rcases hbase with hbase | hbase
    · exact ⟨[], by rw [hbase, List.append_nil], by simp⟩
    · exact ⟨[""], hbase, by simp⟩
  have hroute : fs.route path = fs.view.route maxLinks [] (base ++ tail) := by
    rw [route, hpath, if_neg Bool.false_ne_true, htail]
  have hstop := h.stop
  rw [hroute] at hstop
  obtain ⟨left, hleft, hmore⟩ := View.route_append hall hstop h.directory
  refine ⟨left, hleft, ?_⟩
  rw [route, Path.isEmpty_append path hname, if_neg Bool.false_ne_true, Path.append_append hname,
    hpieces, hmore, hroute]

/-- A directory in a directory that a path leads to. -/
theorem Reaches.append (h : fs.Reaches path place) (hname : IsName name)
    (hview : fs.view (place ++ [name]) = some .directory) :
    fs.Reaches (Path.append path name) (place ++ [name]) := by
  obtain ⟨left, -, hroute⟩ := h.route_append hname
  refine ⟨?_, hview⟩
  rw [hroute, View.route_directory (.of_isName hname) hview, View.route_nil]
  rfl

/-- **The way to a directory below a directory** that a path leads to goes along the names, without
links. -/
theorem Reaches.below {names : List Text} (h : fs.Reaches path place)
    (hnames : ∀ n ∈ names, IsName n) (hview : fs.view (place ++ names) = some .directory) :
    fs.Reaches (Path.below path names) (place ++ names) ∧
      ∀ p ∈ (fs.route (Path.below path names)).asked,
        p ∈ (fs.route path).asked ∨ ∃ way, way ≠ [] ∧ way <+: names ∧ p = place ++ way := by
  induction names using List.reverseRecOn with
  | nil =>
    rw [Path.below_nil, List.append_nil]
    exact ⟨h, fun p hp => .inl hp⟩
  | append_singleton names name ih =>
    have hname : IsName name := hnames name (by simp)
    rw [← List.append_assoc] at hview
    obtain ⟨hreaches, hasked⟩ :=
      ih (fun n hn => hnames n (List.mem_append_left _ hn)) (view_eq_directory_of_concat hview)
    rw [Path.below_concat, ← List.append_assoc]
    refine ⟨hreaches.append hname hview, fun p hp => ?_⟩
    obtain ⟨left, -, hroute⟩ := hreaches.route_append hname
    rw [hroute, View.route_directory (.of_isName hname) hview, View.route_nil] at hp
    rcases List.mem_append.mp hp with hp | hp
    · rcases hasked p hp with hp | ⟨way, hne, hway, rfl⟩
      · exact .inl hp
      · exact .inr ⟨way, hne, hway.trans (List.prefix_append _ _), rfl⟩
    · obtain rfl : p = place ++ names ++ [name] := List.mem_singleton.mp hp
      exact .inr ⟨names ++ [name], by simp, List.prefix_rfl, List.append_assoc ..⟩

/-- The bytes of the file that a path leads to. -/
def fileAt? (fs : FileSystem) (path : Text) : Option Bytes :=
  match (fs.route path).stop with
  | .ok ⟨place, false⟩ => fs.bytesAt? place
  | _ => none

theorem entry_of_fileAt?_eq_some {bytes : Bytes} (h : fs.fileAt? path = some bytes) :
    fs.entry path = .ok (.file bytes) := by
  unfold fileAt? at h
  split at h
  · next place hstop =>
    obtain ⟨entry, hat, hbytes⟩ := Option.bind_eq_some_iff.mp h
    simp only [entry_eq, hstop, hat]
    cases entry with
    | file _ =>
      cases hbytes
      rfl
    | directory _ => cases hbytes
    | link _ => cases hbytes
  · cases h

theorem isFile_of_fileAt?_eq_none (h : fs.fileAt? path = none) : fs.isFile path = false := by
  unfold fileAt? at h
  unfold isFile
  rw [entry_eq]
  rcases hstop : (fs.route path).stop with cause | ⟨place, slashed⟩
  · rfl
  · rw [hstop] at h
    cases hat : fs.tree.at? place with
    | none => simp [hat]
    | some entry =>
      cases slashed with
      | true => simp [hat]
      | false =>
        simp only [bytesAt?, hat] at h ⊢
        cases entry with
        | file _ => cases h
        | directory _ => rfl
        | link _ => rfl

theorem isFile_eq (fs : FileSystem) (path : Text) : fs.isFile path = (fs.fileAt? path).isSome := by
  cases h : fs.fileAt? path with
  | none => rw [isFile_of_fileAt?_eq_none h, Option.isSome_none]
  | some bytes =>
    rw [isFile, entry_of_fileAt?_eq_some h]
    rfl

/-- A path is that of a file if a file is where it leads. -/
theorem isFile_iff {fs : FileSystem} {path : Text} :
    fs.isFile path = true ↔
      ∃ place, (fs.route path).stop = .ok ⟨place, false⟩ ∧ fs.view place = some .file := by
  rw [isFile_eq, fileAt?]
  rcases (fs.route path).stop with cause | ⟨place, _ | _⟩
  · simp
  · simp [isSome_bytesAt?_iff]
  · simp

/-- Two file systems have the same file at a path if it leads to the same place in both, and the same
bytes are there. -/
theorem fileAt?_congr {fs fs' : FileSystem} {path : Text}
    (hstop : (fs'.route path).stop.toOption = (fs.route path).stop.toOption)
    (hbytes : ∀ place, (fs.route path).stop = .ok ⟨place, false⟩ →
      fs.bytesAt? place = fs'.bytesAt? place) :
    fs.fileAt? path = fs'.fileAt? path := by
  unfold fileAt?
  rcases hroute : (fs.route path).stop with cause | ⟨place, slashed⟩
  · rcases hroute' : (fs'.route path).stop with cause' | stop'
    · rfl
    · rw [hroute, hroute'] at hstop
      cases hstop
  · rcases hroute' : (fs'.route path).stop with cause' | stop'
    · rw [hroute, hroute'] at hstop
      cases hstop
    · rw [hroute, hroute'] at hstop
      cases hstop
      cases slashed with
      | true => rfl
      | false => exact hbytes place hroute

/-- A name that a directory does not have, or that one of its directories has, leads to no file. -/
theorem Reaches.fileAt?_append_eq_none (h : fs.Reaches path place) (hname : IsName name)
    (hview : fs.view (place ++ [name]) = none ∨ fs.view (place ++ [name]) = some .directory) :
    fs.fileAt? (Path.append path name) = none := by
  obtain ⟨left, -, hroute⟩ := h.route_append hname
  have hbytes : fs.bytesAt? (place ++ [name]) = none := by
    rw [← Option.not_isSome_iff_eq_none, isSome_bytesAt?_iff]
    rcases hview with hview | hview <;> rw [hview] <;> simp
  rw [fileAt?, hroute]
  rcases hview with hview | hview
  · rw [View.route_none (.of_isName hname) hview]
    exact hbytes
  · rw [View.route_directory (.of_isName hname) hview, View.route_nil]
    exact hbytes

/-- The name of a file in a directory leads to that file. -/
theorem Reaches.fileAt?_append_of_file (h : fs.Reaches path place) (hname : IsName name)
    (hview : fs.view (place ++ [name]) = some .file) :
    fs.fileAt? (Path.append path name) = fs.bytesAt? (place ++ [name]) := by
  obtain ⟨left, -, hroute⟩ := h.route_append hname
  rw [fileAt?, hroute, View.route_file (.of_isName hname) hview]
  rfl

end FileSystem

end Gleaner
