import Mathlib.Data.Set.Basic
import Gleaner.Proofs.Extraction.Isolation

/-!
# Excluded directories contribute nothing

Two runs are compared whose file systems differ in excluded directories only. A walk does not enter such
a directory, and it does not ask whether it can be listed. A path that is followed could still get into
one through a link, or on the way to the root. Where this is ruled out, no run can tell the two file
systems apart: what was discovered, what the files yield and what is counted and reported is the same.

The directories in which the file systems may differ are given as a set of places. Below the root they
have to be excluded; elsewhere they may be any.

## Main definitions

* `Inside`: a place in one of a set of directories
* `FileSystem.AgreeOutside`: two file systems that differ in a set of directories
* `FileSystem.Clear`: neither the way to the root nor a link leads into these directories
* `FileSystem.RemainsOf`: what is left of a file system after things went away

## Main results

* `FileSystem.Clear.not_inside`: a walk stays outside
* `FileSystem.Clear.asked_notMem`: no path that a walk meets leads through one of the directories
* `FileSystem.AgreeOutside.fileAt?_eq`: such a path leads to the same file in both file systems
* `extractInto_ignores_excluded`: two runs that differ in excluded directories
-/

namespace Gleaner

open Gleaner.Utf8 (Bytes)
open Gleaner.Syntax (Node)
open Gleaner.Path (IsName below)

/-! ## Places inside -/

/-- A place in one of a set of directories, or that of the directory itself. -/
def Inside (hidden : Set (List Text)) (place : List Text) : Prop :=
  ∃ d ∈ hidden, d <+: place

section Inside

variable {hidden : Set (List Text)} {place : List Text}

theorem not_inside_above {above : List Text} (habove : above <+: place)
    (h : ¬ Inside hidden place) : ¬ Inside hidden above := by
  rintro ⟨d, hd, hprefix⟩
  exact h ⟨d, hd, hprefix.trans habove⟩

/-- One step further down leads inside only by the name of one of the directories. -/
theorem not_inside_concat {name : Text} (h : ¬ Inside hidden place)
    (hname : place ++ [name] ∉ hidden) : ¬ Inside hidden (place ++ [name]) := by
  rintro ⟨d, hd, hprefix⟩
  rcases List.prefix_concat_iff.mp hprefix with rfl | hprefix
  · exact hname hd
  · exact h ⟨d, hd, hprefix⟩

/-- **A route that asks for none of the directories stays outside of them.** -/
theorem View.not_inside_of_asked {view : View} {links : ℕ} {here pieces : List Text}
    (hhere : ¬ Inside hidden here) (hasked : ∀ p ∈ (view.route links here pieces).asked, p ∉ hidden) :
    (∀ p ∈ (view.route links here pieces).asked, ¬ Inside hidden p) ∧
      ∀ stop, (view.route links here pieces).stop = .ok stop → ¬ Inside hidden stop.place := by
  refine View.route_invariant (not_inside_above List.nil_prefix hhere) ?_ ?_ hhere
  · intro p hp
    exact not_inside_above (List.dropLast_prefix p) hp
  · intro p name hp hmem
    exact not_inside_concat hp (hasked _ hmem)

end Inside

/-! ## Two file systems -/

/-- **Two file systems that differ in a set of directories.** The directories may be in one and not in
the other, and what is in them may be anything. All else is the same, and so is which paths below a root
refuse to be listed or opened. -/
structure FileSystem.AgreeOutside (hidden : Set (List Text)) (root : Text) (base : List Text)
    (fs fs' : FileSystem) : Prop where
  cwd : fs.cwd = fs'.cwd
  view : ∀ place, ¬ Inside hidden place → fs.view place = fs'.view place
  bytes : ∀ place, ¬ Inside hidden place → fs.bytesAt? place = fs'.bytesAt? place
  directory : ∀ place ∈ hidden, fs.view place = none ∨ fs.view place = some .directory
  directory' : ∀ place ∈ hidden, fs'.view place = none ∨ fs'.view place = some .directory
  unlistable : ∀ names, (∀ name ∈ names, IsName name) → ¬ Inside hidden (base ++ names) →
    fs.listingCause? (below root names) = fs'.listingCause? (below root names)
  unreadable : ∀ names, (∀ name ∈ names, IsName name) → ¬ Inside hidden (base ++ names) →
    (below root names ∈ fs.unreadable ↔ below root names ∈ fs'.unreadable)

/-- **Nothing leads into a set of directories**: the root is outside of them, the way to it does not go
through one, and neither does the way of a link that is outside. -/
structure FileSystem.Clear (hidden : Set (List Text)) (root : Text) (base : List Text)
    (fs : FileSystem) : Prop where
  reaches : fs.Reaches root base
  outside : ¬ Inside hidden base
  root_way : ∀ p ∈ (fs.route root).asked, p ∉ hidden
  link_way : ∀ place name target, ¬ Inside hidden (place ++ [name]) →
    fs.view (place ++ [name]) = some (.link target) →
    ∀ p ∈ (fs.view.route maxLinks place [name]).asked, p ∉ hidden

/-- What is left of a file system after things went away. The bytes of files may have changed. -/
structure FileSystem.RemainsOf (later seen : FileSystem) : Prop where
  cwd : later.cwd = seen.cwd
  view : ∀ place, later.view place = none ∨ later.view place = seen.view place

theorem FileSystem.RemainsOf.asked_subset {seen later : FileSystem} (h : later.RemainsOf seen)
    (path : Text) : (later.route path).asked ⊆ (seen.route path).asked := by
  unfold FileSystem.route
  rw [h.cwd]
  split_ifs
  · exact List.Subset.refl _
  · exact View.asked_subset le_rfl h.view

namespace FileSystem.AgreeOutside

variable {fs fs' : FileSystem} {hidden : Set (List Text)} {root path : Text} {base : List Text}

/-- A path that leads through none of the directories has the same route in both. -/
theorem route_eq (h : AgreeOutside hidden root base fs fs') (hempty : ¬ Inside hidden [])
    (hasked : ∀ p ∈ (fs.route path).asked, p ∉ hidden) : fs'.route path = fs.route path := by
  unfold FileSystem.route at hasked ⊢
  rw [← h.cwd]
  split_ifs at hasked ⊢
  · rfl
  · refine View.route_congr fun p hp => h.view p ?_
    exact (View.not_inside_of_asked hempty hasked).1 p hp

/-- **A path that leads through none of the directories leads to the same file in both.** -/
theorem fileAt?_eq (h : AgreeOutside hidden root base fs fs') (hempty : ¬ Inside hidden [])
    (hasked : ∀ p ∈ (fs.route path).asked, p ∉ hidden) : fs.fileAt? path = fs'.fileAt? path := by
  refine fileAt?_congr (by rw [h.route_eq hempty hasked]) fun place hstop => h.bytes place ?_
  unfold FileSystem.route at hasked hstop
  split_ifs at hasked hstop
  exact (View.not_inside_of_asked hempty hasked).2 _ hstop

end FileSystem.AgreeOutside

/-! ## The walk -/

/-- Below a root, a set of directories has only such as a walk does not enter. -/
def Skips (enters : Text → Bool) (hidden : Set (List Text)) (root : Text) (base : List Text) :
    Prop :=
  ∀ names, (∀ name ∈ names, IsName name) → base ++ names ∈ hidden → enters (below root names) = false

namespace FileSystem.Clear

variable {fs : FileSystem} {hidden : Set (List Text)} {enters : Text → Bool} {root : Text}
  {base names : List Text} {name : Text}

/-- **A walk stays outside** of directories that it does not enter. -/
theorem not_inside (h : fs.Clear hidden root base) (hskips : Skips enters hidden root base)
    (hgot : fs.Entered enters root base names) : ¬ Inside hidden (base ++ names) := by
  rintro ⟨d, hd, hprefix⟩
  -- the directory is the root or above it, or the walk would have entered it
  rcases List.prefix_or_prefix_of_prefix hprefix (List.prefix_append base names) with
    habove | ⟨way, rfl⟩
  · exact h.outside ⟨d, hd, habove⟩
  · have hway : way <+: names := (List.prefix_append_right_inj base).mp hprefix
    by_cases hne : way = []
    · exact h.outside ⟨_, hd, by rw [hne, List.append_nil]⟩
    · have henters := hgot.open_way way hne hway
      rw [hskips way (fun n hn => hgot.legal n (hway.subset hn)) hd] at henters
      cases henters

/-- What a walk meets is outside, unless it is one of the directories. -/
theorem not_inside_concat (h : fs.Clear hidden root base) (hskips : Skips enters hidden root base)
    (hgot : fs.Entered enters root base names) (hplace : base ++ (names ++ [name]) ∉ hidden) :
    ¬ Inside hidden (base ++ (names ++ [name])) := by
  rw [← List.append_assoc] at hplace ⊢
  exact Gleaner.not_inside_concat (h.not_inside hskips hgot) hplace

theorem not_inside_nil (h : fs.Clear hidden root base) : ¬ Inside hidden [] :=
  not_inside_above List.nil_prefix h.outside

/-- **No path that a walk meets leads through one of the directories**, unless it is the path of one. -/
theorem asked_notMem (h : fs.Clear hidden root base) (hskips : Skips enters hidden root base)
    (hgot : fs.Entered enters root base names) (hname : IsName name)
    (hplace : base ++ (names ++ [name]) ∉ hidden) :
    ∀ p ∈ (fs.route (below root (names ++ [name]))).asked, p ∉ hidden := by
  have hout := h.not_inside_concat hskips hgot hplace
  rw [← List.append_assoc] at hplace hout
  obtain ⟨left, hleft, hroute⟩ := hgot.reaches.route_append hname
  rw [Path.below_concat, hroute]
  intro p hp
  rcases List.mem_append.mp hp with hp | hp
  · -- on the way to the directory there are only names that the walk enters
    rcases (h.reaches.below hgot.legal hgot.reaches.directory).2 p hp with hp | ⟨way, -, hway, rfl⟩
    · exact h.root_way p hp
    · intro hmem
      exact h.not_inside hskips hgot ⟨_, hmem, (List.prefix_append_right_inj base).mpr hway⟩
  · -- a link in the directory is clear, and all else asks only for its own place
    cases hview : fs.view (base ++ names ++ [name]) with
    | none =>
      rw [View.route_none (.of_isName hname) hview] at hp
      rwa [List.mem_singleton.mp hp]
    | some kind =>
      cases kind with
      | file =>
        rw [View.route_file (.of_isName hname) hview] at hp
        rwa [List.mem_singleton.mp hp]
      | directory =>
        rw [View.route_directory (.of_isName hname) hview, View.route_nil] at hp
        rwa [List.mem_singleton.mp hp]
      | link target =>
        refine h.link_way _ name target hout hview p ?_
        exact View.asked_subset hleft (fun _ => .inr rfl) hp

end FileSystem.Clear

/-! ## Two runs -/

section Runs

variable {seen₁ seen₂ later₁ later₂ : FileSystem} {parse : Bytes → Node} {settings : Settings}
  {directory : Text}

theorem takeFiles_congr {fs fs' : FileSystem} {root : Text} {paths : List Text}
    (h : ∀ path ∈ paths, visitDiscovered fs parse settings root path =
      visitDiscovered fs' parse settings root path) (ledger : Ledger) :
    takeFiles fs parse settings root ledger paths = takeFiles fs' parse settings root ledger paths := by
  induction paths generalizing ledger with
  | nil => rfl
  | cons path rest ih =>
    have hrest := ih fun p hp => h p (List.mem_cons_of_mem _ hp)
    simp only [takeFiles, h path (List.mem_cons_self ..), hrest]

/-- Two runs are the same if the same is discovered, and every file that is discovered yields the
same. -/
theorem extractInto_congr {sink : Sink} (hcwd : seen₁.cwd = seen₂.cwd)
    (hfound : discoverAt seen₁ settings (Path.absolute seen₁.cwd directory) =
      discoverAt seen₂ settings (Path.absolute seen₁.cwd directory))
    (hvisits : ∀ found, discoverAt seen₁ settings (Path.absolute seen₁.cwd directory) = .ok found →
      ∀ path ∈ found.files,
        visitDiscovered later₁ parse settings (Path.absolute seen₁.cwd directory) path =
          visitDiscovered later₂ parse settings (Path.absolute seen₁.cwd directory) path) :
    extractInto sink seen₁ later₁ parse settings directory =
      extractInto sink seen₂ later₂ parse settings directory := by
  cases hfirst : discoverAt seen₁ settings (Path.absolute seen₁.cwd directory) with
  | error cause =>
    rw [hfirst, hcwd] at hfound
    rw [extractInto_eq_error hfirst, extractInto_eq_error hfound.symm]
  | ok found =>
    have hsecond : discoverAt seen₂ settings (Path.absolute seen₂.cwd directory) = .ok found := by
      rw [← hcwd, ← hfound, hfirst]
    obtain ⟨⟨visits, ledger⟩, htaken⟩ := takeFiles_isOk later₁ parse
      (Path.absolute seen₁.cwd directory) (kindFor?_isSome_of_discoverAt hfirst)
      { sink := sink.extend (found.diagnostics seen₁.cwd (Path.absolute seen₁.cwd directory)) }
    have htaken₂ := htaken
    rw [takeFiles_congr (hvisits found hfirst), hcwd] at htaken₂
    rw [extractInto_eq_ok hfirst htaken, extractInto_eq_ok hsecond htaken₂, hcwd]

variable {hidden : Set (List Text)} {root : Text} {base : List Text}

/-- **Discovery does not look into the directories.** -/
theorem FileSystem.AgreeOutside.discoverAt_eq (hseen : seen₁.AgreeOutside hidden root base seen₂)
    (hwell₁ : seen₁.WellFormed) (hwell₂ : seen₂.WellFormed) (hclear : seen₁.Clear hidden root base)
    (hskips : Skips (settings.entersAt seen₁.cwd root) hidden root base) :
    discoverAt seen₁ settings root = discoverAt seen₂ settings root := by
  have hreaches₂ : seen₂.Reaches root base := by
    refine ⟨?_, ?_⟩
    · rw [hseen.route_eq hclear.not_inside_nil hclear.root_way]
      exact hclear.reaches.stop
    · rw [← hseen.view base hclear.outside]
      exact hclear.reaches.directory
  refine discoverAt_congr hwell₁ hwell₂ hseen.cwd hclear.reaches hreaches₂ ?_ ?_ ?_
  · intro names hgot
    exact hseen.unlistable names hgot.legal (hclear.not_inside hskips hgot)
  · intro names name hgot hgot' hname
    -- a hidden directory is met by name, but it is no file, whether it is there or not
    by_cases hplace : base ++ (names ++ [name]) ∈ hidden
    · rw [hgot.isFile_eq_false hname (hseen.directory _ hplace),
        hgot'.isFile_eq_false hname (hseen.directory' _ hplace)]
    · rw [FileSystem.isFile_eq, FileSystem.isFile_eq,
        hseen.fileAt?_eq hclear.not_inside_nil (hclear.asked_notMem hskips hgot hname hplace)]
  · intro names name hgot hname henters
    have hplace : base ++ (names ++ [name]) ∉ hidden := by
      intro hmem
      rw [hskips _ (hgot.legal_concat hname) hmem] at henters
      cases henters
    rw [hseen.view _ (hclear.not_inside_concat hskips hgot hplace)]

/-- **What is discovered yields the same**, whatever went away since. -/
theorem FileSystem.AgreeOutside.visitDiscovered_eq
    (hlater : later₁.AgreeOutside hidden root base later₂) (hremains : later₁.RemainsOf seen₁)
    (hwell : seen₁.WellFormed) (hclear : seen₁.Clear hidden root base)
    (hdirectory : ∀ place ∈ hidden, seen₁.view place = none ∨ seen₁.view place = some .directory)
    (hskips : Skips (settings.entersAt seen₁.cwd root) hidden root base)
    {found : Discovered} (hfound : discoverAt seen₁ settings root = .ok found) {path : Text}
    (hpath : path ∈ found.files) :
    visitDiscovered later₁ parse settings root path =
      visitDiscovered later₂ parse settings root path := by
  obtain ⟨entries, hentry, -, rfl⟩ := discoverAt_eq_ok_iff.mp hfound
  obtain ⟨names, name, hgot, hname, rfl, hfile⟩ :=
    exists_entered_of_mem_files hwell hclear.reaches hentry hpath
  have hplace : base ++ (names ++ [name]) ∉ hidden := by
    intro hmem
    rw [hgot.isFile_eq_false hname (hdirectory _ hmem)] at hfile
    cases hfile
  have hout := hclear.not_inside_concat hskips hgot hplace
  refine visitDiscovered_congr hlater.cwd (hlater.unreadable _ (hgot.legal_concat hname) hout) ?_
  -- by now the path may lead less far, but it leads nowhere else
  refine hlater.fileAt?_eq hclear.not_inside_nil fun p hp => ?_
  exact hclear.asked_notMem hskips hgot hname hplace p (hremains.asked_subset _ hp)

/-- **Excluded directories contribute nothing.** Two file systems differ in a set of directories, of
which those below the root are excluded; in the first, and so in the second, no link outside leads into
one. By the time the files are read, things may have gone away, and again the two differ in these
directories only. Then the two runs are the same: the elements, the counts, and the entries of the
sink. -/
theorem extractInto_ignores_excluded (sink : Sink) (parse : Bytes → Node)
    (hwell₁ : seen₁.WellFormed) (hwell₂ : seen₂.WellFormed)
    (hseen : seen₁.AgreeOutside hidden (Path.absolute seen₁.cwd directory) base seen₂)
    (hlater : later₁.AgreeOutside hidden (Path.absolute seen₁.cwd directory) base later₂)
    (hremains : later₁.RemainsOf seen₁)
    (hclear : seen₁.Clear hidden (Path.absolute seen₁.cwd directory) base)
    (hexcluded : ∀ names, (∀ name ∈ names, IsName name) → base ++ names ∈ hidden →
      Path.isExcluded settings.excludedSegments
        (Path.relative seen₁.cwd (Path.absolute seen₁.cwd directory)
          (below (Path.absolute seen₁.cwd directory) names) ++ "/") = true) :
    extractInto sink seen₁ later₁ parse settings directory =
      extractInto sink seen₂ later₂ parse settings directory := by
  have hskips : Skips (settings.entersAt seen₁.cwd (Path.absolute seen₁.cwd directory)) hidden
      (Path.absolute seen₁.cwd directory) base := by
    intro names hnames hmem
    rw [Settings.entersAt, Settings.enters, hexcluded names hnames hmem]
    rfl
  refine extractInto_congr hseen.cwd (hseen.discoverAt_eq hwell₁ hwell₂ hclear hskips) ?_
  intro found hfound path hpath
  exact hlater.visitDiscovered_eq hremains hwell₁ hclear hseen.directory hskips hfound hpath

theorem oneFile_wellFormed : oneFile.WellFormed := by
  have hinner : (Entry.directory [("a.proto", .file [])]).WellFormed :=
    .directory ⟨by decide, by decide⟩ (by simpa using .file [])
  exact .directory ⟨by decide, by decide⟩ (by simpa [oneFile] using hinner)

theorem at?_nested (first : Text) (rest : List Text) :
    nested.tree.at? (first :: rest) =
      if first = "d" then (Entry.directory twoLevels).at? rest else none :=
  FileSystem.at?_of_single rfl first rest

theorem at?_oneFile (first : Text) (rest : List Text) :
    oneFile.tree.at? (first :: rest) =
      if first = "d" then (Entry.directory [("a.proto", .file [])]).at? rest else none :=
  FileSystem.at?_of_single rfl first rest

theorem get?_twoLevels_of_ne {name : Text} (h : name ≠ "build") :
    twoLevels.get? name = Entries.get? [("a.proto", .file [])] name := by
  simp [twoLevels, Entries.get?, List.find?_cons, Ne.symm h]

/-- The two file systems differ in the excluded directory, which only the first has. -/
theorem nested_agreeOutside :
    nested.AgreeOutside {[("d" : Text), "build"]} "/d" [("d" : Text)] oneFile := by
  have hsame : ∀ place, ¬ Inside {[("d" : Text), "build"]} place →
      nested.view place = oneFile.view place ∧ nested.bytesAt? place = oneFile.bytesAt? place := by
    intro place hout
    unfold FileSystem.view FileSystem.bytesAt?
    rcases place with _ | ⟨x, _ | ⟨y, rest⟩⟩
    · exact ⟨rfl, rfl⟩
    · rw [at?_nested, at?_oneFile]
      split_ifs <;> exact ⟨rfl, rfl⟩
    · have hne : x = "d" → y ≠ "build" := by
        rintro rfl rfl
        exact hout ⟨_, rfl, List.prefix_append [("d" : Text), "build"] rest⟩
      rw [at?_nested, at?_oneFile]
      split_ifs with hx
      · rw [Entry.at?, Entry.at?, get?_twoLevels_of_ne (hne hx)]
        exact ⟨rfl, rfl⟩
      · exact ⟨rfl, rfl⟩
  refine ⟨rfl, fun place h => (hsame place h).1, fun place h => (hsame place h).2, ?_, ?_,
    fun _ _ _ => rfl, fun _ _ _ => Iff.rfl⟩
  · rintro _ rfl
    exact .inr rfl
  · rintro _ rfl
    exact .inl rfl

theorem kind_at?_ne_link (name : Text) (bytes : Bytes) (place : List Text) (target : Text) :
    ((Entry.directory [(name, .file bytes)]).at? place).map Entry.kind ≠ some (.link target) := by
  rcases place with _ | ⟨x, _ | ⟨y, rest⟩⟩
  · simp [Entry.kind]
  · by_cases hx : name = x <;> simp [Entry.at?, Entries.get?, hx, Entry.kind]
  · by_cases hx : name = x <;> simp [Entry.at?, Entries.get?, hx]

theorem nested_clear : nested.Clear {[("d" : Text), "build"]} "/d" [("d" : Text)] := by
  have hpieces : Path.pieces (Path.append "/" "/d") = [("" : Text), "d"] := by decide +kernel
  have hroute : nested.route "/d" = ⟨[[("d" : Text)]], .ok ⟨[("d" : Text)], false⟩⟩ := by
    rw [FileSystem.route, if_neg (by decide), show nested.cwd = "/" from rfl, hpieces,
      View.route_skip (by decide), View.route_directory (.of_isName (by decide)) rfl, View.route_nil]
    rfl
  refine ⟨⟨by rw [hroute], rfl⟩, ?_, ?_, ?_⟩
  · rintro ⟨_, rfl, hprefix⟩
    revert hprefix
    decide
  · rw [hroute]
    simp
  · -- there is no link in the tree
    intro place name target _ hlink
    refine absurd hlink ?_
    generalize place ++ [name] = p
    unfold FileSystem.view
    rcases p with _ | ⟨x, _ | ⟨y, rest⟩⟩
    · simp [FileSystem.tree, Entry.kind]
    · rw [at?_nested]
      split_ifs <;> simp [Entry.kind]
    · rw [at?_nested]
      split_ifs
      · by_cases hbuild : y = "build"
        · subst hbuild
          exact kind_at?_ne_link "b.proto" [] rest target
        · rw [Entry.at?, get?_twoLevels_of_ne hbuild]
          exact kind_at?_ne_link "a.proto" [] (y :: rest) target
      · simp

/-- One of the file systems has an excluded directory with a file in it, the other does not: both runs
are the same, and succeed. -/
theorem extractInto_ignores_build :
    nested.WellFormed ∧ oneFile.WellFormed ∧
    nested.AgreeOutside {[("d" : Text), "build"]} (Path.absolute nested.cwd "d") [("d" : Text)] oneFile ∧
    nested.RemainsOf nested ∧
    nested.Clear {[("d" : Text), "build"]} (Path.absolute nested.cwd "d") [("d" : Text)] ∧
    ∃ run, extractInto {} nested nested Java.parse {} "d" = .ok run ∧
      extractInto {} oneFile oneFile Java.parse {} "d" = .ok run := by
  have hroot : Path.absolute nested.cwd "d" = "/d" := by decide +kernel
  have hagree : nested.AgreeOutside {[("d" : Text), "build"]} (Path.absolute nested.cwd "d")
      [("d" : Text)] oneFile := by
    rw [hroot]
    exact nested_agreeOutside
  have hclear : nested.Clear {[("d" : Text), "build"]} (Path.absolute nested.cwd "d")
      [("d" : Text)] := by
    rw [hroot]
    exact nested_clear
  have hremains : nested.RemainsOf nested := ⟨rfl, fun _ => .inr rfl⟩
  refine ⟨nested_wellFormed, oneFile_wellFormed, hagree, hremains, hclear, ?_⟩
  have hfound : discoverAt oneFile {} (Path.absolute oneFile.cwd "d") =
      .ok ⟨[("/d/a.proto" : Text)], []⟩ := by
    rw [← hagree.cwd, hroot]
    exact discoverAt_oneFile
  obtain ⟨run, hrun, -⟩ : ∃ run, extractInto {} oneFile oneFile Java.parse {} "d" = .ok run ∧ _ :=
    extractInto_of_discoverAt hfound
  refine ⟨run, ?_, hrun⟩
  rw [← hrun]
  refine extractInto_ignores_excluded {} Java.parse nested_wellFormed oneFile_wellFormed hagree hagree
    hremains hclear ?_
  intro names _ hmem
  obtain rfl : names = [("build" : Text)] := List.append_cancel_left hmem
  decide +kernel

end Runs

end Gleaner
