import Mathlib.Data.List.Infix
import Gleaner.Path

/-!
# Paths below a directory

A walk names what it meets by appending one name after the other to the path of its root. For names
that a directory can really have, nothing is lost on the way: the names come back as the path seen
from the root, so that different names give different paths.

The test for excluded segments is made on the path with slashes turned one way and one slash in front.
That form grows at its end only, whatever the path is. A segment that is found in the path of a
directory is therefore found in the path of everything below it.

## Main definitions

* `IsName`: a text that can be the name of a directory entry
* `below`: the path that names lead to

## Main results

* `relative_below`: seen from the root, a path below it is its names
* `below_injective`: names are determined by the path
* `isExcluded_below`: what excludes a directory excludes all that is below it
* `append_join`, `baseName_join`: names with slashes between, as a path
-/

namespace Gleaner.Path

variable {cwd root path name : Text} {names : List Text}

/-! ## Names -/

/-- A name that an entry of a directory can have: not empty, without a slash, and none of the two
names that stand for a directory itself and for the one above. -/
def IsName (name : Text) : Prop :=
  name ≠ "" ∧ name ≠ "." ∧ name ≠ ".." ∧ .char '/' ∉ name.toList

instance (name : Text) : Decidable (IsName name) :=
  inferInstanceAs (Decidable (_ ∧ _))

theorem IsName.isAbsolute_eq_false (h : IsName name) : isAbsolute name = false := by
  rw [isAbsolute, ← Bool.not_eq_true, List.isPrefixOf_iff_prefix]
  intro hslash
  exact h.2.2.2 (hslash.subset (List.mem_singleton_self _))

theorem IsName.pushComponent_eq (h : IsName name) (rooted : Bool) (stack : List Text) :
    pushComponent rooted stack name = name :: stack := by
  simp [pushComponent, h.1, h.2.1, h.2.2.1]

/-! ## Appending a name -/

/-- A path made ready to be continued: a slash at its end, unless it is empty or has one. -/
def stem (path : Text) : Text :=
  if path.isEmpty || [CodePoint.char '/'].isSuffixOf path.toList then path else path ++ "/"

theorem append_of_isAbsolute (h : isAbsolute name = true) : append path name = name := by
  rw [append, if_pos h]

theorem append_of_isAbsolute_eq_false (h : isAbsolute name = false) :
    append path name = stem path ++ name := by
  unfold append stem
  rw [h, if_neg Bool.false_ne_true]
  split_ifs <;> rfl

theorem isEmpty_append (path : Text) (h : IsName name) : (append path name).isEmpty = false := by
  rw [append_of_isAbsolute_eq_false h.isAbsolute_eq_false, Bool.eq_false_iff, Ne, Text.isEmpty_iff]
  intro hempty
  exact h.1 (Text.append_eq_empty_iff.mp hempty).2

theorem stem_of_isEmpty_or_slash (h : path = "" ∨ [CodePoint.char '/'] <:+ path.toList) :
    stem path = path := by
  rw [stem, if_pos]
  rcases h with rfl | h
  · rfl
  · rw [List.isSuffixOf_iff_suffix.mpr h, Bool.or_true]

theorem stem_of_no_slash (hne : path ≠ "") (h : ¬ [CodePoint.char '/'] <:+ path.toList) :
    stem path = path ++ "/" := by
  rw [stem, if_neg]
  rw [Bool.or_eq_true, Text.isEmpty_iff, List.isSuffixOf_iff_suffix]
  rintro (hempty | hslash)
  · exact hne hempty
  · exact h hslash

/-- A stem is empty or ends in a slash. -/
theorem stem_eq_empty_or_slash (path : Text) :
    stem path = "" ∨ [CodePoint.char '/'] <:+ (stem path).toList := by
  by_cases hempty : path = ""
  · exact .inl (by rw [stem_of_isEmpty_or_slash (.inl hempty), hempty])
  · by_cases hslash : [CodePoint.char '/'] <:+ path.toList
    · exact .inr (by rwa [stem_of_isEmpty_or_slash (.inr hslash)])
    · refine .inr ⟨path.toList, ?_⟩
      rw [stem_of_no_slash hempty hslash, Text.toList_append]
      rfl

/-- Stems go together like paths. -/
theorem stem_append (path next : Text) : stem (stem path ++ next) = stem path ++ stem next := by
  by_cases hempty : next = ""
  · subst hempty
    rw [Text.append_empty, stem_of_isEmpty_or_slash (stem_eq_empty_or_slash path),
      show stem "" = "" from rfl, Text.append_empty]
  · by_cases hslash : [CodePoint.char '/'] <:+ next.toList
    · rw [stem_of_isEmpty_or_slash (.inr hslash), stem_of_isEmpty_or_slash]
      rw [Text.toList_append]
      exact .inr (hslash.trans (List.suffix_append _ _))
    · have hne : next.toList ≠ [] := fun hnil => hempty (Text.toList_eq_nil_iff.mp hnil)
      rw [stem_of_no_slash hempty hslash, stem_of_no_slash, Text.append_assoc]
      · intro hall
        exact hempty (Text.append_eq_empty_iff.mp hall).2
      · rw [Text.toList_append]
        intro hlast
        -- the last character of the whole is the last one of its second part
        exact hslash (List.suffix_of_suffix_length_le hlast (List.suffix_append _ _)
          (List.length_pos_iff.mpr hne))

theorem prefix_stem (path : Text) : path.toList <+: (stem path).toList := by
  unfold stem
  split_ifs
  · exact List.prefix_rfl
  · rw [Text.toList_append]
    exact List.prefix_append _ _

theorem isAbsolute_append (h : IsName name) : isAbsolute (append path name) = isAbsolute path := by
  rw [append_of_isAbsolute_eq_false h.isAbsolute_eq_false]
  by_cases hempty : path = ""
  · subst hempty
    exact h.isAbsolute_eq_false
  · obtain ⟨c, rest, hpath⟩ := List.exists_cons_of_ne_nil
      (fun hnil => hempty (Text.toList_eq_nil_iff.mp hnil) : path.toList ≠ [])
    obtain ⟨tail, htail⟩ := prefix_stem path
    rw [isAbsolute, isAbsolute, Text.toList_append, ← htail, hpath]
    rfl

/-- Appending one path after the other does not depend on where one starts. -/
theorem append_append (h : IsName name) :
    append cwd (append path name) = append (append cwd path) name := by
  have hrelative := h.isAbsolute_eq_false
  by_cases hpath : isAbsolute path = true
  · have hwhole : isAbsolute (append path name) = true := by rw [isAbsolute_append h, hpath]
    rw [append_of_isAbsolute hwhole, append_of_isAbsolute hpath]
  · have hpath' : isAbsolute path = false := Bool.eq_false_iff.mpr hpath
    have hwhole : isAbsolute (append path name) = false := by rw [isAbsolute_append h, hpath']
    rw [append_of_isAbsolute_eq_false hwhole, append_of_isAbsolute_eq_false hrelative,
      append_of_isAbsolute_eq_false hrelative, append_of_isAbsolute_eq_false hpath', stem_append,
      Text.append_assoc]

/-- The pieces of a path with a name after it: those of the path, where an empty last one gives way,
and then the name. -/
theorem pieces_append (path : Text) (h : IsName name) :
    ∃ base, pieces (append path name) = base ++ [name] ∧
      (pieces path = base ∨ pieces path = base ++ [("" : Text)]) := by
  have hname : name.toList.splitOn (.char '/') = [name.toList] := List.splitOn_eq_singleton h.2.2.2
  have hback : [name.toList].map Text.ofList = [name] := by simp
  rw [append_of_isAbsolute_eq_false h.isAbsolute_eq_false]
  by_cases hempty : path = ""
  · subst hempty
    refine ⟨[], ?_, .inr rfl⟩
    rw [show stem "" = "" from rfl, Text.empty_append, pieces, hname, hback, List.nil_append]
  · by_cases hslash : [CodePoint.char '/'] <:+ path.toList
    · obtain ⟨init, hinit⟩ := hslash
      refine ⟨(init.splitOn (.char '/')).map Text.ofList, ?_, .inr ?_⟩
      · rw [stem_of_isEmpty_or_slash (.inr ⟨init, hinit⟩), pieces, Text.toList_append, ← hinit,
          List.append_assoc, List.singleton_append, List.splitOn_append_cons_self, hname,
          List.map_append, hback]
      · rw [pieces, ← hinit, List.splitOn_append_cons_self, List.map_append]
        rfl
    · refine ⟨pieces path, ?_, .inl rfl⟩
      rw [stem_of_no_slash hempty hslash, pieces, Text.toList_append, Text.toList_append,
        show Text.toList "/" = [CodePoint.char '/'] from rfl, List.append_assoc, List.singleton_append,
        List.splitOn_append_cons_self, hname, List.map_append, hback, pieces]

/-- A name after a path is one component more. -/
theorem components_append (h : IsName name) :
    components (append path name) = components path ++ [name] := by
  obtain ⟨base, happend, hpath⟩ := pieces_append path h
  have hbase : (pieces path).foldl (pushComponent (isAbsolute path)) [] =
      base.foldl (pushComponent (isAbsolute path)) [] := by
    rcases hpath with hpath | hpath
    · rw [hpath]
    · rw [hpath, List.foldl_append]
      rfl
  rw [components, isAbsolute_append h, happend, List.foldl_append, ← hbase, List.foldl_cons,
    List.foldl_nil, h.pushComponent_eq, List.reverse_cons, components]

/-! ## Below a directory -/

/-- The path that names lead to from a directory, one after the other. -/
def below (root : Text) (names : List Text) : Text :=
  names.foldl append root

@[simp] theorem below_nil (root : Text) : below root [] = root := rfl

theorem below_append (root : Text) (names more : List Text) :
    below root (names ++ more) = below (below root names) more :=
  List.foldl_append

theorem below_concat (root name : Text) (names : List Text) :
    below root (names ++ [name]) = append (below root names) name :=
  below_append root names [name]

/-- The components of a path below a directory. -/
theorem components_below (cwd root : Text) (h : ∀ name ∈ names, IsName name) :
    components (append cwd (below root names)) = components (append cwd root) ++ names := by
  induction names using List.reverseRecOn with
  | nil => rw [below_nil, List.append_nil]
  | append_singleton names name ih =>
    have hname : IsName name := h name (by simp)
    have hnames : ∀ n ∈ names, IsName n := fun n hn => h n (List.mem_append_left _ hn)
    rw [below_concat, append_append hname, components_append hname, ih hnames, List.append_assoc]

theorem commonLength_append (start more : List Text) :
    commonLength start (start ++ more) = start.length := by
  induction start with
  | nil => cases more <;> rfl
  | cons a start ih => rw [List.cons_append, commonLength, if_pos rfl, ih, List.length_cons]

/-- **Seen from the root, a path below it is its names.** -/
theorem relative_below (cwd root : Text) (h : ∀ name ∈ names, IsName name) (hne : names ≠ []) :
    relative cwd root (below root names) = join names := by
  have hsteps : steps (components (append cwd root)) (components (append cwd (below root names))) =
      names := by
    rw [components_below cwd root h, steps, commonLength_append, Nat.sub_self, List.replicate_zero,
      List.nil_append, List.drop_left]
  rw [relative, hsteps]
  cases names with
  | nil => exact absurd rfl hne
  | cons name names => rfl

/-- **Names are determined by the path they lead to.** -/
theorem below_injective {more : List Text} (h : ∀ name ∈ names, IsName name)
    (hmore : ∀ name ∈ more, IsName name) (heq : below root names = below root more) :
    names = more := by
  have hcomponents := components_below "" root h
  rw [heq, components_below "" root hmore] at hcomponents
  exact (List.append_cancel_left hcomponents).symm

/-! ## Exclusion -/

theorem occurs_iff_isInfix {part text : List CodePoint} : occurs part text = true ↔ part <:+: text := by
  induction text with
  | nil => rw [occurs, List.isEmpty_iff, List.infix_nil]
  | cons c text ih =>
    rw [occurs, Bool.or_eq_true, ih, List.isPrefixOf_iff_prefix, List.infix_cons_iff]

/-- The wrapped form of a path grows at its end only. -/
theorem wrap_isPrefix (path next : Text) : wrap path <+: wrap (path ++ next) := by
  rw [wrap, wrap, Text.toList_append, List.map_append, List.prefix_cons_inj, List.dropWhile_append]
  split_ifs with hslashes
  · rw [List.isEmpty_iff.mp hslashes]
    exact List.nil_prefix
  · exact List.prefix_append _ _

/-- What is excluded stays excluded when the path goes on. -/
theorem isExcluded_append {segments : List Text} (next : Text)
    (h : isExcluded segments path = true) : isExcluded segments (path ++ next) = true := by
  rw [isExcluded, List.any_eq_true] at h ⊢
  obtain ⟨segment, hmem, hoccurs⟩ := h
  refine ⟨segment, hmem, ?_⟩
  rw [occurs_iff_isInfix] at hoccurs ⊢
  exact hoccurs.trans (wrap_isPrefix path next).isInfix

theorem join_append {names more : List Text} (hne : names ≠ []) (hmore : more ≠ []) :
    join (names ++ more) = join names ++ "/" ++ join more := by
  induction names with
  | nil => exact absurd rfl hne
  | cons name names ih =>
    cases names with
    | nil =>
      cases more with
      | nil => exact absurd rfl hmore
      | cons _ _ => rfl
    | cons next names =>
      have hjoin : ∀ rest, join (name :: next :: rest) = name ++ "/" ++ join (next :: rest) :=
        fun _ => rfl
      rw [List.cons_append, List.cons_append, hjoin, ← List.cons_append, ih (List.cons_ne_nil _ _),
        hjoin]
      simp only [Text.append_assoc]

/-- **What excludes a directory excludes all that is below it.** -/
theorem isExcluded_below {segments names more : List Text} (hne : names ≠ []) (hmore : more ≠ [])
    (h : isExcluded segments (join names ++ "/") = true) :
    isExcluded segments (join (names ++ more)) = true := by
  rw [join_append hne hmore]
  exact isExcluded_append _ h

/-! ## Names with slashes between -/

/-- The last piece of a path with a name after it is the name. -/
theorem baseName_append (path : Text) (h : IsName name) : baseName (append path name) = name := by
  obtain ⟨base, hpieces, -⟩ := pieces_append path h
  rw [baseName, hpieces, List.getLastD_concat]

theorem IsName.ne_slash_suffix (h : IsName name) (start : List CodePoint) :
    ¬ [CodePoint.char '/'] <:+ start ++ name.toList := by
  intro hslash
  have hne : name.toList ≠ [] := fun hnil => h.1 (Text.toList_eq_nil_iff.mp hnil)
  -- the last character of the whole is the last one of the name
  have hname : [CodePoint.char '/'] <:+ name.toList :=
    List.suffix_of_suffix_length_le hslash (List.suffix_append _ _) (List.length_pos_iff.mpr hne)
  exact h.2.2.2 (hname.subset (List.mem_singleton_self _))

/-- Names with slashes between, and one more name, are a path with a name after it. -/
theorem join_concat (h : ∀ n ∈ names, IsName n) (hne : names ≠ []) (hname : IsName name) :
    join (names ++ [name]) = append (join names) name := by
  obtain ⟨init, last, rfl⟩ := (List.eq_nil_or_concat names).resolve_left hne
  have hlast : IsName last := h last (by simp)
  -- the names so far end in the last of them, and so not in a slash
  obtain ⟨start, hstart⟩ : ∃ start, join (init.concat last) = start ++ last := by
    cases init with
    | nil => exact ⟨"", by simp [join, Text.join]⟩
    | cons first more =>
      rw [List.concat_eq_append]
      exact ⟨_, join_append (List.cons_ne_nil _ _) (List.cons_ne_nil _ _)⟩
  have hempty : join (init.concat last) ≠ "" := by
    rw [hstart]
    intro hall
    exact hlast.1 (Text.append_eq_empty_iff.mp hall).2
  have hslash : ¬ [CodePoint.char '/'] <:+ (join (init.concat last)).toList := by
    rw [hstart, Text.toList_append]
    exact hlast.ne_slash_suffix _
  rw [append_of_isAbsolute_eq_false hname.isAbsolute_eq_false, stem_of_no_slash hempty hslash,
    join_append hne (List.cons_ne_nil _ _)]
  rfl

/-- **Names with slashes between lead where the names lead one after the other.** -/
theorem append_join (root : Text) (h : ∀ n ∈ names, IsName n) (hne : names ≠ []) :
    append root (join names) = below root names := by
  induction names using List.reverseRecOn with
  | nil => exact absurd rfl hne
  | append_singleton names name ih =>
    have hname : IsName name := h name (by simp)
    have hnames : ∀ n ∈ names, IsName n := fun n hn => h n (List.mem_append_left _ hn)
    rw [below_concat]
    by_cases hfirst : names = []
    · subst hfirst
      rfl
    · rw [join_concat hnames hfirst hname, append_append hname, ih hnames hfirst]

/-- The last piece of names with slashes between is the last name. -/
theorem baseName_join (h : ∀ n ∈ names, IsName n) (hname : IsName name) :
    baseName (join (names ++ [name])) = name := by
  by_cases hne : names = []
  · subst hne
    have hsingle : join ([] ++ [name]) = append "" name := by
      rw [append_of_isAbsolute_eq_false hname.isAbsolute_eq_false]
      exact (Text.empty_append _).symm
    rw [hsingle, baseName_append "" hname]
  · rw [join_concat h hne hname, baseName_append _ hname]

end Gleaner.Path
