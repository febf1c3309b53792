import Gleaner.Proofs.Java.Preorder

/-!
# Where elements stem from

Each element of a file stems from the declaration at one place of its tree, and what a declaration gives depends on
nothing but the file, the tree and its place: not on which other declarations are wanted. So an extraction that
leaves constructors out does what one that takes them does, less the elements of the constructors. It cannot fail
where the other one ends, since it walks the same tree and reads less of it. What stands inside a constructor is
found by either.

## Main definitions

* `StemsFrom`: the declaration at a place gives an element
* `constructorAt`: a constructor stands at a place

## Main results

* `forall₂_stemsFrom`: the elements of a file by the places of its declarations
* `declarationsBelow_false`: the places that are left without constructors
* `exists_elements_false`: without constructors an extraction ends where it does with them
* `extractMethods_without_constructors`: taking constructors only adds their elements
-/

namespace Gleaner.Java

open Gleaner.Syntax
open Gleaner.Text (splitLines)

variable {file : SourceFile} {constructors : Bool} {root : Node} {place : List ℕ} {es : List Element}
  {e e' : Element}

section Lists

variable {α β : Type} {R : α → β → Prop} {as : List α} {bs : List β}

/-- Each item on the left is related to one on the right. -/
theorem exists_right_of_forall₂ (h : List.Forall₂ R as bs) {a : α} (ha : a ∈ as) : ∃ b ∈ bs, R a b := by
  induction h with
  | nil => cases ha
  | cons hab _ ih =>
    rcases List.mem_cons.mp ha with rfl | ha
    · exact ⟨_, List.mem_cons_self, hab⟩
    · obtain ⟨b, hb, hrel⟩ := ih ha
      exact ⟨b, List.mem_cons_of_mem _ hb, hrel⟩

/-- Items on the right that are kept for what stands on the left. -/
theorem forall₂_filter_zip (h : List.Forall₂ R as bs) (p : α → Bool) :
    List.Forall₂ R (as.filter p) (((as.zip bs).filter fun pair => p pair.1).map (·.2)) := by
  induction h with
  | nil => exact List.Forall₂.nil
  | @cons a b as bs hab _ ih =>
    rw [List.zip_cons_cons, List.filter_cons, List.filter_cons]
    dsimp only
    split_ifs
    · exact List.Forall₂.cons hab ih
    · exact ih

end Lists

/-! ## Elements and places -/

/-- The declaration at a place gives an element, in a file that can be read. -/
def StemsFrom (file : SourceFile) (root : Node) (place : List ℕ) (e : Element) : Prop :=
  ∃ text package s, Utf8.decode file.bytes = .ok text ∧ packageName? file.bytes root = .ok package ∧
    siteAt? [] root place = some s ∧
    siteElement file (splitLines text) package s = .ok (.element e)

/-- What stems from a place is determined by it. -/
theorem StemsFrom.eq (h : StemsFrom file root place e) (h' : StemsFrom file root place e') : e = e' := by
  obtain ⟨text, package, s, hdecode, hpackage, hs, he⟩ := h
  obtain ⟨text', package', s', hdecode', hpackage', hs', he'⟩ := h'
  obtain rfl := Except.ok.inj (hdecode.symm.trans hdecode')
  obtain rfl := Except.ok.inj (hpackage.symm.trans hpackage')
  obtain rfl := Option.some.inj (hs.symm.trans hs')
  exact Finding.element.inj (Except.ok.inj (he.symm.trans he'))

/-- A site is at the place where its declaration is. -/
theorem down?_of_siteAt? {ancestors : List Node} {s : Site}
    (h : siteAt? ancestors root place = some s) : root.down? place = some s.node := by
  have hne : place ≠ [] := by
    rintro rfl
    cases h
  rw [← map_node_siteAt? ancestors root hne, h, Option.map_some]

/-- An element is put together from the parts of the declaration that it stems from. -/
theorem StemsFrom.exists_parts (h : StemsFrom file root place e) :
    ∃ s lines package name signature javadoc enclosingType, siteAt? [] root place = some s ∧
      s.Parts file name signature javadoc enclosingType ∧
      e = s.elementOf file lines package name signature javadoc enclosingType := by
  obtain ⟨text, package, s, -, -, hs, he⟩ := h
  obtain ⟨name, signature, javadoc, enclosingType, hparts, he, -⟩ := siteElement_eq_element_iff.mp he
  exact ⟨s, splitLines text, package, name, signature, javadoc, enclosingType, hs, hparts, he⟩

/-- **The elements of a file by the places of its declarations**, one for each. -/
theorem forall₂_stemsFrom (h : (extractMethods file root constructors).elements = .ok es) :
    List.Forall₂ (StemsFrom file root) (declarationsBelow constructors root) es := by
  obtain ⟨text, package, hdecode, hpackage, hfailure, rfl⟩ := extractMethods_elements_eq_ok h
  have hdeep : Visit.tooDeep ∉ visits constructors maxLevels [] root :=
    fun hmem => gather_failure_of_tooDeep hmem hfailure
  rw [visits_eq_map_sites hdeep] at hfailure ⊢
  refine (forall₂_comp forall₂_siteAt?_declarationsBelow
    (forall₂_elements (gather_forall₂ hfailure))).imp ?_
  rintro place e ⟨s, hs, he⟩
  exact ⟨text, package, s, hdecode, hpackage, hs, he⟩

/-! ## Constructors -/

/-- Whether a constructor stands at a place. -/
def constructorAt (root : Node) (place : List ℕ) : Bool :=
  (root.down? place).any (isConstructorKind ·.kind)

theorem isWanted_false_eq (kind : String) :
    isWanted false kind = (isWanted true kind && !isConstructorKind kind) := by
  by_cases hmethod : kind = "method_declaration"
  · subst hmethod
    decide
  · have hkind : isMethodKind kind = false := beq_eq_false_iff_ne.mpr hmethod
    cases hconstructor : isConstructorKind kind <;> simp [isWanted, hkind, hconstructor]

/-- **The places that are left** without constructors are those where none stands. -/
theorem declarationsBelow_false (root : Node) :
    declarationsBelow false root =
      (declarationsBelow true root).filter fun place => !constructorAt root place := by
  rw [declarationsBelow, declarationsBelow, List.filter_filter]
  refine List.filter_congr fun place _ => ?_
  unfold declaresAt constructorAt
  cases root.down? place with
  | none => rfl
  | some n =>
    rw [Option.any_some, Option.any_some, Option.any_some, isWanted_false_eq, Bool.and_right_comm,
      Bool.and_comm]

/-- A declaration is wanted with constructors if it is without them. -/
theorem isWanted_true_of_false {kind : String} (h : isWanted false kind = true) :
    isWanted true kind = true := by
  rw [isWanted_false_eq, Bool.and_eq_true] at h
  exact h.1

/-- **Without constructors an extraction ends** where it does with them: it goes as deep and reads less. -/
theorem exists_elements_false (h : (extractMethods file root true).elements = .ok es) :
    ∃ es', (extractMethods file root false).elements = .ok es' := by
  obtain ⟨text, package, hdecode, hpackage, hfailure, -⟩ := extractMethods_elements_eq_ok h
  have hdeep : Visit.tooDeep ∉ visits true maxLevels [] root :=
    fun hmem => gather_failure_of_tooDeep hmem hfailure
  have hdeep' : Visit.tooDeep ∉ visits false maxLevels [] root := by
    rwa [tooDeep_mem_visits_iff] at hdeep ⊢
  have hsites : ∀ s, .site s ∈ visits false maxLevels [] root →
      ∃ finding, siteElement file (splitLines text) package s = .ok finding := by
    intro s hs
    rw [visits_eq_map_sites hdeep] at hfailure
    rw [visits_eq_map_sites hdeep', List.mem_map_of_injective fun _ _ => Visit.site.inj] at hs
    -- with constructors the walk has stopped here too, and read all that there is to read
    obtain ⟨hbelow, hwanted⟩ := List.mem_filter.mp hs
    obtain ⟨finding, -, hfinding⟩ := exists_right_of_forall₂ (gather_forall₂ hfailure)
      (List.mem_filter.mpr ⟨hbelow, isWanted_true_of_false hwanted⟩)
    exact ⟨finding, hfinding⟩
  rcases gather_failure_of_exists hsites with ⟨hmem, -⟩ | ⟨-, hnone⟩
  · exact absurd hmem hdeep'
  · refine ⟨(extractMethods file root false).findings.filterMap Finding.element?, ?_⟩
    rw [extractMethods, hdecode, hpackage]
    rw [Harvest.elements, hnone]

/-- **Taking constructors only adds their elements.** Where an extraction with constructors comes to an end, its
elements stem from the declarations one by one; and without constructors it comes to an end as well and gives the
same elements in the same order, less those that stem from a constructor. A method with a name gives the same element
in both, whatever it stands in. -/
theorem extractMethods_without_constructors (h : (extractMethods file root true).elements = .ok es) :
    List.Forall₂ (StemsFrom file root) (declarationsBelow true root) es ∧
    ∃ es', (extractMethods file root false).elements = .ok es' ∧
      es' = (((declarationsBelow true root).zip es).filter
        fun found => !constructorAt root found.1).map (·.2) ∧
      ∀ place n, place ≠ [] → root.down? place = some n → n.kind = "method_declaration" →
        (n.childByRole? "name").isSome → ∃ e, StemsFrom file root place e ∧ e ∈ es ∧ e ∈ es' := by
  obtain ⟨es', h'⟩ := exists_elements_false h
  have hstems := forall₂_stemsFrom h
  have hstems' := forall₂_stemsFrom h'
  have hleft : es' = (((declarationsBelow true root).zip es).filter
      fun found => !constructorAt root found.1).map (·.2) := by
    -- both lists follow the same places, and a place determines its element
    have hunique : Relator.RightUnique (StemsFrom file root) := fun _ _ _ => StemsFrom.eq
    rw [declarationsBelow_false] at hstems'
    exact List.right_unique_forall₂' hunique hstems'
      (forall₂_filter_zip hstems fun place => !constructorAt root place)
  refine ⟨hstems, es', h', hleft, fun place n hne hdown hkind hname => ?_⟩
  have hplace : place ∈ declarationsBelow false root :=
    mem_declarationsBelow_iff.mpr ⟨hne, n, hdown, .inl hkind, hname⟩
  obtain ⟨e, he, hstem⟩ := exists_right_of_forall₂ hstems' hplace
  refine ⟨e, hstem, ?_, he⟩
  rw [hleft] at he
  obtain ⟨⟨_, _⟩, hfound, rfl⟩ := List.mem_map.mp he
  exact (List.of_mem_zip (List.mem_filter.mp hfound).1).2

/-- A constructor `a` with a class inside that has a method `b`, and behind it a method `c` with a comment. -/
def constructorTree : Node :=
  let name (start stop : ℕ) : Node := .node ⟨"identifier", start, stop, true, false, false, some "name"⟩ []
  .node ⟨"program", 0, 17, true, false, false, none⟩
    [.node ⟨"constructor_declaration", 0, 5, true, false, false, none⟩
      [name 0 1,
        .node ⟨"class_body", 2, 5, true, false, false, none⟩
          [.node ⟨"method_declaration", 3, 4, true, false, false, none⟩ [name 3 4]]],
      .node ⟨"block_comment", 6, 14, true, false, false, none⟩ [],
      .node ⟨"method_declaration", 15, 16, true, false, false, none⟩ [name 15 16]]

/-- The file of that tree. -/
def constructorFile : SourceFile := ⟨Utf8.encode "a {b} /** d */ c\n", "A.java", "A.java"⟩

/-- Without the constructor, the method inside it and the one behind it are left as they were. -/
theorem extractMethods_without_constructors_of_nested :
    ∃ es, (extractMethods constructorFile constructorTree true).elements = .ok es ∧
      es.map (fun e => (e.name, e.documentation)) = [("a", none), ("b", none), ("c", some "d")] ∧
      ∃ es', (extractMethods constructorFile constructorTree false).elements = .ok es' ∧
        es' = es.drop 1 ∧
        ∃ e, StemsFrom constructorFile constructorTree [0, 1, 0] e ∧ e ∈ es ∧ e ∈ es' := by
  have hnames : (extractMethods constructorFile constructorTree true).elements.toOption.map
      (·.map fun e => (e.name, e.documentation)) =
      some [("a", none), ("b", none), ("c", some "d")] := by decide +kernel
  have hplaces : declarationsBelow true constructorTree = [[0], [0, 1, 0], [2]] := by decide +kernel
  have hconstructor : constructorAt constructorTree [0] = true ∧
      constructorAt constructorTree [0, 1, 0] = false ∧
      constructorAt constructorTree [2] = false := by decide +kernel
  obtain ⟨es, hes, hnames⟩ := exists_ok_of_map_toOption hnames
  obtain ⟨hstems, es', hes', hleft, hmethods⟩ := extractMethods_without_constructors hes
  obtain ⟨a, b, c, rfl⟩ := List.length_eq_three.mp (by rw [← hstems.length_eq, hplaces]; rfl)
  refine ⟨_, hes, hnames, es', hes', ?_, hmethods [0, 1, 0] _ (by decide) rfl rfl rfl⟩
  rw [hleft, hplaces]
  simp [hconstructor]

end Gleaner.Java
