import Gleaner.Proofs.Java.Site
import Gleaner.Proofs.Syntax.Place

/-!
# The methods of a file are its declarations

The walk over a syntax tree goes a bounded number of levels deep and stops at the declarations that are
wanted. When it comes to an end, the bound did not matter: its stops are the wanted declarations at all
places below the root, in the order of the places. Each declaration with a name then gives one element,
and nothing else gives one. How deep a declaration lies, and in what, plays no part.

## Main definitions

* `siteAt?`: the site at a place, with what the walk knows about it there
* `declarationsBelow`: the places of the wanted declarations that have a name

## Main results

* `tooDeep_mem_visits_iff`: when the walk gives up
* `visits_eq_map_sites`: the stops of a walk that does not give up
* `extractMethods_lists_declarations`: the elements of a file are those of its declarations
-/

namespace Gleaner.Java

open Gleaner.Syntax
open Gleaner.Text (splitLines)

variable {file : SourceFile} {lines : List String} {package : Option String} {constructors : Bool}
  {levels : ℕ} {ancestors : List Node} {node root : Node}

/-! ## Sites by their places -/

/-- The sibling before the one with a number. -/
def before? (siblings : List Node) : ℕ → Option Node
  | 0 => none
  | i + 1 => siblings[i]?

/-- The site at a place below a node, whose own ancestors are given. -/
def siteAt? : List Node → Node → List ℕ → Option Site
  | _, _, [] => none
  | ancestors, n, [i] =>
    n.namedChildren[i]?.map fun child => ⟨child, n :: ancestors, before? n.namedChildren i⟩
  | ancestors, n, i :: j :: rest =>
    n.namedChildren[i]?.bind fun child => siteAt? (n :: ancestors) child (j :: rest)

/-- The sites below a node, in the order of their places. -/
def sitesBelow (ancestors : List Node) (n : Node) : List Site :=
  (placesBelow n).filterMap (siteAt? ancestors n)

/-- The node of a site is the one at its place. -/
theorem map_node_siteAt? (ancestors : List Node) (node : Node) {place : List ℕ} (h : place ≠ []) :
    (siteAt? ancestors node place).map (·.node) = node.down? place := by
  fun_induction siteAt? ancestors node place with
  | case1 => exact absurd rfl h
  | case2 ancestors n i =>
    rw [Option.map_map, Node.down?]
    cases n.namedChildren[i]? <;> rfl
  | case3 ancestors n i j rest ih =>
    rw [Node.down?]
    cases hchild : n.namedChildren[i]? with
    | none => rfl
    | some child => exact ih child (List.cons_ne_nil j rest)

theorem getElem?_withPrevious {α : Type} (before : Option α) (items : List α) (i : ℕ) :
    (withPrevious before items)[i]? =
      items[i]?.map fun a => (if i = 0 then before else items[i - 1]?, a) := by
  induction items generalizing before i with
  | nil => simp [withPrevious]
  | cons a rest ih =>
    cases i with
    | zero => simp [withPrevious]
    | succ i =>
      rw [withPrevious, List.getElem?_cons_succ, ih, List.getElem?_cons_succ]
      cases i with
      | zero => simp
      | succ i => simp

/-- Each child comes with the sibling before it. -/
theorem withPrevious_none_eq (siblings : List Node) :
    withPrevious none siblings =
      siblings.zipIdx.map fun child => (before? siblings child.2, child.1) := by
  refine List.ext_getElem? fun i => ?_
  rw [getElem?_withPrevious, List.getElem?_map, List.getElem?_zipIdx, Option.map_map]
  cases i <;> simp [before?, Function.comp_def]

/-- **The sites below a node**: each named child, and right behind it the sites below that child. -/
theorem sitesBelow_eq (ancestors : List Node) (n : Node) :
    sitesBelow ancestors n = (withPrevious none n.namedChildren).flatMap fun child =>
      ⟨child.2, n :: ancestors, child.1⟩ :: sitesBelow (n :: ancestors) child.2 := by
  rw [withPrevious_none_eq, List.flatMap_map, sitesBelow, placesBelow_eq, List.filterMap_flatMap]
  refine List.flatMap_congr ?_
  rintro ⟨child, i⟩ hchild
  rw [List.mk_mem_zipIdx_iff_getElem?] at hchild
  have hhere : siteAt? ancestors n [i] =
      some ⟨child, n :: ancestors, before? n.namedChildren i⟩ := by
    rw [siteAt?, hchild, Option.map_some]
  -- below a child, a site has one ancestor more
  have hbelow : ((placesBelow child).map (i :: ·)).filterMap (siteAt? ancestors n) =
      sitesBelow (n :: ancestors) child := by
    rw [List.filterMap_map, sitesBelow]
    refine List.filterMap_congr fun place hplace => ?_
    obtain ⟨j, rest, rfl⟩ := List.exists_cons_of_ne_nil (mem_placesBelow_iff.mp hplace).1
    rw [Function.comp_apply, siteAt?, hchild, Option.bind_some]
  rw [List.filterMap_cons_some hhere, hbelow]

/-! ## The stops of the walk -/

/-- One level of the walk. -/
theorem visits_succ :
    visits constructors (levels + 1) ancestors node =
      (withPrevious none node.namedChildren).flatMap fun child =>
        (if isWanted constructors child.2.kind then
          [.site ⟨child.2, node :: ancestors, child.1⟩] else [])
        ++ visits constructors levels (node :: ancestors) child.2 := by
  rw [visits]

theorem mem_withPrevious_none_iff {siblings : List Node} {child : Node} :
    (∃ previous, (previous, child) ∈ withPrevious none siblings) ↔ child ∈ siblings := by
  rw [withPrevious_none_eq]
  constructor
  · rintro ⟨previous, hmem⟩
    obtain ⟨⟨a, i⟩, ha, heq⟩ := List.mem_map.mp hmem
    obtain ⟨-, rfl⟩ := Prod.mk.inj heq
    exact List.fst_mem_of_mem_zipIdx ha
  · intro hchild
    obtain ⟨i, hi⟩ := List.getElem?_of_mem hchild
    refine ⟨before? siblings i, List.mem_map.mpr ⟨(child, i), ?_, rfl⟩⟩
    exact List.mk_mem_zipIdx_iff_getElem?.mpr hi

/-- **The walk gives up** just when a place is as long as the walk may go deep. -/
theorem tooDeep_mem_visits_iff :
    Visit.tooDeep ∈ visits constructors levels ancestors node ↔
      ∃ place : List ℕ, place.length = levels ∧ (node.down? place).isSome := by
  induction levels generalizing ancestors node with
  | zero => simp [visits, Node.down?]
  | succ levels ih =>
    rw [visits_succ, List.mem_flatMap]
    constructor
    · rintro ⟨⟨previous, child⟩, hchild, hmem⟩
      have hbelow : Visit.tooDeep ∈ visits constructors levels (node :: ancestors) child := by
        rcases List.mem_append.mp hmem with hhere | hbelow
        · split_ifs at hhere
          · cases List.mem_singleton.mp hhere
          · cases hhere
        · exact hbelow
      obtain ⟨place, hlength, hplace⟩ := ih.mp hbelow
      obtain ⟨i, hi⟩ := List.getElem?_of_mem (mem_withPrevious_none_iff.mp ⟨previous, hchild⟩)
      refine ⟨i :: place, by rw [List.length_cons, hlength], ?_⟩
      rwa [Node.down?, hi, Option.bind_some]
    · rintro ⟨place, hlength, hplace⟩
      obtain ⟨i, rest, rfl⟩ := List.exists_cons_of_length_eq_add_one hlength
      rw [Node.down?] at hplace
      obtain ⟨child, hi, hrest⟩ : ∃ child, node.namedChildren[i]? = some child ∧
          (child.down? rest).isSome := by
        cases hi : node.namedChildren[i]? with
        | none =>
          rw [hi] at hplace
          cases hplace
        | some child =>
          rw [hi] at hplace
          exact ⟨child, rfl, hplace⟩
      obtain ⟨previous, hchild⟩ := mem_withPrevious_none_iff.mpr (List.mem_of_getElem? hi)
      refine ⟨(previous, child), hchild, List.mem_append_right _ (ih.mpr ⟨rest, ?_, hrest⟩)⟩
      exact Nat.succ.inj hlength

/-- **The stops of a walk that does not give up** are the wanted declarations among the sites. -/
theorem visits_eq_map_sites (h : Visit.tooDeep ∉ visits constructors levels ancestors node) :
    visits constructors levels ancestors node =
      ((sitesBelow ancestors node).filter fun s => isWanted constructors s.node.kind).map .site := by
  induction levels generalizing ancestors node with
  | zero =>
    rw [visits] at h
    exact absurd (List.mem_singleton_self _) h
  | succ levels ih =>
    rw [visits_succ] at h ⊢
    rw [sitesBelow_eq, List.filter_flatMap, List.map_flatMap]
    refine List.flatMap_congr fun child hchild => ?_
    have hbelow : Visit.tooDeep ∉ visits constructors levels (node :: ancestors) child.2 := by
      intro hmem
      exact h (List.mem_flatMap.mpr ⟨child, hchild, List.mem_append_right _ hmem⟩)
    rw [ih hbelow, List.filter_cons]
    split_ifs <;> rfl

/-! ## The elements of a file -/

/-- Whether a declaration that is wanted and has a name stands at a place. -/
def declaresAt (constructors : Bool) (root : Node) (place : List ℕ) : Bool :=
  (root.down? place).any fun n => isWanted constructors n.kind && isNamed n

/-- The places of the declarations that are wanted and have a name, in the order of a walk. -/
def declarationsBelow (constructors : Bool) (root : Node) : List (List ℕ) :=
  (placesBelow root).filter (declaresAt constructors root)

/-- **The declarations of a tree**: a place is among them if a method with a name stands there, or a
constructor if they are wanted. -/
theorem mem_declarationsBelow_iff {place : List ℕ} :
    place ∈ declarationsBelow constructors root ↔
      place ≠ [] ∧ ∃ n, root.down? place = some n ∧
        (n.kind = "method_declaration" ∨ constructors = true ∧ n.kind = "constructor_declaration") ∧
        (n.childByRole? "name").isSome := by
  rw [declarationsBelow, List.mem_filter, mem_placesBelow_iff, declaresAt]
  cases root.down? place with
  | none => simp
  | some n => simp [isWanted, isMethodKind, isConstructorKind, isNamed]

theorem pairwise_declarationsBelow (constructors : Bool) (root : Node) :
    (declarationsBelow constructors root).Pairwise (· < ·) :=
  (pairwise_placesBelow root).filter _

/-- Lists that are related item by item through a third one. -/
theorem forall₂_comp {α β γ : Type} {R : α → β → Prop} {S : β → γ → Prop} {as : List α}
    {bs : List β} {cs : List γ} (h : List.Forall₂ R as bs) (h' : List.Forall₂ S bs cs) :
    List.Forall₂ (fun a c => ∃ b, R a b ∧ S b c) as cs := by
  induction h generalizing cs with
  | nil =>
    cases h'
    exact List.Forall₂.nil
  | cons hab _ ih =>
    cases h' with
    | cons hbc htail => exact List.Forall₂.cons ⟨_, hab, hbc⟩ (ih htail)

/-- There is a site at each place below a node. -/
theorem exists_siteAt? (ancestors : List Node) {place : List ℕ} (h : place ∈ placesBelow root) :
    ∃ s, siteAt? ancestors root place = some s ∧ root.down? place = some s.node := by
  obtain ⟨hne, hdown⟩ := mem_placesBelow_iff.mp h
  have hnode := map_node_siteAt? ancestors root hne
  cases hs : siteAt? ancestors root place with
  | none =>
    rw [← hnode, hs] at hdown
    cases hdown
  | some s => exact ⟨s, rfl, by rw [← hnode, hs, Option.map_some]⟩

/-- The sites that give elements are those at the places of the declarations. -/
theorem forall₂_siteAt?_declarationsBelow :
    List.Forall₂ (fun place s => siteAt? [] root place = some s)
      (declarationsBelow constructors root)
      (((sitesBelow [] root).filter fun s => isWanted constructors s.node.kind).filter
        fun s => isNamed s.node) := by
  -- place by place, for any places below the root
  suffices hplaces : ∀ places : List (List ℕ), places ⊆ placesBelow root →
      List.Forall₂ (fun place s => siteAt? [] root place = some s)
        (places.filter (declaresAt constructors root))
        (((places.filterMap (siteAt? [] root)).filter fun s => isWanted constructors s.node.kind).filter
          fun s => isNamed s.node) from hplaces (placesBelow root) (List.Subset.refl _)
  intro places hsubset
  induction places with
  | nil => exact List.Forall₂.nil
  | cons place rest ih =>
    obtain ⟨hplace, hrest⟩ := List.cons_subset.mp hsubset
    obtain ⟨s, hs, hdown⟩ := exists_siteAt? [] hplace
    have hdeclares : declaresAt constructors root place =
        (isWanted constructors s.node.kind && isNamed s.node) := by
      rw [declaresAt, hdown, Option.any_some]
    rw [List.filterMap_cons_some hs, List.filter_cons, List.filter_cons, hdeclares]
    cases isWanted constructors s.node.kind with
    | false => exact ih hrest
    | true =>
      rw [Bool.true_and, if_pos rfl, List.filter_cons]
      cases isNamed s.node with
      | false => exact ih hrest
      | true => exact List.Forall₂.cons hs (ih hrest)

/-- What a harvest that nothing stopped consists of. -/
theorem extractMethods_elements_eq_ok {es : List Element}
    (h : (extractMethods file root constructors).elements = .ok es) :
    ∃ text package, Utf8.decode file.bytes = .ok text ∧ packageName? file.bytes root = .ok package ∧
      (gather file (splitLines text) package (visits constructors maxLevels [] root)).failure =
        none ∧
      es = (gather file (splitLines text) package
        (visits constructors maxLevels [] root)).findings.filterMap Finding.element? := by
  unfold extractMethods at h
  cases hdecode : Utf8.decode file.bytes with
  | error e =>
    rw [hdecode] at h
    cases h
  | ok text =>
    cases hpackage : packageName? file.bytes root with
    | error e =>
      rw [hdecode, hpackage] at h
      cases h
    | ok package =>
      rw [hdecode, hpackage] at h
      unfold Harvest.elements at h
      split at h
      · cases h
      · next hfailure =>
        cases h
        exact ⟨text, package, rfl, rfl, hfailure, rfl⟩

/-- **The elements of a file are those of its declarations.** Where the extraction comes to an end, it
gives one element for each method with a name that stands at any place below the root, and for each
constructor if they are wanted. They come in the order of the places, each once, and there is nothing
else. -/
theorem extractMethods_lists_declarations {es : List Element}
    (h : (extractMethods file root constructors).elements = .ok es) :
    ∃ text package, Utf8.decode file.bytes = .ok text ∧ packageName? file.bytes root = .ok package ∧
      List.Forall₂ (fun place e => ∃ s, siteAt? [] root place = some s ∧
          siteElement file (splitLines text) package s = .ok (.element e))
        (declarationsBelow constructors root) es ∧
      (∀ place, place ∈ declarationsBelow constructors root ↔
        place ≠ [] ∧ ∃ n, root.down? place = some n ∧
          (n.kind = "method_declaration" ∨
            constructors = true ∧ n.kind = "constructor_declaration") ∧
          (n.childByRole? "name").isSome) ∧
      (declarationsBelow constructors root).Pairwise (· < ·) := by
  obtain ⟨text, package, hdecode, hpackage, hfailure, rfl⟩ := extractMethods_elements_eq_ok h
  refine ⟨text, package, hdecode, hpackage, ?_, fun place => mem_declarationsBelow_iff,
    pairwise_declarationsBelow constructors root⟩
  have hdeep : Visit.tooDeep ∉ visits constructors maxLevels [] root := by
    intro hmem
    exact gather_failure_of_tooDeep hmem hfailure
  rw [visits_eq_map_sites hdeep] at hfailure ⊢
  exact forall₂_comp forall₂_siteAt?_declarationsBelow (forall₂_elements (gather_forall₂ hfailure))

/-- A method `a` with a type inside that has a constructor and a method, both called `b`. -/
def localType : Node :=
  let name (start stop : ℕ) : Node := .node ⟨"identifier", start, stop, true, false, false, some "name"⟩ []
  .node ⟨"program", 0, 3, true, false, false, none⟩
    [.node ⟨"method_declaration", 0, 3, true, false, false, none⟩
      [name 0 1,
        .node ⟨"class_declaration", 2, 3, true, false, false, none⟩
          [.node ⟨"constructor_declaration", 2, 3, true, false, false, none⟩ [name 2 3],
            .node ⟨"method_declaration", 2, 3, true, false, false, none⟩ [name 2 3]]]]

/-- The method inside the type comes after the one around it; the constructor is not wanted. -/
theorem extractMethods_lists_method_of_local_type :
    ∃ es, (extractMethods ⟨[97, 32, 98], "A.java", "A.java"⟩ localType false).elements = .ok es ∧
      es.map (·.name) = ["a", "b"] ∧
      declarationsBelow false localType = [[0], [0, 1, 1]] ∧
      (declarationsBelow false localType).length = es.length := by
  have hnames : (extractMethods ⟨[97, 32, 98], "A.java", "A.java"⟩ localType
      false).elements.toOption.map (·.map (·.name)) = some ["a", "b"] := by decide +kernel
  cases hes : (extractMethods ⟨[97, 32, 98], "A.java", "A.java"⟩ localType false).elements with
  | error e =>
    rw [hes] at hnames
    cases hnames
  | ok es =>
    rw [hes] at hnames
    obtain ⟨_, _, -, -, hlists, -⟩ := extractMethods_lists_declarations hes
    exact ⟨es, rfl, Option.some.inj hnames, by decide +kernel, hlists.length_eq⟩

end Gleaner.Java
