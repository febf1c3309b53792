import Gleaner.Proofs.Java.Origin

/-!
# The type around a declaration

An element names the type that its declaration stands in. The extraction finds it from below: it climbs from the
declaration until it meets a type declaration with a name. Seen from above, the name is inherited: on the way from
the root to the declaration each type declaration with a name replaces what came from above, and every other node
passes it on, be it a block, a method, the body of an anonymous class or a type declaration without a name. Both
ways end at the last one that the way meets.

The name is read only once it is known which one it is, so names further out need not be readable.

## Main definitions

* `declaredName?`: the name with which a node declares a type
* `inheritedName?`: the name that is inherited on the way down to a place
* `nodesAbove`: the nodes on the way to a place, from the root down

## Main results

* `enclosingType?_eq`: climbing stops at the nearest name
* `ancestors_siteAt?`: what is climbed is the way to the place
* `inheritedName?_eq`: what is inherited is the last name on the way
* `extractMethods_inherits_enclosing_type`: the type of an element is inherited
-/

namespace Gleaner.Java

open Gleaner.Syntax

variable {file : SourceFile} {constructors : Bool} {root n : Node} {place : List ℕ} {s : Site}
  {es : List Element} {ancestors : List Node}

/-! ## Climbing -/

/-- The name with which a node declares a type, if it does. -/
def declaredName? (n : Node) : Option Node :=
  if isTypeKind n.kind then n.childByRole? "name" else none

theorem declaredName?_eq_some_iff {name : Node} :
    declaredName? n = some name ↔
      n.kind ∈ ["class_declaration", "interface_declaration", "enum_declaration",
        "record_declaration", "annotation_type_declaration"] ∧ n.childByRole? "name" = some name := by
  rw [← List.contains_iff_mem, ← isTypeKind, declaredName?]
  split_ifs with h <;> simp [h]

/-- **Climbing stops at the nearest name**, and reads that one only. -/
theorem enclosingType?_eq (file : SourceFile) (ancestors : List Node) :
    enclosingType? file ancestors = (ancestors.findSome? declaredName?).mapM file.text := by
  induction ancestors with
  | nil => rfl
  | cons ancestor rest ih =>
    rw [enclosingType?, List.findSome?_cons, declaredName?]
    split_ifs
    · cases ancestor.childByRole? "name" with
      | none => exact ih
      | some name => rfl
    · exact ih

/-! ## The way to a place -/

/-- The nodes on the way to a place, from the root down and without the one at the place. -/
def nodesAbove (root : Node) (place : List ℕ) : List Node :=
  (List.range place.length).filterMap fun k => root.down? (place.take k)

@[simp] theorem nodesAbove_nil (root : Node) : nodesAbove root [] = [] := rfl

/-- The way to a place leads through the root and then from a child on. -/
theorem nodesAbove_cons {child : Node} {i : ℕ} (h : root.namedChildren[i]? = some child)
    (rest : List ℕ) : nodesAbove root (i :: rest) = root :: nodesAbove child rest := by
  have hlater : ∀ k, root.down? ((i :: rest).take (k + 1)) = child.down? (rest.take k) := by
    intro k
    rw [List.take_succ_cons, Node.down?, h, Option.bind_some]
  simp only [nodesAbove, List.length_cons, List.range_succ_eq_map, List.filterMap_cons,
    List.filterMap_map, Function.comp_def, List.take_zero, Node.down?, Nat.succ_eq_add_one, hlater]

/-- **What is climbed** from a site is the way to its place, backwards. -/
theorem ancestors_siteAt? (h : siteAt? ancestors root place = some s) :
    s.ancestors = (nodesAbove root place).reverse ++ ancestors := by
  fun_induction siteAt? ancestors root place with
  | case1 => cases h
  | case2 ancestors n i =>
    obtain ⟨child, hchild, rfl⟩ := Option.map_eq_some_iff.mp h
    rw [nodesAbove_cons hchild, nodesAbove_nil, List.reverse_singleton, List.singleton_append]
  | case3 ancestors n i j rest ih =>
    obtain ⟨child, hchild, hs⟩ := Option.bind_eq_some_iff.mp h
    rw [ih child hs, nodesAbove_cons hchild, List.reverse_cons, List.append_assoc,
      List.singleton_append]

/-! ## Inheriting -/

/-- The name that is inherited on the way down to a place, where `outer` is what comes from above: a node that
declares a type puts its own name in the place of that, and any other node passes it on. -/
def inheritedName? : Option Node → Node → List ℕ → Option Node
  | outer, _, [] => outer
  | outer, n, i :: rest =>
    n.namedChildren[i]?.bind fun child => inheritedName? ((declaredName? n).or outer) child rest

/-- **What is inherited** is the last name on the way, or else what comes from above. -/
theorem inheritedName?_eq (outer : Option Node) (h : (root.down? place).isSome) :
    inheritedName? outer root place =
      ((nodesAbove root place).filterMap declaredName?).getLast?.or outer := by
  induction place generalizing root outer with
  | nil => rfl
  | cons i rest ih =>
    obtain ⟨target, htarget⟩ := Option.isSome_iff_exists.mp h
    obtain ⟨child, hchild, hrest⟩ := Option.bind_eq_some_iff.mp htarget
    rw [inheritedName?, hchild, Option.bind_some, ih _ (by rw [hrest]; rfl), nodesAbove_cons hchild,
      List.filterMap_cons]
    -- a name that the root declares counts only if none follows on the way
    cases declaredName? root with
    | none => rw [Option.none_or]
    | some name =>
      rw [List.getLast?_cons]
      cases ((nodesAbove child rest).filterMap declaredName?).getLast? <;> rfl

/-- **The type of an element is inherited.** Each element names the type whose name its declaration inherits on the
way from the root, or none if it inherits none; and that is the name of the last of the nodes on the way that
declare a class, an interface, an enumeration, a record or an annotation type with a name. -/
theorem extractMethods_inherits_enclosing_type
    (h : (extractMethods file root constructors).elements = .ok es) :
    List.Forall₂ (fun place e => StemsFrom file root place e ∧
        (inheritedName? none root place).mapM file.text = .ok e.context.enclosingType ∧
        inheritedName? none root place = ((nodesAbove root place).filterMap declaredName?).getLast?)
      (declarationsBelow constructors root) es ∧
    ∀ n name, declaredName? n = some name ↔
      n.kind ∈ ["class_declaration", "interface_declaration", "enum_declaration",
        "record_declaration", "annotation_type_declaration"] ∧ n.childByRole? "name" = some name := by
  refine ⟨(forall₂_stemsFrom h).imp fun place e hstem => ?_, fun n name => declaredName?_eq_some_iff⟩
  obtain ⟨s, lines, package, name, signature, javadoc, enclosingType, hs, hparts, rfl⟩ :=
    hstem.exists_parts
  have hname : inheritedName? none root place =
      ((nodesAbove root place).filterMap declaredName?).getLast? := by
    rw [inheritedName?_eq none (by rw [down?_of_siteAt? hs]; rfl), Option.or_none]
  refine ⟨hstem, ?_, hname⟩
  -- the last name on the way down is the first one on the way up
  have hclimb := hparts.enclosingType
  rwa [enclosingType?_eq, ancestors_siteAt? hs, List.append_nil, ← List.getLast?_filterMap,
    ← hname] at hclimb

/-- A class `A` with a method `f` that holds an anonymous class with a method `g` and a class `B` with a method `h`; and
a method `i` outside. -/
def nestedTypes : Node :=
  let name (start stop : ℕ) : Node := .node ⟨"identifier", start, stop, true, false, false, some "name"⟩ []
  .node ⟨"program", 0, 11, true, false, false, none⟩
    [.node ⟨"class_declaration", 0, 9, true, false, false, none⟩
      [name 0 1,
        .node ⟨"method_declaration", 2, 9, true, false, false, none⟩
          [name 2 3,
            .node ⟨"class_body", 4, 5, true, false, false, none⟩
              [.node ⟨"method_declaration", 4, 5, true, false, false, none⟩ [name 4 5]],
            .node ⟨"class_declaration", 6, 9, true, false, false, none⟩
              [name 6 7, .node ⟨"method_declaration", 8, 9, true, false, false, none⟩ [name 8 9]]]],
      .node ⟨"method_declaration", 10, 11, true, false, false, none⟩ [name 10 11]]

/-- The file of that tree. -/
def nestedFile : SourceFile := ⟨Utf8.encode "A f g B h i", "A.java", "A.java"⟩

/-- The anonymous class and the method around it are passed over; the inner class is not. -/
theorem extractMethods_inherits_enclosing_type_of_nested :
    ∃ es, (extractMethods nestedFile nestedTypes false).elements = .ok es ∧
      es.map (fun e => (e.name, e.context.enclosingType)) =
        [("f", some "A"), ("g", some "A"), ("h", some "B"), ("i", none)] ∧
      (declarationsBelow false nestedTypes).map
          (fun place => (inheritedName? none nestedTypes place).mapM nestedFile.text) =
        es.map fun e => .ok e.context.enclosingType := by
  have hnames : (extractMethods nestedFile nestedTypes false).elements.toOption.map
      (·.map fun e => (e.name, e.context.enclosingType)) =
      some [("f", some "A"), ("g", some "A"), ("h", some "B"), ("i", none)] := by decide +kernel
  obtain ⟨es, hes, hnames⟩ := exists_ok_of_map_toOption hnames
  refine ⟨es, hes, hnames, ?_⟩
  rw [← List.forall₂_eq_eq_eq, List.forall₂_map_left_iff, List.forall₂_map_right_iff]
  exact (extractMethods_inherits_enclosing_type hes).1.imp fun _ _ hplace => hplace.2.1

end Gleaner.Java
