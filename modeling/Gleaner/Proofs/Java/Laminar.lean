import Gleaner.Proofs.Java.Origin
import Gleaner.Proofs.Syntax.Range

/-!
# Declarations in the order of the source

The elements of a file come in the order of the places of their declarations, and places know nothing of
lines. What ties the two together are the ranges of the tree. Of two places in order, the first leads to the
second, or they part at some node, from where the first goes on to an earlier child than the second. In the
one case the second declaration lies inside the first; in the other the first ends before the second starts,
however deep both are below the node where they part. Rows do not decrease along the bytes, so that lines
tell the same as ranges, except that what ends and what starts may share a line.

## Main definitions

* `Node.Encloses`: the range of a node lies inside that of another

## Main results

* `Node.Nested.encloses_down?`: a node encloses all that has a place below it
* `Node.Nested.ranges_of_lt`: how the ranges at two places lie
* `StemsFrom.lines_of_lt`: how the lines of two elements lie, by the places of their declarations
* `extractMethods_laminar`: any two elements of a file are nested or follow one another
-/

namespace Gleaner.Syntax

variable {root m n : Node} {place later : List ℕ}

/-! ## Ranges by places -/

/-- The range of a node lies inside that of another. -/
def Node.Encloses (m n : Node) : Prop :=
  m.info.start ≤ n.info.start ∧ n.info.stop ≤ m.info.stop

theorem Node.Encloses.trans (h : root.Encloses m) (h' : m.Encloses n) : root.Encloses n :=
  ⟨h.1.trans h'.1, h'.2.trans h.2⟩

namespace Node.Nested

/-- **A node encloses all that has a place below it**, and its ranges are in order as well. -/
theorem encloses_down? (h : root.Nested) (hn : root.down? place = some n) :
    n.Nested ∧ root.Encloses n := by
  induction place generalizing root with
  | nil =>
    obtain rfl := Option.some.inj hn
    exact ⟨h, le_rfl, le_rfl⟩
  | cons i rest ih =>
    obtain ⟨child, hchild, hrest⟩ := Option.bind_eq_some_iff.mp hn
    have hmem : child ∈ root.namedChildren := List.mem_of_getElem? hchild
    obtain ⟨hnested, hinside⟩ := ih (h.of_mem_namedChildren hmem) hrest
    exact ⟨hnested, .trans (h.inside_namedChildren hmem) hinside⟩

/-- A child ends before a later one starts. -/
theorem stop_le_start {i j : ℕ} {c d : Node} (h : root.Nested) (hc : root.namedChildren[i]? = some c)
    (hd : root.namedChildren[j]? = some d) (hlt : i < j) : c.info.stop ≤ d.info.start := by
  obtain ⟨hi, rfl⟩ := List.getElem?_eq_some_iff.mp hc
  obtain ⟨hj, rfl⟩ := List.getElem?_eq_some_iff.mp hd
  exact List.pairwise_iff_getElem.mp h.pairwise_namedChildren i j hi hj hlt

/-- **How the ranges at two places lie**: if the first place leads to the second, one node encloses the
other, and else it ends before the other starts. The induction follows the first place down to where the two
part. -/
theorem ranges_of_lt (h : root.Nested) (hm : root.down? place = some m) (hn : root.down? later = some n)
    (hlt : place < later) :
    place <+: later ∧ m.Encloses n ∨ ¬ place <+: later ∧ m.info.stop ≤ n.info.start := by
  induction place generalizing root later with
  | nil =>
    obtain rfl := Option.some.inj hm
    exact .inl ⟨List.nil_prefix, (h.encloses_down? hn).2⟩
  | cons i rest ih =>
    cases later with
    | nil => exact absurd hlt (List.not_lt_nil _)
    | cons j rest' =>
      obtain ⟨c, hc, hm⟩ := Option.bind_eq_some_iff.mp hm
      obtain ⟨d, hd, hn⟩ := Option.bind_eq_some_iff.mp hn
      have hcnested : c.Nested := h.of_mem_namedChildren (List.mem_of_getElem? hc)
      rcases List.cons_lt_cons_iff.mp hlt with hij | ⟨rfl, hrest⟩
      · -- the places part here: each node stays inside its child, and the children are apart
        have hdnested : d.Nested := h.of_mem_namedChildren (List.mem_of_getElem? hd)
        refine .inr ⟨fun hprefix => hij.ne (List.cons_prefix_cons.mp hprefix).1, ?_⟩
        calc m.info.stop ≤ c.info.stop := (hcnested.encloses_down? hm).2.2
          _ ≤ d.info.start := h.stop_le_start hc hd hij
          _ ≤ n.info.start := (hdnested.encloses_down? hn).2.1
      · obtain rfl := Option.some.inj (hc.symm.trans hd)
        simpa only [List.prefix_cons_inj] using ih hcnested hm hn hrest

end Node.Nested

end Gleaner.Syntax

namespace Gleaner.Java

open Gleaner.Syntax

variable {file : SourceFile} {constructors : Bool} {root : Node} {place later : List ℕ}
  {es : List Element} {e f : Element}

/-! ## Lines by places -/

/-- The lines of an element are the rows of its declaration, counted from one. -/
theorem StemsFrom.exists_lines (h : StemsFrom file root place e) :
    ∃ n, root.down? place = some n ∧ e.declarationLine = (n.startRow file.bytes + 1 : ℕ) ∧
      e.endLine = (n.endRow file.bytes + 1 : ℕ) := by
  obtain ⟨s, lines, package, name, signature, javadoc, enclosingType, hs, -, rfl⟩ := h.exists_parts
  refine ⟨s.node, down?_of_siteAt? hs, ?_, ?_⟩
  · rw [Site.elementOf]
  · rw [Site.elementOf]

/-- **How the lines of two elements lie**, the first of which stems from an earlier place. -/
theorem StemsFrom.lines_of_lt (hroot : root.Nested) (he : StemsFrom file root place e)
    (hf : StemsFrom file root later f) (hlt : place < later) :
    e.declarationLine ≤ f.declarationLine ∧
      (place <+: later ∧ f.endLine ≤ e.endLine ∨
        ¬ place <+: later ∧ e.endLine ≤ f.declarationLine) := by
  obtain ⟨m, hm, hdeclaration, hend⟩ := he.exists_lines
  obtain ⟨n, hn, hdeclaration', hend'⟩ := hf.exists_lines
  have horder := (hroot.encloses_down? hm).1.start_le_stop
  have hline : ∀ {k l : ℕ}, k ≤ l →
      ((rowOf file.bytes k + 1 : ℕ) : ℤ) ≤ (rowOf file.bytes l + 1 : ℕ) := by
    intro k l hkl
    exact Int.ofNat_le.mpr (Nat.succ_le_succ (rowOf_mono file.bytes hkl))
  rw [hdeclaration, hend, hdeclaration', hend']
  rcases hroot.ranges_of_lt hm hn hlt with ⟨hbelow, hstart, hstop⟩ | ⟨hbeside, hapart⟩
  · exact ⟨hline hstart, .inl ⟨hbelow, hline hstop⟩⟩
  · exact ⟨hline (horder.trans hapart), .inr ⟨hbeside, hline hapart⟩⟩

/-- What holds between any two items on the left, in order, makes for what holds on the right. -/
theorem pairwise_of_forall₂ {α β : Type} {R : α → β → Prop} {S : α → α → Prop} {T : β → β → Prop}
    {as : List α} {bs : List β} (h : List.Forall₂ R as bs) (hpairwise : as.Pairwise S)
    (hpair : ∀ a a' b b', R a b → R a' b' → S a a' → T b b') : bs.Pairwise T := by
  induction h with
  | nil => exact List.Pairwise.nil
  | cons hab htail ih =>
    obtain ⟨hhead, hrest⟩ := List.pairwise_cons.mp hpairwise
    refine List.pairwise_cons.mpr ⟨fun b' hb' => ?_, ih hrest⟩
    obtain ⟨a', ha', hrel⟩ := exists_right_of_forall₂ htail.flip hb'
    exact hpair _ a' _ b' hab hrel (hhead a' ha')

/-- **The elements of a file are nested or follow one another.** Over a tree with ranges that are nested and
in order they come with lines of declaration that do not decrease. Of any two of them, the second ends no
later than the first, or the first ends no later than the line on which the second is declared. -/
theorem extractMethods_laminar (hroot : root.Nested)
    (h : (extractMethods file root constructors).elements = .ok es) :
    es.Pairwise fun e f => e.declarationLine ≤ f.declarationLine ∧
      (f.endLine ≤ e.endLine ∨ e.endLine ≤ f.declarationLine) := by
  refine pairwise_of_forall₂ (forall₂_stemsFrom h) (pairwise_declarationsBelow constructors root) ?_
  intro place later e f he hf hlt
  obtain ⟨hdeclaration, hlines⟩ := he.lines_of_lt hroot hf hlt
  exact ⟨hdeclaration, hlines.imp And.right And.right⟩

/-- A method `f` with a class inside that has a method `g`, and behind it, on the line where it ends, a
method `h`. -/
def layeredTree : Node :=
  let name (start stop : ℕ) : Node := .node ⟨"identifier", start, stop, true, false, false, some "name"⟩ []
  .node ⟨"program", 0, 11, true, false, false, none⟩
    [.node ⟨"method_declaration", 0, 9, true, false, false, none⟩
      [name 0 1,
        .node ⟨"class_body", 1, 9, true, false, false, none⟩
          [.node ⟨"method_declaration", 3, 7, true, false, false, none⟩ [name 3 4]]],
      .node ⟨"method_declaration", 9, 10, true, false, false, none⟩ [name 9 10]]

/-- The file of that tree. -/
def layeredFile : SourceFile := ⟨Utf8.encode "f\x7b\ng\x7b\n\x7d\n\x7dh\n", "A.java", "A.java"⟩

theorem nested_layeredTree : layeredTree.Nested := by
  have hname : ∀ start stop, start ≤ stop →
      (Node.node ⟨"identifier", start, stop, true, false, false, some "name"⟩ []).Nested := by
    intro start stop horder
    exact .node horder (fun c hc => absurd hc List.not_mem_nil) .nil fun c hc => absurd hc List.not_mem_nil
  have hinner : (Node.node ⟨"method_declaration", 3, 7, true, false, false, none⟩
      [.node ⟨"identifier", 3, 4, true, false, false, some "name"⟩ []]).Nested :=
    .node (by decide) (by decide) (by decide) (List.forall_mem_singleton.mpr (hname 3 4 (by decide)))
  refine .node (by decide) (by decide) (by decide) (List.forall_mem_cons.mpr
    ⟨?_, List.forall_mem_singleton.mpr ?_⟩)
  · refine .node (by decide) (by decide) (by decide) (List.forall_mem_cons.mpr
      ⟨hname 0 1 (by decide), List.forall_mem_singleton.mpr ?_⟩)
    exact .node (by decide) (by decide) (by decide) (List.forall_mem_singleton.mpr hinner)
  · exact .node (by decide) (by decide) (by decide) (List.forall_mem_singleton.mpr (hname 9 10 (by decide)))

/-- The method inside is nested in the first one; the last one starts on the line where that ends. -/
theorem extractMethods_laminar_of_layered :
    layeredTree.Nested ∧
      ∃ es, (extractMethods layeredFile layeredTree false).elements = .ok es ∧
        es.map (fun e => (e.name, e.declarationLine, e.endLine)) =
          [("f", 1, 4), ("g", 2, 3), ("h", 4, 4)] ∧
        es.Pairwise fun e f => e.declarationLine ≤ f.declarationLine ∧
          (f.endLine ≤ e.endLine ∨ e.endLine ≤ f.declarationLine) := by
  have hlines : (extractMethods layeredFile layeredTree false).elements.toOption.map
      (·.map fun e => (e.name, e.declarationLine, e.endLine)) =
      some [("f", 1, 4), ("g", 2, 3), ("h", 4, 4)] := by decide +kernel
  obtain ⟨es, hes, hlines⟩ := exists_ok_of_map_toOption hlines
  exact ⟨nested_layeredTree, es, hes, hlines, extractMethods_laminar nested_layeredTree hes⟩

end Gleaner.Java
