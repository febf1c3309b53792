import Gleaner.Proofs.Java.Preorder
import Gleaner.Proofs.Syntax.Range
import Gleaner.Proofs.Text.Lines

/-!
# Where the methods of a file stand

Over a text that is written as UTF-8, with a tree as a parser makes it, an extraction can fail in one
way only: the tree is too deep. Whatever is read lies between two boundaries, so that it can be read;
and the comment of a declaration ends before the declaration starts, so that the lines of an element
are in order.

The snippet of an element is the lines from its first to its last one. Rows are counted in the bytes
and lines are cut out of the text, but the two count the same line feeds; so all that the text has from
the start of the comment to the end of the declaration stands in the snippet.

## Main definitions

* `Site.Covers`: a declaration in its place in a tree over a text
* `Site.HasExtent`: what the lines and the snippet of an element say about its declaration

## Main results

* `Site.Covers.exists_siteElement`: a declaration in its place gives something
* `Site.Covers.hasExtent`: the lines and the snippet of an element
* `extractMethods_extents`: no extraction over a text fails but for depth, and all elements have their
  extents
-/

namespace Gleaner.Java

open Gleaner.Syntax
open Gleaner.Text (snippet splitLines joinLines numbered snippet_eq_joinLines_numbered
  exists_snippet_eq_append)

variable {file : SourceFile} {lines : List String} {package : Option String} {constructors : Bool}
  {text : String} {s : Site} {n : Node}

/-! ## Whatever is read can be read -/

theorem exists_fileText (hsource : file.bytes = Utf8.encode text) (h : n.Covers text) :
    ∃ t, file.text n = .ok t := by
  obtain ⟨t, ht⟩ := h.exists_text
  exact ⟨t, by rw [SourceFile.text, hsource, ht]; rfl⟩

theorem exists_parameterType (h : n.Covers text) :
    ∃ type, parameterType (Utf8.encode text) n = .ok type := by
  unfold parameterType
  split_ifs with hformal hspread
  · cases htype : n.childByRole? "type" with
    | none => exact ⟨none, rfl⟩
    | some type =>
      obtain ⟨t, ht⟩ := (h.of_childByRole? htype).exists_text
      cases hdimensions : n.childByRole? "dimensions" with
      | none => exact ⟨some t, by simp only [ht]; rfl⟩
      | some dimensions =>
        obtain ⟨d, hd⟩ := (h.of_childByRole? hdimensions).exists_text
        exact ⟨some (t ++ d), by simp only [ht]; simp only [hd]; rfl⟩
  · cases htype : n.namedChildren.find? (!isBesideType ·.kind) with
    | none => exact ⟨none, rfl⟩
    | some type =>
      obtain ⟨t, ht⟩ := (h.of_mem_namedChildren (List.mem_of_find?_eq_some htype)).exists_text
      exact ⟨some (t ++ "..."), by simp only [ht]; rfl⟩
  · exact ⟨none, rfl⟩

theorem exists_parameterTypes {parameters : List Node} (h : ∀ p ∈ parameters, p.Covers text) :
    ∃ types, parameterTypes (Utf8.encode text) parameters = .ok types := by
  induction parameters with
  | nil => exact ⟨[], rfl⟩
  | cons parameter rest ih =>
    obtain ⟨type, htype⟩ := exists_parameterType (h parameter List.mem_cons_self)
    obtain ⟨types, htypes⟩ := ih fun p hp => h p (List.mem_cons_of_mem parameter hp)
    rw [parameterTypes, htype, htypes]
    cases type with
    | none => exact ⟨types, rfl⟩
    | some t => exact ⟨_, rfl⟩

theorem exists_signature (h : n.Covers text) {name : Node}
    (hname : n.childByRole? "name" = some name) :
    ∃ signature, signature? (Utf8.encode text) n = .ok (some signature) := by
  obtain ⟨t, ht⟩ := (h.of_childByRole? hname).exists_text
  rw [signature?, hname]
  cases hparameters : n.childByRole? "parameters" with
  | none => exact ⟨_, by simp only [ht]; rfl⟩
  | some parameters =>
    have hcovers := h.of_childByRole? hparameters
    obtain ⟨types, htypes⟩ := exists_parameterTypes fun p hp => hcovers.of_mem_namedChildren hp
    exact ⟨_, by simp only [ht, htypes]; rfl⟩

theorem exists_packageName (h : n.Covers text) :
    ∃ package, packageName? (Utf8.encode text) n = .ok package := by
  simp only [packageName?]
  split
  · exact ⟨none, rfl⟩
  · next name _ hnames =>
    -- the name is a child of a child of the root
    obtain ⟨declaration, hdeclaration, hname⟩ := List.mem_filterMap.mp (hnames ▸ List.mem_cons_self)
    have hcovers := h.of_mem_namedChildren (List.mem_filter.mp hdeclaration).1
    obtain ⟨t, ht⟩ := (hcovers.of_mem_namedChildren (List.mem_of_find?_eq_some hname)).exists_text
    exact ⟨some t, by rw [ht]; rfl⟩

theorem exists_enclosingType (hsource : file.bytes = Utf8.encode text) {ancestors : List Node}
    (h : ∀ n ∈ ancestors, n.Covers text) : ∃ type, enclosingType? file ancestors = .ok type := by
  induction ancestors with
  | nil => exact ⟨none, rfl⟩
  | cons ancestor rest ih =>
    have hrest := ih fun n hn => h n (List.mem_cons_of_mem ancestor hn)
    rw [enclosingType?]
    split_ifs
    · cases hname : ancestor.childByRole? "name" with
      | none => exact hrest
      | some name =>
        obtain ⟨t, ht⟩ := exists_fileText hsource
          ((h ancestor List.mem_cons_self).of_childByRole? hname)
        exact ⟨some t, by simp only [ht]; rfl⟩
    · exact hrest

/-! ## Declarations in their places -/

/-- A declaration in its place in a tree over a text: so are the nodes around it, and the sibling
before it ends before it starts. -/
structure Site.Covers (text : String) (s : Site) : Prop where
  node : s.node.Covers text
  ancestors : ∀ n ∈ s.ancestors, n.Covers text
  previous : ∀ n ∈ s.previous, n.Covers text ∧ n.info.stop ≤ s.node.info.start

/-- Each item comes with one that stands before it. -/
theorem mem_withPrevious {α : Type} {R : α → α → Prop} {before previous : Option α} {items : List α}
    {a : α} (hpairwise : (before.toList ++ items).Pairwise R)
    (h : (previous, a) ∈ withPrevious before items) :
    a ∈ items ∧ ∀ b ∈ previous, b ∈ before.toList ++ items ∧ R b a := by
  induction items generalizing before with
  | nil => cases h
  | cons first rest ih =>
    rcases List.mem_cons.mp h with heq | hrest
    · obtain ⟨rfl, rfl⟩ := Prod.mk.inj heq
      refine ⟨List.mem_cons_self, fun b hb => ?_⟩
      have hbefore : b ∈ previous.toList := Option.mem_toList.mpr hb
      exact ⟨List.mem_append_left _ hbefore,
        (List.pairwise_append.mp hpairwise).2.2 b hbefore a List.mem_cons_self⟩
    · have htail : ((some first).toList ++ rest).Pairwise R := (List.pairwise_append.mp hpairwise).2.1
      obtain ⟨ha, hprevious⟩ := ih htail hrest
      exact ⟨List.mem_cons_of_mem first ha, fun b hb =>
        ⟨List.mem_append_right _ (hprevious b hb).1, (hprevious b hb).2⟩⟩

/-- **The stops of a walk are in their places**, level by level. -/
theorem covers_of_mem_visits {levels : ℕ} {ancestors : List Node} (hnode : n.Covers text)
    (hancestors : ∀ m ∈ ancestors, m.Covers text)
    (hs : .site s ∈ visits constructors levels ancestors n) : s.Covers text := by
  induction levels generalizing ancestors n with
  | zero =>
    rw [visits] at hs
    cases List.mem_singleton.mp hs
  | succ levels ih =>
    rw [visits_succ] at hs
    obtain ⟨⟨previous, child⟩, hchild, hmem⟩ := List.mem_flatMap.mp hs
    obtain ⟨hmember, hprevious⟩ := mem_withPrevious hnode.nested.pairwise_namedChildren hchild
    have hcovers := hnode.of_mem_namedChildren hmember
    have haround : ∀ m ∈ n :: ancestors, m.Covers text := by
      intro m hm
      rcases List.mem_cons.mp hm with rfl | hm
      · exact hnode
      · exact hancestors m hm
    -- the walk stops at the child itself, or somewhere below it
    rcases List.mem_append.mp hmem with hhere | hbelow
    · split_ifs at hhere
      · cases List.mem_singleton.mp hhere
        exact ⟨hcovers, haround, fun m hm =>
          ⟨hnode.of_mem_namedChildren (hprevious m hm).1, (hprevious m hm).2⟩⟩
      · cases hhere
    · exact ih hcovers haround hbelow

namespace Site.Covers

theorem exists_attachedJavadoc (h : s.Covers text) (hsource : file.bytes = Utf8.encode text) :
    ∃ javadoc, attachedJavadoc? file s = .ok javadoc := by
  unfold attachedJavadoc?
  cases hprevious : s.previous with
  | none => exact ⟨none, rfl⟩
  | some sibling =>
    obtain ⟨t, ht⟩ := exists_fileText hsource (h.previous sibling hprevious).1
    simp only [ht]
    split_ifs
    · exact ⟨none, rfl⟩
    · exact ⟨_, rfl⟩

/-- An element starts with its declaration or before it. -/
theorem firstNode_covers (h : s.Covers text) {javadoc : Option (Node × String)}
    (hjavadoc : attachedJavadoc? file s = .ok javadoc) :
    (s.firstNode javadoc).Covers text ∧ (s.firstNode javadoc).info.start ≤ s.node.info.start := by
  cases javadoc with
  | none => exact ⟨h.node, le_rfl⟩
  | some found =>
    obtain ⟨hcovers, hstop⟩ := h.previous found.1 (previous_of_attachedJavadoc? hjavadoc)
    exact ⟨hcovers, hcovers.nested.start_le_stop.trans hstop⟩

/-- The lines of an element are in order: its comment does not start behind its declaration. -/
theorem wellOrdered_elementOf (h : s.Covers text) {javadoc : Option (Node × String)}
    (hjavadoc : attachedJavadoc? file s = .ok javadoc) (name signature : String)
    (enclosingType : Option String) :
    (s.elementOf file lines package name signature javadoc enclosingType).WellOrdered := by
  have hfirst := rowOf_mono file.bytes (h.firstNode_covers hjavadoc).2
  have hlast := rowOf_mono file.bytes h.node.nested.start_le_stop
  constructor
  · exact Int.ofNat_le.mpr (Nat.succ_le_succ hfirst)
  · exact Int.ofNat_le.mpr (Nat.succ_le_succ hlast)

/-- **A declaration in its place gives something**: all its parts can be read, and its lines are in
order. -/
theorem exists_siteElement (h : s.Covers text) (hsource : file.bytes = Utf8.encode text)
    (lines : List String) (package : Option String) :
    ∃ finding, siteElement file lines package s = .ok finding := by
  cases hname : s.node.childByRole? "name" with
  | none =>
    -- without a name nothing is read
    exact ⟨_, siteElement_of_unnamed (by rw [isNamed, hname]; rfl)⟩
  | some nameNode =>
    obtain ⟨name, htext⟩ := exists_fileText hsource (h.node.of_childByRole? hname)
    obtain ⟨signature, hsignature⟩ := exists_signature h.node hname
    obtain ⟨javadoc, hjavadoc⟩ := h.exists_attachedJavadoc hsource
    obtain ⟨enclosingType, henclosing⟩ := exists_enclosingType hsource h.ancestors
    have hparts : s.Parts file name signature javadoc enclosingType :=
      ⟨⟨nameNode, hname, htext⟩, hsource ▸ hsignature, hjavadoc, henclosing⟩
    exact ⟨_, siteElement_eq_element_iff.mpr ⟨name, signature, javadoc, enclosingType, hparts, rfl,
      h.wellOrdered_elementOf hjavadoc name signature enclosingType⟩⟩

end Site.Covers

/-! ## Extents -/

/-- What the lines and the snippet of an element say about its declaration. The lines are counted from
one and in order; the snippet is the lines from the first to the last one; and the source from the
start of the comment, or of the declaration if it has none, to the end of the declaration can be read
and stands in the snippet. -/
structure Site.HasExtent (s : Site) (file : SourceFile) (text : String) (e : Element) : Prop where
  order : 1 ≤ e.startLine ∧ e.startLine ≤ e.declarationLine ∧ e.declarationLine ≤ e.endLine
  snippet : ∃ first last : ℕ, e.startLine = first ∧ e.endLine = last ∧
    e.context.snippet = joinLines (numbered (splitLines text) first last)
  verbatim : ∃ javadoc body left right, attachedJavadoc? file s = .ok javadoc ∧
    Utf8.decode (cut file.bytes (s.firstNode javadoc).info.start s.node.info.stop) = .ok body ∧
    e.context.snippet = left ++ body ++ right

/-- **The extent of an element**: its rows in the bytes and the lines of the text count the same line
feeds. -/
theorem Site.Covers.hasExtent (h : s.Covers text) (hsource : file.bytes = Utf8.encode text)
    {e : Element} (he : siteElement file (splitLines text) package s = .ok (.element e)) :
    s.HasExtent file text e := by
  obtain ⟨name, signature, javadoc, enclosingType, hparts, rfl, hordered⟩ :=
    siteElement_eq_element_iff.mp he
  obtain ⟨hfirst, hstart⟩ := h.firstNode_covers hparts.javadoc
  have hlast := h.node.nested.start_le_stop
  -- `body` is the part of the text from the first node to the end of the declaration
  obtain ⟨before, body, after, htext, hcut, hrow, hrow'⟩ :=
    hfirst.isBoundary_start.exists_part h.node.isBoundary_stop (hstart.trans hlast)
  refine ⟨⟨?_, hordered⟩, ⟨_, _, rfl, rfl, ?_⟩, ?_⟩
  · exact Int.ofNat_le.mpr (Nat.succ_le_succ (Nat.zero_le _))
  · exact snippet_eq_joinLines_numbered (Nat.succ_le_succ (Nat.zero_le _))
  · obtain ⟨left, right, hsnippet⟩ := exists_snippet_eq_append htext
    refine ⟨javadoc, body, left, right, hparts.javadoc, ?_, ?_⟩
    · rw [hsource]
      exact Utf8.decode_eq_ok_iff.mpr hcut
    · -- the element counts its lines in the bytes, the snippet in the text
      rw [← hsnippet, ← hrow, ← hrow', ← hsource]
      rfl

/-- Over a text the extraction comes to its walk. -/
theorem exists_extractMethods_eq_gather {root : Node} (hsource : file.bytes = Utf8.encode text)
    (hroot : root.Covers text) (constructors : Bool) :
    ∃ package, packageName? file.bytes root = .ok package ∧
      extractMethods file root constructors =
        gather file (splitLines text) package (visits constructors maxLevels [] root) := by
  obtain ⟨package, hpackage⟩ := exists_packageName hroot
  rw [← hsource] at hpackage
  refine ⟨package, hpackage, ?_⟩
  rw [extractMethods, Utf8.decode_eq_ok_iff.mpr hsource, hpackage]

/-- **Where the methods of a file stand.** Over a text and a tree that a parser made, the extraction
fails just when the tree is too deep; it never meets bytes that cannot be read or lines out of order.
Each element that it finds, be it on the way to such a failure, comes from a declaration and has its
extent. -/
theorem extractMethods_extents {root : Node} (hsource : file.bytes = Utf8.encode text)
    (hroot : root.Covers text) (constructors : Bool) :
    ((∃ place : List ℕ, place.length = maxLevels ∧ (root.down? place).isSome) ∧
        (extractMethods file root constructors).elements = .error .tooDeep ∨
      (¬ ∃ place : List ℕ, place.length = maxLevels ∧ (root.down? place).isSome) ∧
        (extractMethods file root constructors).elements =
          .ok ((extractMethods file root constructors).findings.filterMap Finding.element?)) ∧
    ∃ package, packageName? file.bytes root = .ok package ∧
      ∀ e, .element e ∈ (extractMethods file root constructors).findings →
        ∃ s, .site s ∈ visits constructors maxLevels [] root ∧
          siteElement file (splitLines text) package s = .ok (.element e) ∧
          s.HasExtent file text e := by
  obtain ⟨package, hpackage, hgather⟩ := exists_extractMethods_eq_gather hsource hroot constructors
  have hcovers : ∀ s, .site s ∈ visits constructors maxLevels [] root → s.Covers text := by
    intro s hs
    exact covers_of_mem_visits hroot (fun m hm => absurd hm List.not_mem_nil) hs
  have hdepth : Visit.tooDeep ∈ visits constructors maxLevels [] root ↔
      ∃ place : List ℕ, place.length = maxLevels ∧ (root.down? place).isSome :=
    tooDeep_mem_visits_iff
  rw [hgather, ← hdepth]
  constructor
  · rcases gather_failure_of_exists fun s hs => (hcovers s hs).exists_siteElement hsource
      (splitLines text) package with ⟨hdeep, hfail⟩ | ⟨hdeep, hfail⟩
    · exact Or.inl ⟨hdeep, by rw [Harvest.elements, hfail]⟩
    · exact Or.inr ⟨hdeep, by rw [Harvest.elements, hfail]⟩
  · refine ⟨package, hpackage, fun e he => ?_⟩
    obtain ⟨s, hs, hfinding⟩ := exists_site_of_mem_findings he
    exact ⟨s, hs, hfinding, (hcovers s hs).hasExtent hsource hfinding⟩

/-- A comment with a character of two bytes, and a method that ends the file without a line feed. -/
def documentedText : String := "/** \u00e9 */\nint f();"

/-- The file of that text. -/
def documentedFile : SourceFile := ⟨Utf8.encode documentedText, "A.java", "A.java"⟩

/-- Its tree. -/
def documentedTree : Node :=
  .node ⟨"program", 0, 18, true, false, false, none⟩
    [.node ⟨"block_comment", 0, 9, true, false, false, none⟩ [],
      .node ⟨"method_declaration", 10, 18, true, false, false, none⟩
        [.node ⟨"identifier", 14, 15, true, false, false, some "name"⟩ []]]

theorem documentedTree_covers : documentedTree.Covers documentedText := by
  have hstart : IsBoundary documentedText 0 :=
    ⟨"", documentedText, by decide +kernel, by decide +kernel⟩
  have hcomment : IsBoundary documentedText 9 :=
    ⟨"/** \u00e9 */", "\nint f();", by decide +kernel, by decide +kernel⟩
  have hmethod : IsBoundary documentedText 10 :=
    ⟨"/** \u00e9 */\n", "int f();", by decide +kernel, by decide +kernel⟩
  have hname : IsBoundary documentedText 14 :=
    ⟨"/** \u00e9 */\nint ", "f();", by decide +kernel, by decide +kernel⟩
  have hname' : IsBoundary documentedText 15 :=
    ⟨"/** \u00e9 */\nint f", "();", by decide +kernel, by decide +kernel⟩
  have hstop : IsBoundary documentedText 18 :=
    ⟨documentedText, "", by decide +kernel, by decide +kernel⟩
  refine .node (by decide) hstart hstop (by decide) (by decide) ?_
  simp only [List.forall_mem_cons]
  refine ⟨.node (by decide) hstart hcomment (by decide) (by decide) (by simp), ?_, by simp⟩
  refine .node (by decide) hmethod hstop (by decide) (by decide) ?_
  simp only [List.forall_mem_cons]
  exact ⟨.node (by decide) hname hname' (by decide) (by decide) (by simp), by simp⟩

/-- The snippet of the method starts with its comment. -/
theorem extractMethods_extents_of_documented_method :
    documentedTree.Covers documentedText ∧
      ∃ e, .element e ∈ (extractMethods documentedFile documentedTree false).findings ∧
        e.startLine = 1 ∧ e.declarationLine = 2 ∧ e.endLine = 2 ∧
        e.context.snippet = documentedText ++ "\n" ∧
        ∃ s, Site.HasExtent s documentedFile documentedText e := by
  have hextents : (extractMethods documentedFile documentedTree false).findings.map
      (fun finding => finding.element?.map fun e =>
        (e.startLine, e.declarationLine, e.endLine, e.context.snippet)) =
      [some (1, 2, 2, documentedText ++ "\n")] := by decide +kernel
  obtain ⟨finding, hfindings⟩ := List.length_eq_one_iff.mp ((List.length_map _).symm.trans
    (congrArg List.length hextents))
  obtain ⟨-, _, -, hall⟩ := extractMethods_extents (rfl : documentedFile.bytes = _)
    documentedTree_covers false
  rw [hfindings] at hextents hall ⊢
  cases finding with
  | unnamed kind line => cases hextents
  | element e =>
    obtain ⟨s, -, -, hs⟩ := hall e List.mem_cons_self
    simp only [List.map_cons, List.map_nil, Finding.element?, Option.map_some, List.cons.injEq,
      Option.some.injEq, Prod.mk.injEq, and_true] at hextents
    obtain ⟨hstart, hdeclaration, hend, hsnippet⟩ := hextents
    exact ⟨documentedTree_covers, e, List.mem_cons_self, hstart, hdeclaration, hend, hsnippet, s, hs⟩

end Gleaner.Java
