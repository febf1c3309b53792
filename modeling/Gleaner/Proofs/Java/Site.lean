import Mathlib.Data.List.Forall2
import Gleaner.Java.Method

/-!
# What a declaration gives

A declaration in its place gives an element, or only a note if it has no name. `siteElement` reads the
parts of the declaration one after the other, and each of them may fail; here the parts are named, and
the element is put together from them in one step. Everything that is said of elements later starts
from there.

## Main definitions

* `Site.elementOf`: the element of a declaration, from what its parts say

## Main results

* `attachedJavadoc?_eq_some_iff`: when a site takes a comment
* `siteElement_eq_element_iff`: when a site gives an element, and which one
* `gather_failure_of_exists`: what stops a walk
* `forall₂_elements`: the elements that a walk gathers
-/

namespace Gleaner

section Steps

variable {ε ε' α β : Type}

/-- Two steps succeed if both do. -/
theorem bind_eq_ok_iff {x : Except ε α} {f : α → Except ε β} {b : β} :
    (x >>= f) = .ok b ↔ ∃ a, x = .ok a ∧ f a = .ok b := by
  cases x <;> simp [bind, Except.bind]

/-- Naming a failure does not make one. -/
theorem mapError_eq_ok_iff {x : Except ε α} {f : ε → ε'} {a : α} :
    x.mapError f = .ok a ↔ x = .ok a := by
  cases x <;> simp [Except.mapError]

/-- What is seen of a result, if anything, is seen of a success. -/
theorem exists_ok_of_map_toOption {x : Except ε α} {f : α → β} {b : β}
    (h : x.toOption.map f = some b) : ∃ a, x = .ok a ∧ f a = b := by
  cases x with
  | error e => cases h
  | ok a => exact ⟨a, rfl, Option.some.inj h⟩

end Steps

end Gleaner

namespace Gleaner.Java

open Gleaner.Syntax

variable {file : SourceFile} {lines : List String} {package : Option String} {s : Site}

/-! ## The element of a declaration -/

/-- Whether a declaration has a name. -/
def isNamed (n : Node) : Bool :=
  (n.childByRole? "name").isSome

/-- The node with which an element starts: the comment attached to the declaration, or else the
declaration. -/
def Site.firstNode (s : Site) (javadoc : Option (Node × String)) : Node :=
  (javadoc.map (·.1)).getD s.node

/-- The element of a declaration, from what its parts say. -/
def Site.elementOf (s : Site) (file : SourceFile) (lines : List String) (package : Option String)
    (name signature : String) (javadoc : Option (Node × String)) (enclosingType : Option String) :
    Element where
  name
  kind := .method
  signature := some signature
  documentation := javadoc.bind fun (_, text) => (cleanJavadoc text.toList).map String.ofList
  declarationLine := (s.node.startRow file.bytes + 1 : ℕ)
  startLine := ((s.firstNode javadoc).startRow file.bytes + 1 : ℕ)
  endLine := (s.node.endRow file.bytes + 1 : ℕ)
  context :=
    { filePath := file.filePath
      fileName := file.fileName
      package
      enclosingType
      snippet := Text.snippet lines ((s.firstNode javadoc).startRow file.bytes + 1 : ℕ)
        (s.node.endRow file.bytes + 1 : ℕ) }

/-- The parts of a declaration that has a name: what they say, and that they can be read. -/
structure Site.Parts (s : Site) (file : SourceFile) (name signature : String)
    (javadoc : Option (Node × String)) (enclosingType : Option String) : Prop where
  name : ∃ nameNode, s.node.childByRole? "name" = some nameNode ∧ file.text nameNode = .ok name
  signature : signature? file.bytes s.node = .ok (some signature)
  javadoc : attachedJavadoc? file s = .ok javadoc
  enclosingType : enclosingType? file s.ancestors = .ok enclosingType

/-- A sibling is passed over if it is no comment or ends too far above. -/
theorem passedOver_iff {n sibling : Node} :
    (!isCommentKind sibling.kind ||
        decide ((n.startRow file.bytes : Int) - sibling.endRow file.bytes > maxJavadocGap)) = true ↔
      ¬ (sibling.kind ∈ ["block_comment", "line_comment", "comment"] ∧
        n.startRow file.bytes ≤ sibling.endRow file.bytes + 1) := by
  rw [← List.contains_iff_mem, ← isCommentKind, Bool.or_eq_true, Bool.not_eq_true', decide_eq_true_iff,
    not_and_or, Bool.not_eq_true, maxJavadocGap]
  exact or_congr Iff.rfl (by omega)

/-- **When a site takes a comment**: the sibling before it is a comment, not too far above, with the text of a Javadoc
comment. -/
theorem attachedJavadoc?_eq_some_iff {comment : Node} {text : String} :
    attachedJavadoc? file s = .ok (some (comment, text)) ↔
      s.previous = some comment ∧ comment.kind ∈ ["block_comment", "line_comment", "comment"] ∧
        s.node.startRow file.bytes ≤ comment.endRow file.bytes + 1 ∧
        file.text comment = .ok text ∧ isJavadoc text.toList = true := by
  unfold attachedJavadoc?
  cases hprevious : s.previous with
  | none => exact iff_of_false (fun h => nomatch h) (fun h => nomatch h.1)
  | some sibling =>
    simp only [passedOver_iff]
    split_ifs with h
    · rw [bind_eq_ok_iff]
      constructor
      · rintro ⟨read, hread, hfound⟩
        split_ifs at hfound with hjavadoc
        · cases hfound
          exact ⟨rfl, h.1, h.2, hread, hjavadoc⟩
        · cases hfound
      · rintro ⟨hsibling, -, -, hread, hjavadoc⟩
        obtain rfl := Option.some.inj hsibling
        exact ⟨text, hread, by rw [if_pos hjavadoc]; rfl⟩
    · constructor
      · intro hnone
        cases hnone
      · rintro ⟨hsibling, hkind, hclose, -⟩
        obtain rfl := Option.some.inj hsibling
        exact absurd ⟨hkind, hclose⟩ h

/-- A comment that is attached is the sibling before the declaration. -/
theorem previous_of_attachedJavadoc? {comment : Node} {t : String}
    (h : attachedJavadoc? file s = .ok (some (comment, t))) : s.previous = some comment :=
  (attachedJavadoc?_eq_some_iff.mp h).1

theorem checked_eq_ok_iff {e checked : Element} :
    e.checked = .ok checked ↔ e.WellOrdered ∧ checked = e := by
  unfold Element.checked
  split_ifs with h <;> simp [h, eq_comm]

/-- A declaration without a name gives a note. -/
theorem siteElement_of_unnamed (h : isNamed s.node = false) :
    siteElement file lines package s =
      .ok (.unnamed s.node.kind (s.node.startRow file.bytes + 1)) := by
  have hname : s.node.childByRole? "name" = none := by
    simpa [isNamed] using h
  have hsignature : signature? file.bytes s.node = .ok none := by
    rw [signature?, hname]
    rfl
  unfold siteElement
  rw [hsignature, hname]
  rfl

/-- **What a site gives**: a note if the declaration has no name, else the element put together from
its parts, provided that they can be read and that its lines are in order. -/
theorem siteElement_eq_element_iff {e : Element} :
    siteElement file lines package s = .ok (.element e) ↔
      ∃ name signature javadoc enclosingType,
        s.Parts file name signature javadoc enclosingType ∧
        e = s.elementOf file lines package name signature javadoc enclosingType ∧ e.WellOrdered := by
  unfold siteElement
  simp only [bind_eq_ok_iff, mapError_eq_ok_iff]
  constructor
  · rintro ⟨signature, hsignature, h⟩
    split at h
    · -- the declaration has a name; what is read behind it succeeded step by step
      next signature nameNode hname =>
      simp only [bind_eq_ok_iff, mapError_eq_ok_iff] at h
      obtain ⟨name, htext, javadoc, hjavadoc, enclosingType, henclosing, checked, hchecked, h⟩ := h
      obtain ⟨hordered, rfl⟩ := checked_eq_ok_iff.mp hchecked
      cases h
      refine ⟨name, signature, javadoc, enclosingType,
        ⟨⟨nameNode, hname, htext⟩, hsignature, hjavadoc, henclosing⟩, ?_, hordered⟩
      cases javadoc <;> rfl
    · cases h
  · rintro ⟨name, signature, javadoc, enclosingType, ⟨⟨nameNode, hname, htext⟩, hsignature,
      hjavadoc, henclosing⟩, rfl, hordered⟩
    refine ⟨some signature, hsignature, ?_⟩
    rw [hname]
    simp only [bind_eq_ok_iff, mapError_eq_ok_iff]
    refine ⟨name, htext, javadoc, hjavadoc, enclosingType, henclosing, _,
      checked_eq_ok_iff.mpr ⟨?_, rfl⟩, ?_⟩
    · cases javadoc <;> exact hordered
    · cases javadoc <;> rfl

/-- A declaration with a name has a signature, if its parts can be read. -/
theorem isNamed_eq_false_of_signature? {source : Utf8.Bytes} {declaration : Node}
    (h : signature? source declaration = .ok none) : isNamed declaration = false := by
  unfold signature? at h
  cases hname : declaration.childByRole? "name" with
  | none => simp [isNamed, hname]
  | some nameNode =>
    simp only [hname] at h
    cases hparameters : declaration.childByRole? "parameters" with
    | none =>
      simp only [hparameters, bind_eq_ok_iff] at h
      obtain ⟨_, -, _, -, h⟩ := h
      cases h
    | some parameters =>
      simp only [hparameters, bind_eq_ok_iff] at h
      obtain ⟨_, -, _, -, h⟩ := h
      cases h

/-- Only a declaration without a name gives a note. -/
theorem isNamed_eq_false_of_siteElement {kind : String} {line : ℕ}
    (h : siteElement file lines package s = .ok (.unnamed kind line)) : isNamed s.node = false := by
  unfold siteElement at h
  simp only [bind_eq_ok_iff, mapError_eq_ok_iff] at h
  obtain ⟨signature, hsignature, h⟩ := h
  cases signature with
  | none => exact isNamed_eq_false_of_signature? hsignature
  | some text =>
    cases hname : s.node.childByRole? "name" with
    | none => simp [isNamed, hname]
    | some nameNode =>
      simp only [hname, bind_eq_ok_iff] at h
      obtain ⟨_, -, _, -, _, -, _, -, h⟩ := h
      cases h

/-- **A site gives an element just when its declaration has a name.** -/
theorem isSome_element?_of_siteElement {finding : Finding}
    (h : siteElement file lines package s = .ok finding) :
    finding.element?.isSome = isNamed s.node := by
  cases finding with
  | element e =>
    obtain ⟨_, _, _, _, hparts, -⟩ := siteElement_eq_element_iff.mp h
    obtain ⟨nameNode, hname, -⟩ := hparts.name
    rw [isNamed, hname]
    rfl
  | unnamed kind line => exact (isNamed_eq_false_of_siteElement h).symm

/-! ## What a walk gathers -/

/-- A harvest that nothing stopped has one finding for each stop. -/
theorem gather_forall₂ {sites : List Site}
    (h : (gather file lines package (sites.map .site)).failure = none) :
    List.Forall₂ (fun s finding => siteElement file lines package s = .ok finding) sites
      (gather file lines package (sites.map .site)).findings := by
  induction sites with
  | nil => exact List.Forall₂.nil
  | cons s rest ih =>
    rw [List.map_cons, gather] at h ⊢
    cases hs : siteElement file lines package s with
    | error e =>
      rw [hs] at h
      cases h
    | ok finding =>
      rw [hs] at h
      exact List.Forall₂.cons hs (ih h)

/-- A walk that gives up does not come to an end. -/
theorem gather_failure_of_tooDeep {stops : List Visit} (h : Visit.tooDeep ∈ stops) :
    (gather file lines package stops).failure ≠ none := by
  induction stops with
  | nil => cases h
  | cons v rest ih =>
    cases v with
    | tooDeep =>
      rw [gather]
      exact Option.some_ne_none _
    | site s =>
      have hrest : Visit.tooDeep ∈ rest := by
        rcases List.mem_cons.mp h with hhere | hrest
        · cases hhere
        · exact hrest
      rw [gather]
      cases siteElement file lines package s with
      | error e => exact Option.some_ne_none _
      | ok finding => exact ih hrest

/-- Where each declaration gives something, a walk stops at nothing but its own bound. -/
theorem gather_failure_of_exists {stops : List Visit}
    (h : ∀ s, .site s ∈ stops → ∃ finding, siteElement file lines package s = .ok finding) :
    (.tooDeep ∈ stops ∧ (gather file lines package stops).failure = some .tooDeep) ∨
      (.tooDeep ∉ stops ∧ (gather file lines package stops).failure = none) := by
  induction stops with
  | nil => exact Or.inr ⟨List.not_mem_nil, rfl⟩
  | cons stop rest ih =>
    cases stop with
    | tooDeep => exact Or.inl ⟨List.mem_cons_self, rfl⟩
    | site s =>
      obtain ⟨finding, hfinding⟩ := h s List.mem_cons_self
      rw [gather, hfinding]
      rcases ih fun s hs => h s (List.mem_cons_of_mem _ hs) with ⟨hdeep, hfail⟩ | ⟨hdeep, hfail⟩
      · exact Or.inl ⟨List.mem_cons_of_mem _ hdeep, hfail⟩
      · refine Or.inr ⟨?_, hfail⟩
        rw [List.mem_cons, not_or]
        exact ⟨fun heq => (nomatch heq), hdeep⟩

/-- Each finding comes from a site, whether or not the walk came to an end. -/
theorem exists_site_of_mem_findings {stops : List Visit} {finding : Finding}
    (h : finding ∈ (gather file lines package stops).findings) :
    ∃ s, .site s ∈ stops ∧ siteElement file lines package s = .ok finding := by
  induction stops with
  | nil => cases h
  | cons stop rest ih =>
    cases stop with
    | tooDeep => cases h
    | site s =>
      rw [gather] at h
      cases hs : siteElement file lines package s with
      | error e =>
        rw [hs] at h
        cases h
      | ok found =>
        rw [hs] at h
        rcases List.mem_cons.mp h with rfl | h
        · exact ⟨s, List.mem_cons_self, hs⟩
        · obtain ⟨s', hs', hfinding⟩ := ih h
          exact ⟨s', List.mem_cons_of_mem _ hs', hfinding⟩

/-- The elements among the findings are those of the sites with a name. -/
theorem forall₂_elements {sites : List Site} {findings : List Finding}
    (h : List.Forall₂ (fun s finding => siteElement file lines package s = .ok finding) sites
      findings) :
    List.Forall₂ (fun s e => siteElement file lines package s = .ok (.element e))
      (sites.filter fun s => isNamed s.node) (findings.filterMap Finding.element?) := by
  induction h with
  | nil => exact List.Forall₂.nil
  | @cons s finding _ _ hs _ ih =>
    have hnamed := isSome_element?_of_siteElement hs
    rw [List.filter_cons, ← hnamed]
    cases finding with
    | element e => exact List.Forall₂.cons hs ih
    | unnamed kind line => exact ih

end Gleaner.Java
