import Gleaner.Proofs.Java.Origin

/-!
# Comments and their declarations

A declaration takes the comment that stands right before it, provided that this is a Javadoc comment and ends no more
than one row above. Its element then starts with the comment and has the cleaned comment for documentation; any other
element starts with its declaration and has none. Whether a comment is taken is a matter of the two places alone. A
comment does not go to a declaration that something else with a place separates it from; so of all declarations it
has one at most to go to, the next behind it among its siblings, however they are nested and whether or not the next
sibling is wanted.

Places tell comments apart. Two comments that say the same and even claim the same bytes are still two.

## Main definitions

* `NearestBefore`: the place of the nearest earlier sibling
* `Documents`: the comment at a place is attached to the declaration at another

## Main results

* `nearestBefore_iff`: the sibling that a site remembers is the nearest earlier one
* `exists_documents_iff`: a site takes the comment that documents its declaration
* `Documents.place_eq`: a comment documents one declaration at most
* `extractMethods_attaches_javadoc`: where the elements of a file start, and what documents them
-/

namespace Gleaner.Java

open Gleaner.Syntax

variable {file : SourceFile} {constructors : Bool} {root n comment comment' : Node} {text text' : String}
  {earlier place place' parent : List ℕ} {i j : ℕ} {s : Site} {es : List Element} {ancestors : List Node}

/-! ## Siblings by their places -/

/-- The place of the nearest earlier sibling: nothing has a place between the two. -/
def NearestBefore (root : Node) (earlier place : List ℕ) : Prop :=
  ∃ parent i j, earlier = parent ++ [i] ∧ place = parent ++ [j] ∧ i < j ∧
    ∀ k, i < k → k < j → root.down? (parent ++ [k]) = none

theorem down?_concat (root : Node) (parent : List ℕ) (i : ℕ) :
    root.down? (parent ++ [i]) = (root.down? parent).bind (·.namedChildren[i]?) := by
  induction parent generalizing root with
  | nil =>
    rw [List.nil_append, Node.down?, Node.down?, Option.bind_some]
    cases root.namedChildren[i]? <;> rfl
  | cons k parent ih =>
    rw [List.cons_append, Node.down?, Node.down?, Option.bind_assoc]
    exact Option.bind_congr fun child _ => ih child

theorem nearestBefore_concat :
    NearestBefore root earlier (parent ++ [j]) ↔
      ∃ i, earlier = parent ++ [i] ∧ i < j ∧ ∀ k, i < k → k < j → root.down? (parent ++ [k]) = none := by
  constructor
  · rintro ⟨parent', i, j', rfl, hplace, hnearest⟩
    obtain ⟨rfl, hj⟩ := List.append_inj' hplace rfl
    obtain rfl := List.singleton_inj.mp hj
    exact ⟨i, rfl, hnearest⟩
  · rintro ⟨i, rfl, hnearest⟩
    exact ⟨parent, i, j, rfl, rfl, hnearest⟩

/-- A site remembers the sibling before it. -/
theorem previous_siteAt? (h : siteAt? ancestors root (parent ++ [i]) = some s) :
    ∃ n, root.down? parent = some n ∧ n.namedChildren[i]? = some s.node ∧
      s.previous = before? n.namedChildren i := by
  induction parent generalizing root ancestors with
  | nil =>
    obtain ⟨child, hchild, rfl⟩ := Option.map_eq_some_iff.mp h
    exact ⟨root, rfl, hchild, rfl⟩
  | cons k parent ih =>
    -- the definition looks one level further, so the rest of the place has to show that it is not empty
    obtain ⟨next, rest, hrest⟩ := List.exists_cons_of_ne_nil (List.append_ne_nil_of_right_ne_nil parent
      (List.cons_ne_nil i []))
    rw [List.cons_append, hrest] at h
    obtain ⟨child, hchild, hs⟩ := Option.bind_eq_some_iff.mp h
    rw [← hrest] at hs
    obtain ⟨n, hdown, hn⟩ := ih hs
    exact ⟨n, by rw [Node.down?, hchild, Option.bind_some, hdown], hn⟩

/-- **The sibling that a site remembers** is the nearest earlier one. -/
theorem nearestBefore_iff (hs : siteAt? [] root place = some s) :
    (∃ earlier, NearestBefore root earlier place ∧ root.down? earlier = some comment) ↔
      s.previous = some comment := by
  obtain rfl | ⟨parent, j, rfl⟩ := List.eq_nil_or_concat place
  · cases hs
  rw [List.concat_eq_append] at hs ⊢
  obtain ⟨n, hparent, hnode, hprevious⟩ := previous_siteAt? hs
  have hsibling : ∀ k, root.down? (parent ++ [k]) = n.namedChildren[k]? := by
    intro k
    rw [down?_concat, hparent, Option.bind_some]
  simp only [hprevious, nearestBefore_concat]
  constructor
  · rintro ⟨_, ⟨i, rfl, hlt, hbetween⟩, hcomment⟩
    -- what stands between has a place, since the site itself is behind it
    obtain rfl : j = i + 1 := by
      by_contra hne
      have hnone := hbetween (i + 1) (by omega) (by omega)
      rw [hsibling, List.getElem?_eq_none_iff] at hnone
      have hbound := (List.getElem?_eq_some_iff.mp hnode).1
      omega
    rw [before?, ← hsibling, hcomment]
  · intro hbefore
    cases j with
    | zero => cases hbefore
    | succ i =>
      refine ⟨parent ++ [i], ⟨i, rfl, Nat.lt_succ_self i, ?_⟩, ?_⟩
      · intro k hik hk
        omega
      · rw [hsibling]
        exact hbefore

/-! ## Attachment -/

/-- The comment at the place `earlier` is attached to the declaration at a place: it is the nearest earlier sibling, its
text is that of a Javadoc comment, and it ends at most one row above. -/
structure Documents (file : SourceFile) (root : Node) (earlier place : List ℕ) (comment : Node)
    (text : String) : Prop where
  nearest : NearestBefore root earlier place
  comment_at : root.down? earlier = some comment
  kind : comment.kind ∈ ["block_comment", "line_comment", "comment"]
  read : file.text comment = .ok text
  isJavadoc : isJavadoc text.toList = true
  close : ∃ n, root.down? place = some n ∧ n.startRow file.bytes ≤ comment.endRow file.bytes + 1

/-- A site takes the comments that are attached to its declaration. -/
theorem exists_documents_iff (hs : siteAt? [] root place = some s) :
    (∃ earlier, Documents file root earlier place comment text) ↔
      attachedJavadoc? file s = .ok (some (comment, text)) := by
  have hnode := down?_of_siteAt? hs
  rw [attachedJavadoc?_eq_some_iff, ← nearestBefore_iff hs]
  constructor
  · rintro ⟨earlier, hnearest, hcomment, hkind, htext, hjavadoc, n, hn, hclose⟩
    obtain rfl := Option.some.inj (hn.symm.trans hnode)
    exact ⟨⟨earlier, hnearest, hcomment⟩, hkind, hclose, htext, hjavadoc⟩
  · rintro ⟨⟨earlier, hnearest, hcomment⟩, hkind, hclose, htext, hjavadoc⟩
    exact ⟨earlier, hnearest, hcomment, hkind, htext, hjavadoc, s.node, hnode, hclose⟩

/-- **A comment documents one declaration at most**: of two, the first would stand between. -/
theorem Documents.place_eq (h : Documents file root earlier place comment text)
    (h' : Documents file root earlier place' comment' text') : place = place' := by
  obtain ⟨parent, i, j, rfl, rfl, hlt, hbetween⟩ := h.nearest
  obtain ⟨parent', i', j', hearlier, rfl, hlt', hbetween'⟩ := h'.nearest
  obtain ⟨rfl, hi⟩ := List.append_inj' hearlier rfl
  obtain rfl := List.singleton_inj.mp hi
  obtain ⟨n, hn, -⟩ := h.close
  obtain ⟨n', hn', -⟩ := h'.close
  rcases Nat.lt_trichotomy j j' with hless | rfl | hless
  · rw [hbetween' j hlt hless] at hn
    cases hn
  · rfl
  · rw [hbetween j' hlt' hless] at hn'
    cases hn'

/-- A comment behind which there is another sibling documents nothing behind that one. -/
theorem not_documents_of_between {k : ℕ} (hik : i < k) (hkj : k < j)
    (hbetween : (root.down? (parent ++ [k])).isSome) :
    ¬ Documents file root (parent ++ [i]) (parent ++ [j]) comment text := by
  intro h
  obtain ⟨i', hearlier, -, hnone⟩ := nearestBefore_concat.mp h.nearest
  obtain rfl : i = i' := List.singleton_inj.mp (List.append_cancel_left hearlier)
  rw [hnone k hik hkj] at hbetween
  cases hbetween

/-- A comment that is no Javadoc comment documents nothing. -/
theorem not_documents_of_not_isJavadoc {t : String} (hn : root.down? earlier = some n)
    (ht : file.text n = .ok t) (hjavadoc : isJavadoc t.toList = false) :
    ¬ Documents file root earlier place comment text := by
  intro h
  obtain rfl := Option.some.inj (h.comment_at.symm.trans hn)
  obtain rfl := Except.ok.inj (h.read.symm.trans ht)
  rw [h.isJavadoc] at hjavadoc
  cases hjavadoc

/-- Where an element starts, and what documents it: a comment gives both, or there is none and the element starts with
its declaration. -/
def StartsAt (file : SourceFile) (root : Node) (place : List ℕ) (e : Element) : Prop :=
  (∃ earlier comment text, Documents file root earlier place comment text ∧
      e.startLine = (comment.startRow file.bytes + 1 : ℕ) ∧
      e.documentation = (cleanJavadoc text.toList).map String.ofList) ∨
    (∀ earlier comment text, ¬ Documents file root earlier place comment text) ∧
      e.startLine = e.declarationLine ∧ e.documentation = none

theorem StemsFrom.startsAt {e : Element} (h : StemsFrom file root place e) :
    StartsAt file root place e := by
  obtain ⟨s, lines, package, name, signature, javadoc, enclosingType, hs, hparts, rfl⟩ :=
    h.exists_parts
  cases javadoc with
  | some found =>
    obtain ⟨comment, text⟩ := found
    obtain ⟨earlier, hdocuments⟩ := (exists_documents_iff hs).mpr hparts.javadoc
    refine .inl ⟨earlier, comment, text, hdocuments, ?_, ?_⟩
    · rw [Site.elementOf, Site.firstNode, Option.map_some, Option.getD_some]
    · rw [Site.elementOf, Option.bind_some]
  | none =>
    refine .inr ⟨fun earlier comment text hdocuments => ?_, ?_, ?_⟩
    · have hfound := (exists_documents_iff hs).mp ⟨earlier, hdocuments⟩
      cases hfound.symm.trans hparts.javadoc
    · rw [Site.elementOf, Site.firstNode, Option.map_none, Option.getD_none]
    · rw [Site.elementOf, Option.bind_none]

/-- **Where the elements of a file start, and what documents them.** An element whose declaration has a comment
attached starts with that comment and is documented by it; any other starts with its declaration and is not
documented. No comment is attached to two declarations, none to a declaration that another sibling separates it
from, and none that is no Javadoc comment to any. -/
theorem extractMethods_attaches_javadoc
    (h : (extractMethods file root constructors).elements = .ok es) :
    List.Forall₂ (fun place e => StemsFrom file root place e ∧ StartsAt file root place e)
      (declarationsBelow constructors root) es ∧
    (∀ earlier place place' comment comment' text text',
      Documents file root earlier place comment text →
      Documents file root earlier place' comment' text' → place = place') ∧
    (∀ parent i k j comment text, i < k → k < j → (root.down? (parent ++ [k])).isSome →
      ¬ Documents file root (parent ++ [i]) (parent ++ [j]) comment text) ∧
    ∀ earlier n t, root.down? earlier = some n → file.text n = .ok t → isJavadoc t.toList = false →
      ∀ place comment text, ¬ Documents file root earlier place comment text := by
  refine ⟨(forall₂_stemsFrom h).imp fun place e hstem => ⟨hstem, hstem.startsAt⟩, ?_, ?_, ?_⟩
  · exact fun _ _ _ _ _ _ _ => Documents.place_eq
  · exact fun _ _ _ _ _ _ hik hkj => not_documents_of_between hik hkj
  · exact fun _ _ _ hn ht hjavadoc _ _ _ => not_documents_of_not_isJavadoc hn ht hjavadoc

/-- Three methods: behind a Javadoc comment, behind another comment, and behind a Javadoc comment and a field. -/
def commentedTree : Node :=
  let method (start stop : ℕ) : Node := .node ⟨"method_declaration", start, stop, true, false, false, none⟩
    [.node ⟨"identifier", start, stop, true, false, false, some "name"⟩ []]
  let other (kind : String) (start stop : ℕ) : Node := .node ⟨kind, start, stop, true, false, false, none⟩ []
  .node ⟨"class_body", 0, 34, true, false, false, none⟩
    [other "block_comment" 0 8, method 9 10, other "block_comment" 11 18, method 19 20,
      other "block_comment" 21 29, other "field_declaration" 30 31, method 32 33]

/-- The file of that tree. -/
def commentedFile : SourceFile :=
  ⟨Utf8.encode "/** d */\nf\n/* n */\ng\n/** s */\nx\nh\n", "A.java", "A.java"⟩

/-- Only the first method is documented; the comment before the field goes to nothing. -/
theorem extractMethods_attaches_javadoc_of_three :
    ∃ es, (extractMethods commentedFile commentedTree false).elements = .ok es ∧
      es.map (fun e => (e.name, e.startLine, e.declarationLine, e.documentation)) =
        [("f", 1, 2, some "d"), ("g", 4, 4, none), ("h", 7, 7, none)] ∧
      List.Forall₂ (StartsAt commentedFile commentedTree) [[1], [3], [6]] es ∧
      ∀ comment text, ¬ Documents commentedFile commentedTree [4] [6] comment text := by
  have hlines : (extractMethods commentedFile commentedTree false).elements.toOption.map
      (·.map fun e => (e.name, e.startLine, e.declarationLine, e.documentation)) =
      some [("f", 1, 2, some "d"), ("g", 4, 4, none), ("h", 7, 7, none)] := by decide +kernel
  have hplaces : declarationsBelow false commentedTree = [[1], [3], [6]] := by decide +kernel
  obtain ⟨es, hes, hlines⟩ := exists_ok_of_map_toOption hlines
  obtain ⟨hstarts, -, hbetween, -⟩ := extractMethods_attaches_javadoc hes
  rw [hplaces] at hstarts
  refine ⟨es, hes, hlines, hstarts.imp fun _ _ hstart => hstart.2, fun comment text => ?_⟩
  exact hbetween [] 4 5 6 comment text (by decide) (by decide) rfl

end Gleaner.Java
