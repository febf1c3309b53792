import Gleaner.Proofs.Text.Utf8
import Gleaner.Syntax.Node

/-!
# Trees over a text

What a parser promises of the ranges in its tree: each node lies within the text, from one place
between characters to another, and its children lie inside it, one behind the other. Kinds and roles
are left open, and so is which nodes are named.

The bytes of a node are then those of a part of the text, so that they can be read, and its rows are
the numbers of line feeds before the two ends of that part.

## Main definitions

* `IsBoundary`: a place between characters
* `Node.Nested`: a tree whose ranges are nested and in order, over any bytes
* `Node.Covers`: a tree as a parser makes it over a text

## Main results

* `IsBoundary.exists_part`: what two boundaries cut out of a text
* `Node.Covers.nested`: a tree over a text has nested ranges
* `Node.Covers.exists_text`: the text of a node can be read
-/

namespace Gleaner.Syntax

open Gleaner.Utf8

variable {text : String} {k l : ℕ} {n : Node}

/-! ## Boundaries -/

/-- A place between two characters of a text, or at one of its ends, by the number of bytes before. -/
def IsBoundary (text : String) (k : ℕ) : Prop :=
  ∃ before after, text = before ++ after ∧ (encode before).length = k

/-- Two boundaries divide a text into three parts. -/
theorem IsBoundary.exists_between (hk : IsBoundary text k) (hl : IsBoundary text l) (h : k ≤ l) :
    ∃ before body after, text = before ++ body ++ after ∧ (encode before).length = k ∧
      (encode (before ++ body)).length = l := by
  obtain ⟨before, after, htext, rfl⟩ := hk
  obtain ⟨before', after', htext', rfl⟩ := hl
  have happend : before.toList ++ after.toList = before'.toList ++ after'.toList := by
    rw [← String.toList_append, ← String.toList_append, ← htext, htext']
  rcases List.append_eq_append_iff.mp happend with ⟨body, hbefore', -⟩ | ⟨body, hbefore, -⟩
  · have hparts : before' = before ++ String.ofList body := by
      rw [← String.toList_inj, String.toList_append, String.toList_ofList, hbefore']
    exact ⟨before, String.ofList body, after', by rw [htext', hparts], rfl, by rw [hparts]⟩
  · -- the second boundary is not before the first one, so that nothing lies between them
    have hparts : before = before' ++ String.ofList body := by
      rw [← String.toList_inj, String.toList_append, String.toList_ofList, hbefore]
    have hnone : encode (String.ofList body) = [] := by
      rw [hparts, encode_append, List.length_append] at h
      exact List.length_eq_zero_iff.mp (by omega)
    rw [eq_empty_of_encode hnone, String.append_empty] at hparts
    exact ⟨before, "", after', by rw [htext', hparts, String.append_empty], rfl,
      by rw [hparts, String.append_empty]⟩

theorem rowOf_encode_append (before after : String) :
    rowOf (encode (before ++ after)) (encode before).length = before.toList.count '\n' := by
  rw [rowOf, encode_append, List.take_left, count_lineFeed_encode]

/-- **What two boundaries cut out of a text**: the bytes are those of a part of it, and the rows are
the line feeds before the part and before its end. -/
theorem IsBoundary.exists_part (hk : IsBoundary text k) (hl : IsBoundary text l) (h : k ≤ l) :
    ∃ before body after, text = before ++ body ++ after ∧ cut (encode text) k l = encode body ∧
      rowOf (encode text) k = before.toList.count '\n' ∧
      rowOf (encode text) l = (before ++ body).toList.count '\n' := by
  obtain ⟨before, body, after, rfl, rfl, rfl⟩ := hk.exists_between hl h
  refine ⟨before, body, after, rfl, ?_, ?_, rowOf_encode_append (before ++ body) after⟩
  · simp only [cut, encode_append, List.append_assoc, List.length_append]
    rw [List.drop_left, Nat.add_sub_cancel_left, List.take_left]
  · rw [String.append_assoc, rowOf_encode_append]

/-- Rows do not decrease. -/
theorem rowOf_mono (source : Bytes) (h : k ≤ l) : rowOf source k ≤ rowOf source l :=
  (List.take_sublist_take_left h).count_le _

/-! ## Trees -/

/-- A tree whose ranges are nested and in order: the children of a node lie inside it, one behind the
other. -/
inductive Node.Nested : Node → Prop
  | node {info : Info} {children : List Node} (order : info.start ≤ info.stop)
      (inside : ∀ c ∈ children, info.start ≤ c.info.start ∧ c.info.stop ≤ info.stop)
      (apart : children.Pairwise fun c d => c.info.stop ≤ d.info.start)
      (below : ∀ c ∈ children, c.Nested) :
      Node.Nested (.node info children)

namespace Node.Nested

variable {child : Node}

theorem start_le_stop (h : n.Nested) : n.info.start ≤ n.info.stop := by
  cases h with
  | node order => exact order

theorem of_mem_namedChildren (h : n.Nested) (hchild : child ∈ n.namedChildren) : child.Nested := by
  cases h with
  | node _ _ _ below => exact below child (List.mem_filter.mp hchild).1

/-- A named child lies inside its parent. -/
theorem inside_namedChildren (h : n.Nested) (hchild : child ∈ n.namedChildren) :
    n.info.start ≤ child.info.start ∧ child.info.stop ≤ n.info.stop := by
  cases h with
  | node _ inside => exact inside child (List.mem_filter.mp hchild).1

/-- Named children follow one another. -/
theorem pairwise_namedChildren (h : n.Nested) :
    n.namedChildren.Pairwise fun c d => c.info.stop ≤ d.info.start := by
  cases h with
  | node _ _ apart => exact apart.filter _

end Node.Nested

/-- A tree as a parser makes it over a text. -/
inductive Node.Covers (text : String) : Node → Prop
  | node {info : Info} {children : List Node} (order : info.start ≤ info.stop)
      (first : IsBoundary text info.start) (last : IsBoundary text info.stop)
      (inside : ∀ c ∈ children, info.start ≤ c.info.start ∧ c.info.stop ≤ info.stop)
      (apart : children.Pairwise fun c d => c.info.stop ≤ d.info.start)
      (below : ∀ c ∈ children, c.Covers text) :
      Node.Covers text (.node info children)

namespace Node.Covers

/-- The ranges of a tree over a text are nested and in order. -/
theorem nested (h : n.Covers text) : n.Nested := by
  induction h with
  | node order _ _ inside apart _ ih => exact .node order inside apart ih

theorem isBoundary_start (h : n.Covers text) : IsBoundary text n.info.start := by
  cases h with
  | node _ first => exact first

theorem isBoundary_stop (h : n.Covers text) : IsBoundary text n.info.stop := by
  cases h with
  | node _ _ last => exact last

theorem of_mem_children (h : n.Covers text) {child : Node} (hchild : child ∈ n.children) :
    child.Covers text := by
  cases h with
  | node _ _ _ _ _ below => exact below child hchild

theorem of_mem_namedChildren (h : n.Covers text) {child : Node} (hchild : child ∈ n.namedChildren) :
    child.Covers text :=
  h.of_mem_children (List.mem_filter.mp hchild).1

theorem of_childByRole? (h : n.Covers text) {role : String} {child : Node}
    (hchild : n.childByRole? role = some child) : child.Covers text :=
  h.of_mem_children (List.mem_of_find?_eq_some hchild)

/-- **The text of a node can be read.** -/
theorem exists_text (h : n.Covers text) : ∃ s, n.text (encode text) = .ok s := by
  obtain ⟨_, body, _, -, hcut, -, -⟩ :=
    h.isBoundary_start.exists_part h.isBoundary_stop h.nested.start_le_stop
  exact ⟨body, decode_eq_ok_iff.mpr hcut⟩

end Node.Covers

end Gleaner.Syntax
