import Mathlib.Data.List.Basic
import Mathlib.Data.List.Lex
import Gleaner.Syntax.Node

/-!
# Places in a syntax tree

A node below another is found by its place: level by level the number of the named child to go to.
Anonymous nodes have no place, and nor has what lies below them. Places are compared as words, so
that a place comes before the places below it, and those before the places below a later sibling: the
order of places is the order in which a walk meets the nodes, parents before children.

## Main definitions

* `Node.down?`: the node at a place
* `placesBelow`: the places below a node, in the order of a walk

## Main results

* `placesBelow_eq`: the places below a node by those below its named children
* `mem_placesBelow_iff`: the places below a node are those of its proper descendants
* `pairwise_placesBelow`: they come in order, so that none occurs twice
-/

namespace Gleaner.Syntax

/-- The node at a place below a node, the empty place being its own. -/
def Node.down? : Node → List ℕ → Option Node
  | n, [] => some n
  | n, i :: rest => n.namedChildren[i]?.bind fun child => child.down? rest

mutual

/-- The places below a node: each named child, and right behind it what lies below. -/
def placesBelow : Node → List (List ℕ)
  | .node _ children => placesAmong 0 children

/-- The places of the named ones among sibling nodes, the first of which has the number `i`, and of
what lies below them. -/
def placesAmong (i : ℕ) : List Node → List (List ℕ)
  | [] => []
  | child :: rest =>
    if child.info.named then
      ([i] :: (placesBelow child).map (i :: ·)) ++ placesAmong (i + 1) rest
    else placesAmong i rest

end

/-! ## Named children by their numbers -/

theorem placesAmong_eq (i : ℕ) (nodes : List Node) :
    placesAmong i nodes = ((nodes.filter (·.info.named)).zipIdx i).flatMap fun child =>
      [child.2] :: (placesBelow child.1).map (child.2 :: ·) := by
  induction nodes generalizing i with
  | nil => simp [placesAmong]
  | cons child rest ih =>
    by_cases hnamed : child.info.named = true
    · rw [placesAmong, if_pos hnamed, List.filter_cons, if_pos hnamed, List.zipIdx_cons,
        List.flatMap_cons, ih]
    · rw [placesAmong, if_neg hnamed, List.filter_cons, if_neg hnamed, ih]

/-- **The places below a node**, by those below its named children. -/
theorem placesBelow_eq (n : Node) :
    placesBelow n = n.namedChildren.zipIdx.flatMap fun child =>
      [child.2] :: (placesBelow child.1).map (child.2 :: ·) := by
  obtain ⟨info, children⟩ := n
  rw [placesBelow, placesAmong_eq]
  rfl

/-- A place below a node goes to a named child, and is that child's or lies below it. -/
theorem cons_mem_placesBelow_iff {n : Node} {i : ℕ} {rest : List ℕ} :
    i :: rest ∈ placesBelow n ↔
      ∃ child, n.namedChildren[i]? = some child ∧ (rest = [] ∨ rest ∈ placesBelow child) := by
  rw [placesBelow_eq, List.mem_flatMap]
  constructor
  · rintro ⟨⟨child, k⟩, hchild, hplace⟩
    rw [List.mk_mem_zipIdx_iff_getElem?] at hchild
    rcases List.mem_cons.mp hplace with hhere | hbelow
    · obtain ⟨rfl, rfl⟩ := List.cons.inj hhere
      exact ⟨child, hchild, Or.inl rfl⟩
    · obtain ⟨place, hmem, heq⟩ := List.mem_map.mp hbelow
      obtain ⟨rfl, rfl⟩ := List.cons.inj heq
      exact ⟨child, hchild, Or.inr hmem⟩
  · rintro ⟨child, hchild, hrest⟩
    refine ⟨(child, i), List.mk_mem_zipIdx_iff_getElem?.mpr hchild, ?_⟩
    rcases hrest with rfl | hbelow
    · exact List.mem_cons_self
    · exact List.mem_cons_of_mem _ (List.mem_map_of_mem hbelow)

/-- **The places below a node are those of its proper descendants.** -/
theorem mem_placesBelow_iff {n : Node} {place : List ℕ} :
    place ∈ placesBelow n ↔ place ≠ [] ∧ (n.down? place).isSome := by
  induction place generalizing n with
  | nil =>
    constructor
    · intro hmem
      rw [placesBelow_eq, List.mem_flatMap] at hmem
      obtain ⟨child, -, hplace⟩ := hmem
      rcases List.mem_cons.mp hplace with hhere | hbelow
      · cases hhere
      · obtain ⟨_, -, heq⟩ := List.mem_map.mp hbelow
        cases heq
    · rintro ⟨hne, -⟩
      exact absurd rfl hne
  | cons i rest ih =>
    rw [cons_mem_placesBelow_iff, Node.down?]
    cases hchild : n.namedChildren[i]? with
    | none => simp
    | some child =>
      simp only [Option.some.injEq, exists_eq_left', ih, Option.bind_some]
      by_cases hrest : rest = []
      · simp [hrest, Node.down?]
      · simp [hrest]

/-! ## The order of places -/

/-- The places among siblings start with their numbers. -/
theorem exists_cons_of_mem_placesAmong {i : ℕ} {place : List ℕ} {nodes : List Node}
    (h : place ∈ placesAmong i nodes) : ∃ k rest, place = k :: rest ∧ i ≤ k := by
  rw [placesAmong_eq, List.mem_flatMap] at h
  obtain ⟨⟨child, k⟩, hchild, hplace⟩ := h
  have hk := List.le_snd_of_mem_zipIdx hchild
  rcases List.mem_cons.mp hplace with rfl | hbelow
  · exact ⟨k, [], rfl, hk⟩
  · obtain ⟨rest, -, rfl⟩ := List.mem_map.mp hbelow
    exact ⟨k, rest, rfl, hk⟩

/-- A node comes before what lies below it, and that in order. -/
theorem pairwise_cons_placesBelow {child : Node} (i : ℕ)
    (h : (placesBelow child).Pairwise (· < ·)) :
    ([i] :: (placesBelow child).map (i :: ·)).Pairwise (· < ·) := by
  refine List.pairwise_cons.mpr ⟨?_, ?_⟩
  · intro place hplace
    obtain ⟨below, hbelow, rfl⟩ := List.mem_map.mp hplace
    obtain ⟨k, rest, rfl⟩ := List.exists_cons_of_ne_nil (mem_placesBelow_iff.mp hbelow).1
    exact List.cons_lt_cons_iff.mpr (Or.inr ⟨rfl, List.nil_lt_cons k rest⟩)
  · rw [List.pairwise_map]
    exact h.imp fun hlt => List.cons_lt_cons_iff.mpr (Or.inr ⟨rfl, hlt⟩)

mutual

/-- **Places come in order.** -/
theorem pairwise_placesBelow : ∀ n : Node, (placesBelow n).Pairwise (· < ·)
  | .node _ children => by
    rw [placesBelow]
    exact pairwise_placesAmong 0 children

theorem pairwise_placesAmong : ∀ (i : ℕ) (nodes : List Node),
    (placesAmong i nodes).Pairwise (· < ·)
  | i, [] => by
    rw [placesAmong]
    exact List.Pairwise.nil
  | i, child :: rest => by
    rw [placesAmong]
    split_ifs
    · refine List.pairwise_append.mpr
        ⟨pairwise_cons_placesBelow i (pairwise_placesBelow child), pairwise_placesAmong (i + 1) rest, ?_⟩
      -- a place of this child, against one of a later sibling
      intro place hplace later hlater
      obtain ⟨k, below, rfl, hk⟩ := exists_cons_of_mem_placesAmong hlater
      rcases List.mem_cons.mp hplace with rfl | hbelow
      · exact List.cons_lt_cons_iff.mpr (Or.inl hk)
      · obtain ⟨_, -, rfl⟩ := List.mem_map.mp hbelow
        exact List.cons_lt_cons_iff.mpr (Or.inl hk)
    · exact pairwise_placesAmong i rest

end

end Gleaner.Syntax
