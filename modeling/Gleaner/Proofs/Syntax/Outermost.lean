import Mathlib.Data.List.Forall2
import Mathlib.Data.List.Lex
import Gleaner.Proofs.Syntax.Range
import Gleaner.Syntax.Problem

/-!
# The problems of a tree are its outermost ones

The search for problems keeps a stack and goes down only where a node is marked. Put on the stack in the
order of the source, the children of a node are searched before what was below it on the stack; so the
search is a walk that takes each parent before its children and each child before the next one. What it finds
on a stack is what it finds at each node of the stack, one after the other.

The marks are the parser's. Where a node is marked just if there is a problem in its subtree, a node that is
passed over hides none, and the walk meets exactly the problems that no other problem lies above. Places are
counted among all children here, since a missing token is anonymous.

## Main definitions

* `located`: what a walk finds from a node on, by the children of the node
* `Node.at?`: the node at a place, anonymous nodes included
* `Node.OutermostAt`, `outermost`: the places of problems with no problem above them
* `Node.Flagged`: a tree whose marks tell where its problems are

## Main results

* `search_eq_flatMap`: the search with a stack is the walk
* `mem_outermost_iff`, `pairwise_outermost`: the outermost problems, in the order of the source
* `Node.Flagged.forall₂_located`: none of them is lost where nodes are passed over
* `pairwise_notBehind_located`: rows do not decrease
* `problems_lists_outermost`: the problems of a tree
-/

namespace Gleaner.Syntax

open Gleaner.Utf8 (Bytes)

variable {source : Bytes} {n root child : Node} {place rest : List ℕ} {i : ℕ}

/-- Induction over a tree, from the children of a node to the node. -/
theorem Node.induction_children {motive : Node → Prop}
    (step : ∀ n : Node, (∀ c ∈ n.children, motive c) → motive n) (n : Node) : motive n := by
  refine @Node.rec motive (fun children => ∀ c ∈ children, motive c) ?_ ?_ ?_ n
  · intro info children hchildren
    exact step (.node info children) hchildren
  · intro c hc
    cases hc
  · intro first later hfirst hlater
    exact List.forall_mem_cons.mpr ⟨hfirst, hlater⟩

/-! ## The walk -/

mutual

/-- The problems from a node on: the node itself if it is one, and else those of its children that may hold
one, from left to right. -/
def located (source : Bytes) : Node → List Problem
  | .node info children =>
    if (Node.node info children).isProblem then [problemAt source (.node info children)]
    else locatedAmong source children

/-- The problems from sibling nodes on, as far as they may hold one. -/
def locatedAmong (source : Bytes) : List Node → List Problem
  | [] => []
  | child :: rest =>
    (if child.isSuspect then located source child else []) ++ locatedAmong source rest

end

theorem locatedAmong_eq (source : Bytes) (nodes : List Node) :
    locatedAmong source nodes = (nodes.filter Node.isSuspect).flatMap (located source) := by
  induction nodes with
  | nil => simp [locatedAmong]
  | cons child rest ih =>
    rw [locatedAmong, ih, List.filter_cons]
    split_ifs
    · rw [List.flatMap_cons]
    · rw [List.nil_append]

/-- **What a walk finds from a node on**, by the children of the node. -/
theorem located_eq (source : Bytes) (n : Node) :
    located source n = if n.isProblem then [problemAt source n]
      else (n.children.filter Node.isSuspect).flatMap (located source) := by
  obtain ⟨info, children⟩ := n
  rw [located, locatedAmong_eq]
  rfl

/-- **The search with a stack is the walk** over each node of the stack, from the top down. -/
theorem search_eq_flatMap (source : Bytes) (stack : List Node) :
    search source stack = stack.flatMap (located source) := by
  fun_induction search source stack with
  | case1 => rfl
  | case2 n rest hproblem ih => rw [ih, List.flatMap_cons, located_eq, if_pos hproblem, List.singleton_append]
  | case3 n rest hproblem ih =>
    -- the children come to lie above the rest of the stack, so that they are searched first
    rw [ih, List.flatMap_append, List.flatMap_cons, located_eq, if_neg hproblem]

theorem search_singleton (source : Bytes) (root : Node) : search source [root] = located source root := by
  rw [search_eq_flatMap, List.flatMap_singleton]

/-! ## Outermost problems -/

/-- The node at a place below a node, where all children count. -/
def Node.at? : Node → List ℕ → Option Node
  | n, [] => some n
  | n, i :: rest => n.children[i]?.bind fun child => child.at? rest

/-- **A problem with no problem above it** stands at a place. -/
def Node.OutermostAt (root : Node) (place : List ℕ) : Prop :=
  ∃ n, root.at? place = some n ∧ n.isProblem = true ∧
    ∀ above, above <+: place → above ≠ place → ∀ m, root.at? above = some m → m.isProblem = false

mutual

/-- The places of the outermost problems of a tree. -/
def outermost : Node → List (List ℕ)
  | .node info children =>
    if (Node.node info children).isProblem then [[]] else outermostAmong 0 children

/-- The places of the outermost problems below sibling nodes, the first of which has the number `i`. -/
def outermostAmong (i : ℕ) : List Node → List (List ℕ)
  | [] => []
  | child :: rest => (outermost child).map (i :: ·) ++ outermostAmong (i + 1) rest

end

theorem outermostAmong_eq (i : ℕ) (nodes : List Node) :
    outermostAmong i nodes =
      (nodes.zipIdx i).flatMap fun child => (outermost child.1).map (child.2 :: ·) := by
  induction nodes generalizing i with
  | nil => simp [outermostAmong]
  | cons child rest ih => rw [outermostAmong, ih, List.zipIdx_cons, List.flatMap_cons]

theorem outermost_eq (n : Node) :
    outermost n = if n.isProblem then [[]]
      else n.children.zipIdx.flatMap fun child => (outermost child.1).map (child.2 :: ·) := by
  obtain ⟨info, children⟩ := n
  rw [outermost, outermostAmong_eq]
  rfl

theorem nil_mem_outermost_iff : [] ∈ outermost n ↔ n.isProblem = true := by
  rw [outermost_eq]
  split_ifs with hproblem
  · simp [hproblem]
  · simp [hproblem]

theorem cons_mem_outermost_iff :
    i :: rest ∈ outermost n ↔ n.isProblem = false ∧
      ∃ child, n.children[i]? = some child ∧ rest ∈ outermost child := by
  rw [outermost_eq]
  split_ifs with hproblem
  · simp [hproblem]
  · simp only [hproblem, true_and, List.mem_flatMap, List.mem_map, List.cons.injEq]
    constructor
    · rintro ⟨⟨child, k⟩, hchild, below, hbelow, rfl, rfl⟩
      exact ⟨child, List.mk_mem_zipIdx_iff_getElem?.mp hchild, hbelow⟩
    · rintro ⟨child, hchild, hrest⟩
      exact ⟨(child, i), List.mk_mem_zipIdx_iff_getElem?.mpr hchild, rest, hrest, rfl, rfl⟩

theorem outermostAt_nil_iff : n.OutermostAt [] ↔ n.isProblem = true := by
  constructor
  · rintro ⟨m, hm, hproblem, -⟩
    cases hm
    exact hproblem
  · intro hproblem
    refine ⟨n, rfl, hproblem, fun above habove hne => ?_⟩
    exact absurd (List.prefix_nil.mp habove) hne

/-- Below a node that is no problem, a problem is outermost in the tree if it is in the tree of the child. -/
theorem outermostAt_cons_iff :
    n.OutermostAt (i :: rest) ↔ n.isProblem = false ∧
      ∃ child, n.children[i]? = some child ∧ child.OutermostAt rest := by
  constructor
  · rintro ⟨m, hm, hproblem, hfirst⟩
    obtain ⟨child, hchild, hrest⟩ := Option.bind_eq_some_iff.mp hm
    refine ⟨hfirst [] List.nil_prefix (List.cons_ne_nil i rest).symm n rfl, child, hchild, m, hrest,
      hproblem, fun above habove hne m' hm' => ?_⟩
    apply hfirst (i :: above)
    · exact List.cons_prefix_cons.mpr ⟨rfl, habove⟩
    · exact fun heq => hne (List.cons.inj heq).2
    · rw [Node.at?, hchild, Option.bind_some, hm']
  · rintro ⟨hnone, child, hchild, m, hm, hproblem, hfirst⟩
    refine ⟨m, by rw [Node.at?, hchild, Option.bind_some, hm], hproblem, ?_⟩
    intro above habove hne m' hm'
    cases above with
    | nil =>
      cases hm'
      exact hnone
    | cons k above =>
      obtain ⟨rfl, hshorter⟩ := List.cons_prefix_cons.mp habove
      rw [Node.at?, hchild, Option.bind_some] at hm'
      exact hfirst above hshorter (fun heq => hne (congrArg _ heq)) m' hm'

/-- **The outermost problems of a tree.** -/
theorem mem_outermost_iff : place ∈ outermost root ↔ root.OutermostAt place := by
  induction place generalizing root with
  | nil => rw [nil_mem_outermost_iff, outermostAt_nil_iff]
  | cons i rest ih => simp only [cons_mem_outermost_iff, outermostAt_cons_iff, ih]

/-- **They come in the order of the source**, so that none occurs twice. -/
theorem pairwise_outermost (root : Node) : (outermost root).Pairwise (· < ·) := by
  induction root using Node.induction_children with
  | step n ih =>
    rw [outermost_eq]
    split_ifs
    · exact List.pairwise_singleton _ _
    · refine List.pairwise_flatMap.mpr ⟨fun child hchild => ?_, ?_⟩
      · -- below one child, by the order there
        rw [List.pairwise_map]
        refine (ih child.1 (List.fst_mem_of_mem_zipIdx hchild)).imp fun hlt => ?_
        exact List.cons_lt_cons_iff.mpr (.inr ⟨rfl, hlt⟩)
      · -- below two children, by their numbers
        have hnumbers : n.children.zipIdx.Pairwise fun c d => c.2 < d.2 := by
          rw [← List.pairwise_map, List.zipIdx_map_snd]
          exact List.pairwise_lt_range'
        refine hnumbers.imp fun hlt p hp q hq => ?_
        obtain ⟨_, -, rfl⟩ := List.mem_map.mp hp
        obtain ⟨_, -, rfl⟩ := List.mem_map.mp hq
        exact List.cons_lt_cons_iff.mpr (.inl hlt)

/-- There is an outermost problem if there is one at all. -/
theorem outermost_ne_nil {below : List ℕ} {m : Node} (h : n.at? below = some m)
    (hproblem : m.isProblem = true) : outermost n ≠ [] := by
  induction below generalizing n with
  | nil =>
    cases h
    exact List.ne_nil_of_mem (nil_mem_outermost_iff.mpr hproblem)
  | cons i rest ih =>
    cases hn : n.isProblem with
    | true => exact List.ne_nil_of_mem (nil_mem_outermost_iff.mpr hn)
    | false =>
      obtain ⟨child, hchild, hrest⟩ := Option.bind_eq_some_iff.mp h
      obtain ⟨place, hplace⟩ := List.exists_mem_of_ne_nil _ (ih hrest)
      exact List.ne_nil_of_mem (cons_mem_outermost_iff.mpr ⟨hn, child, hchild, hplace⟩)

theorem exists_problem_iff :
    (∃ below m, n.at? below = some m ∧ m.isProblem = true) ↔ outermost n ≠ [] := by
  constructor
  · rintro ⟨below, m, hm, hproblem⟩
    exact outermost_ne_nil hm hproblem
  · intro hne
    obtain ⟨place, hplace⟩ := List.exists_mem_of_ne_nil _ hne
    obtain ⟨m, hm, hproblem, -⟩ := mem_outermost_iff.mp hplace
    exact ⟨place, m, hm, hproblem⟩

/-! ## Marks -/

/-- **The marks tell where the problems are**: each node is marked just if there is a problem in its subtree,
at the node itself or below it. -/
def Node.Flagged (root : Node) : Prop :=
  ∀ place n, root.at? place = some n →
    (n.info.hasError = true ↔ ∃ below m, n.at? below = some m ∧ m.isProblem = true)

theorem flagged_iff : n.Flagged ↔
    (n.info.hasError = true ↔ outermost n ≠ []) ∧ ∀ c ∈ n.children, c.Flagged := by
  constructor
  · intro h
    refine ⟨(h [] n rfl).trans exists_problem_iff, fun c hc place m hm => ?_⟩
    obtain ⟨i, hi⟩ := List.getElem?_of_mem hc
    exact h (i :: place) m (by rw [Node.at?, hi, Option.bind_some, hm])
  · rintro ⟨hhere, hbelow⟩ place m hm
    cases place with
    | nil =>
      cases hm
      exact hhere.trans exists_problem_iff.symm
    | cons i rest =>
      obtain ⟨child, hchild, hrest⟩ := Option.bind_eq_some_iff.mp hm
      exact hbelow child (List.mem_of_getElem? hchild) rest m hrest

/-- The problem found at a place. -/
def FoundAt (source : Bytes) (root : Node) (place : List ℕ) (p : Problem) : Prop :=
  ∃ n, root.at? place = some n ∧ p = problemAt source n

/-- Among siblings, a node that is not marked has no problem, and is passed over. -/
theorem forall₂_locatedAmong {nodes : List Node} (hsiblings : ∀ k, nodes[k]? = n.children[i + k]?)
    (hflagged : ∀ c ∈ nodes, c.Flagged)
    (hfound : ∀ c ∈ nodes, List.Forall₂ (FoundAt source c) (outermost c) (located source c)) :
    List.Forall₂ (FoundAt source n) (outermostAmong i nodes) (locatedAmong source nodes) := by
  induction nodes generalizing i with
  | nil =>
    rw [outermostAmong, locatedAmong]
    exact List.Forall₂.nil
  | cons child rest ih =>
    have hchild : n.children[i]? = some child := (hsiblings 0).symm
    have hrest : ∀ k, rest[k]? = n.children[i + 1 + k]? := by
      intro k
      rw [Nat.add_assoc, Nat.add_comm 1 k]
      exact hsiblings (k + 1)
    rw [outermostAmong, locatedAmong]
    refine List.rel_append ?_ (ih hrest (fun c hc => hflagged c (List.mem_cons_of_mem child hc))
      fun c hc => hfound c (List.mem_cons_of_mem child hc))
    split_ifs with hsuspect
    · rw [List.forall₂_map_left_iff]
      refine (hfound child List.mem_cons_self).imp fun place p => ?_
      rintro ⟨m, hm, rfl⟩
      exact ⟨m, by rw [Node.at?, hchild, Option.bind_some, hm], rfl⟩
    · have hmark := (flagged_iff.mp (hflagged child List.mem_cons_self)).1
      have hnone : outermost child = [] := by
        by_contra hne
        exact hsuspect (by rw [Node.isSuspect, hmark.mpr hne, Bool.true_or])
      rw [hnone]
      exact List.Forall₂.nil

/-- **None is lost where nodes are passed over**: the walk finds the outermost problems, each at its
place. -/
theorem Node.Flagged.forall₂_located (h : root.Flagged) (source : Bytes) :
    List.Forall₂ (FoundAt source root) (outermost root) (located source root) := by
  induction root using Node.induction_children with
  | step n ih =>
    have hbelow := (flagged_iff.mp h).2
    obtain ⟨info, children⟩ := n
    rw [outermost, located]
    split_ifs
    · exact List.Forall₂.cons ⟨_, rfl, rfl⟩ List.Forall₂.nil
    · apply forall₂_locatedAmong
      · exact fun k => by rw [Nat.zero_add]; rfl
      · exact hbelow
      · exact fun c hc => ih c hc (hbelow c hc)

/-! ## Rows -/

/-- A problem that a walk finds stands within the node where the walk starts. -/
theorem exists_line_of_mem_located (h : n.Nested) {p : Problem} (hp : p ∈ located source n) :
    ∃ k, n.info.start ≤ k ∧ k ≤ n.info.stop ∧ p.line = some (rowOf source k + 1 : ℤ) := by
  induction h with
  | @node info children order inside apart below ih =>
    rw [located_eq] at hp
    split_ifs at hp
    · obtain rfl := List.mem_singleton.mp hp
      exact ⟨info.start, le_rfl, order, rfl⟩
    · obtain ⟨c, hc, hp⟩ := List.mem_flatMap.mp hp
      have hchild : c ∈ children := (List.mem_filter.mp hc).1
      obtain ⟨k, hstart, hstop, hline⟩ := ih c hchild hp
      obtain ⟨hfirst, hlast⟩ := inside c hchild
      exact ⟨k, hfirst.trans hstart, hstop.trans hlast, hline⟩

/-- The line of a problem is not behind that of another one. -/
def Problem.NotBehind (p q : Problem) : Prop :=
  ∃ k l, p.line = some k ∧ q.line = some l ∧ k ≤ l

/-- **Rows do not decrease** along what a walk finds in a tree with ranges in order. -/
theorem pairwise_notBehind_located (h : n.Nested) :
    (located source n).Pairwise Problem.NotBehind := by
  induction h with
  | @node info children order inside apart below ih =>
    rw [located_eq]
    split_ifs
    · exact List.pairwise_singleton _ _
    · refine List.pairwise_flatMap.mpr ⟨fun c hc => ih c (List.mem_filter.mp hc).1, ?_⟩
      -- what is found in one child stands before the end of it, and so before the start of the next one
      refine (apart.filter _).imp_of_mem fun hc hd hapart p hp q hq => ?_
      obtain ⟨k, -, hk, hline⟩ := exists_line_of_mem_located (below _ (List.mem_filter.mp hc).1) hp
      obtain ⟨l, hl, -, hline'⟩ := exists_line_of_mem_located (below _ (List.mem_filter.mp hd).1) hq
      have hrows := rowOf_mono source (hk.trans (hapart.trans hl))
      exact ⟨_, _, hline, hline', by omega⟩

/-! ## The problems of a tree -/

theorem problems_eq (source : Bytes) (root : Node) :
    problems source root =
      if root.info.hasError = true then
        if located source root = [] then [unlocated] else located source root
      else [] := by
  rw [problems, search_singleton]
  split_ifs with herror hnone
  · rw [hnone]
  · cases hlocated : located source root with
    | nil => exact absurd hlocated hnone
    | cons p ps => rfl
  · rfl

/-- **The problems of a tree.** There are some just if the root is marked. They are then what the walk finds
that takes each parent before its children, and the search with a stack finds the same; only where it finds
nothing, there is a single problem without a place. If the marks tell where the problems are, then each
outermost problem of the whole tree is listed, anonymous nodes included, and nothing else is: one for each
place, in the order of the places, all of them with a line. And if the ranges of the tree are nested and in
order, the lines do not decrease. -/
theorem problems_lists_outermost (source : Bytes) (root : Node) :
    (problems source root = [] ↔ root.info.hasError = false) ∧
    (root.info.hasError = true → search source [root] = located source root ∧
      problems source root =
        if located source root = [] then [unlocated] else located source root) ∧
    (root.Flagged →
      (∀ place, place ∈ outermost root ↔ root.OutermostAt place) ∧
      (outermost root).Pairwise (· < ·) ∧
      List.Forall₂ (FoundAt source root) (outermost root) (problems source root) ∧
      ∀ p ∈ problems source root, p.line ≠ none) ∧
    (root.Nested → (problems source root).Pairwise Problem.NotBehind) := by
  refine ⟨?_, fun herror => ⟨search_singleton source root, ?_⟩, fun hflagged => ?_, fun hnested => ?_⟩
  · rw [problems_eq]
    split_ifs with herror hnone
    · simp [herror]
    · simp [herror, hnone]
    · simpa using herror
  · rw [problems_eq, if_pos herror]
  · have hfound : List.Forall₂ (FoundAt source root) (outermost root) (problems source root) := by
      have hwalk := hflagged.forall₂_located source
      have hmark := (flagged_iff.mp hflagged).1
      rw [problems_eq]
      split_ifs with herror hnone
      · -- a root that is marked has an outermost problem, which the walk finds
        rw [hnone] at hwalk
        cases hempty : outermost root with
        | nil => exact absurd hempty (hmark.mp herror)
        | cons place places =>
          rw [hempty] at hwalk
          cases hwalk
      · exact hwalk
      · have hempty : outermost root = [] := by
          by_contra hne
          exact herror (hmark.mpr hne)
        rw [hempty]
        exact List.Forall₂.nil
    refine ⟨fun place => mem_outermost_iff, pairwise_outermost root, hfound, fun p hp => ?_⟩
    -- seen from the problems, each comes from a node, whose row it tells
    have hlines : List.Forall₂ (fun p place => p.line ≠ none ∧ FoundAt source root place p)
        (problems source root) (outermost root) := by
      apply hfound.flip.imp
      rintro p place ⟨n, hn, rfl⟩
      exact ⟨Option.some_ne_none _, n, hn, rfl⟩
    exact ((List.forall₂_and_left _ _).mp hlines).1 p hp
  · rw [problems_eq]
    split_ifs
    · exact List.pairwise_singleton _ _
    · exact pairwise_notBehind_located hnested
    · exact List.Pairwise.nil

/-- An `ERROR` with a missing node inside, a comment, and a statement with a missing token at its end. -/
def twoProblems : Node :=
  .node ⟨"program", 0, 5, true, false, true, none⟩
    [.node ⟨"ERROR", 0, 1, true, false, true, none⟩
        [.node ⟨"identifier", 1, 1, true, true, true, none⟩ []],
      .node ⟨"comment", 2, 3, true, false, false, none⟩ [],
      .node ⟨"statement", 4, 5, true, false, true, none⟩
        [.node ⟨";", 5, 5, false, true, true, none⟩ []]]

theorem flagged_twoProblems : twoProblems.Flagged := by
  have hleaf : ∀ info : Info, (info.hasError = true ↔ outermost (.node info []) ≠ []) →
      (Node.node info []).Flagged := by
    intro info hmark
    exact flagged_iff.mpr ⟨hmark, fun c hc => absurd hc List.not_mem_nil⟩
  refine flagged_iff.mpr ⟨by decide +kernel, List.forall_mem_cons.mpr ⟨?_, List.forall_mem_cons.mpr
    ⟨?_, List.forall_mem_singleton.mpr ?_⟩⟩⟩
  · exact flagged_iff.mpr
      ⟨by decide +kernel, List.forall_mem_singleton.mpr (hleaf _ (by decide +kernel))⟩
  · exact hleaf _ (by decide +kernel)
  · exact flagged_iff.mpr
      ⟨by decide +kernel, List.forall_mem_singleton.mpr (hleaf _ (by decide +kernel))⟩

theorem nested_twoProblems : twoProblems.Nested := by
  have hleaf : ∀ info : Info, info.start ≤ info.stop → (Node.node info []).Nested := by
    intro info horder
    exact .node horder (fun c hc => absurd hc List.not_mem_nil) .nil fun c hc => absurd hc List.not_mem_nil
  refine .node (by decide) (by decide) (by decide) (List.forall_mem_cons.mpr
    ⟨?_, List.forall_mem_cons.mpr ⟨?_, List.forall_mem_singleton.mpr ?_⟩⟩)
  · exact .node (by decide) (by decide) (by decide)
      (List.forall_mem_singleton.mpr (hleaf _ (by decide)))
  · exact hleaf _ (by decide)
  · exact .node (by decide) (by decide) (by decide)
      (List.forall_mem_singleton.mpr (hleaf _ (by decide)))

/-- The missing node inside the `ERROR` is not listed, the anonymous token is. -/
theorem problems_lists_anonymous_token :
    twoProblems.Flagged ∧ twoProblems.Nested ∧ outermost twoProblems = [[0], [2, 0]] ∧
      (problems [0x61, 0x0a, 0x62, 0x0a, 0x63] twoProblems).length = 2 ∧
      (∀ p ∈ problems [0x61, 0x0a, 0x62, 0x0a, 0x63] twoProblems, p.line ≠ none) ∧
      (problems [0x61, 0x0a, 0x62, 0x0a, 0x63] twoProblems).Pairwise Problem.NotBehind := by
  obtain ⟨-, -, hlists, horder⟩ := problems_lists_outermost [0x61, 0x0a, 0x62, 0x0a, 0x63] twoProblems
  obtain ⟨-, -, hfound, hlines⟩ := hlists flagged_twoProblems
  have hplaces : outermost twoProblems = [[0], [2, 0]] := by decide +kernel
  refine ⟨flagged_twoProblems, nested_twoProblems, hplaces, ?_, hlines, horder nested_twoProblems⟩
  rw [← hfound.length_eq, hplaces]
  rfl

end Gleaner.Syntax
