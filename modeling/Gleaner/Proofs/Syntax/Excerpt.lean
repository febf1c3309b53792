import Gleaner.Proofs.Text.InLine
import Gleaner.Proofs.Text.Words
import Gleaner.Syntax.Problem

/-!
# What syntax problems say

A problem quotes the source text at which it stands, and the author of the source decides what that text
is. The quotation is made of the words of the text with one ordinary blank between them, cut where it gets
long, so that its layout is lost: it has no blank but single ordinary ones, and its length is bounded.

The only other part of a wording that is not constant is the kind of a missing node. Kinds come from the
grammar and not from the source; `Node.KindsInLine` says that the grammar has none with a line feed.

## Main definitions

* `IsExcerpt`: what a quotation may look like
* `Node.KindsInLine`: all kinds of a tree are in one line
* `Wording`: what a problem may say

## Main results

* `isExcerpt_excerpt`: what is quoted, whatever the source says there
* `problems_wording`: what the problems of a tree say
* `Wording.inLine`: all of that is in one line
-/

namespace Gleaner.Syntax

open Gleaner.Text
open Gleaner.Utf8 (Bytes)

variable {source : Bytes} {n root : Node} {message : String}

/-! ## Excerpts -/

/-- What a quotation from the source may look like: no blank but single ordinary ones, and forty
characters at most, with dots behind them or not. -/
structure IsExcerpt (cs : List Char) : Prop where
  spaced : SingleSpaced cs
  bounded : ∃ kept, kept.length ≤ 40 ∧ (cs = kept ∨ cs = kept ++ ['.', '.', '.'])

/-- **Whatever the source says, a quotation from it looks like one.** -/
theorem isExcerpt_excerpt (cs : List Char) : IsExcerpt (excerpt cs) := by
  have hspaced : SingleSpaced (List.intercalate [' '] (words cs)) :=
    singleSpaced_intercalate fun _ => solid_of_mem_words
  unfold excerpt
  dsimp only
  split_ifs with hlong
  · have hdot : isBlank '.' = false := rfl
    have hdots : SingleSpaced ['.', '.', '.'] := .of_solid (by simp [hdot])
    refine ⟨(hspaced.take _).append hdots ?_, _, List.length_take_le .., .inr rfl⟩
    rintro _ _ _ ⟨⟩ _
    rfl
  · exact ⟨hspaced, _, Nat.le_of_not_lt hlong, .inl rfl⟩

theorem IsExcerpt.inLine {cs : List Char} (h : IsExcerpt cs) : InLine (String.ofList cs) := by
  rw [inLine_ofList]
  intro hfeed
  exact absurd (h.spaced.ordinary '\n' hfeed (by decide)) (by decide)

/-! ## Problems -/

/-- The kinds of all nodes are in one line. -/
inductive Node.KindsInLine : Node → Prop
  | node {info : Info} {children : List Node} (kind : InLine info.kind)
      (below : ∀ c ∈ children, c.KindsInLine) : Node.KindsInLine (.node info children)

theorem Node.KindsInLine.kind (h : n.KindsInLine) : InLine n.kind := by
  cases h with
  | node kind => exact kind

theorem Node.KindsInLine.of_mem_children (h : n.KindsInLine) {child : Node}
    (hchild : child ∈ n.children) : child.KindsInLine := by
  cases h with
  | node _ below => exact below child hchild

/-- What a problem may say. -/
inductive Wording : String → Prop
  | missing {kind : String} (kind_inLine : InLine kind) : Wording s!"Missing '{kind}'"
  | ended : Wording "Unexpected end of input"
  | near {cs : List Char} (excerpt : IsExcerpt cs) :
      Wording s!"Syntax error near '{String.ofList cs}'"
  | unlocated : Wording "Unlocated syntax error"

/-- **What a problem may say is in one line.** -/
theorem Wording.inLine (h : Wording message) : InLine message := by
  cases h with
  | missing hkind => simp +decide [hkind]
  | ended => decide
  | near hexcerpt => simp +decide [hexcerpt.inLine]
  | unlocated => decide

theorem describe_wording (source : Bytes) (h : InLine n.kind) : Wording (describe source n) := by
  unfold describe
  split_ifs
  · exact .missing h
  · dsimp only
    split_ifs
    · exact .ended
    · exact .near (isExcerpt_excerpt _)

/-- The search takes nodes from a stack; those on it and all below them have kinds in one line. -/
theorem search_wording {stack : List Node} (h : ∀ n ∈ stack, n.KindsInLine) :
    ∀ p ∈ search source stack, Wording p.message := by
  fun_induction search source stack with
  | case1 =>
    intro p hp
    cases hp
  | case2 n rest hproblem ih =>
    intro p hp
    rcases List.mem_cons.mp hp with rfl | hp
    · exact describe_wording source (h n List.mem_cons_self).kind
    · exact ih (fun m hm => h m (List.mem_cons_of_mem n hm)) p hp
  | case3 n rest hproblem ih =>
    apply ih
    intro m hm
    rcases List.mem_append.mp hm with hchild | hrest
    · exact (h n List.mem_cons_self).of_mem_children (List.mem_filter.mp hchild).1
    · exact h m (List.mem_cons_of_mem n hrest)

/-- **What the problems of a tree say.** -/
theorem problems_wording (h : root.KindsInLine) : ∀ p ∈ problems source root, Wording p.message := by
  have hfound : ∀ p ∈ search source [root], Wording p.message :=
    search_wording fun n hn => (List.mem_singleton.mp hn) ▸ h
  unfold problems
  intro p hp
  split_ifs at hp with herror
  · split at hp
    · obtain rfl := List.mem_singleton.mp hp
      exact .unlocated
    · exact hfound p hp
  · cases hp

end Gleaner.Syntax
