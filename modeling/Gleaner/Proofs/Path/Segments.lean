import Gleaner.Proofs.Path.Below
import Gleaner.Proofs.Text.Lines

/-!
# Excluded segments as components

Whether a path is excluded is found out by a search for text: a segment between two slashes has to occur in
the path with a slash in front. The slashes are what makes this more than a search. A path with a slash in
front is the list of its components with a slash before each, and a match can start and end only at a slash;
so a match is a run of whole components, of which the last one of the path is never a part, as no slash
follows it. Nothing is asked of the path or of the segments: components may be empty, on either side.

## Main definitions

* `unrooted`: a path with slashes only, and none in front

## Main results

* `flatMap_slash_splitOn`: a text behind a slash as its components behind slashes
* `infix_between_slashes_iff`: what stands between slashes is a run of components
* `isExcluded_iff_components`: the test for excluded segments, component by component
-/

namespace Gleaner.Path

/-! ## Texts by their components -/

/-- **A text behind a slash** is its components, each behind a slash of its own. -/
theorem flatMap_slash_splitOn (cs : List CodePoint) :
    (cs.splitOn (.char '/')).flatMap (.char '/' :: ·) = .char '/' :: cs := by
  induction cs with
  | nil => rfl
  | cons c rest ih =>
    rw [Text.splitOn_cons]
    split_ifs with hc
    · rw [List.flatMap_cons, ih, hc, List.singleton_append]
    · -- any other character joins the first component of what follows
      obtain ⟨first, more, hpieces⟩ := List.exists_cons_of_ne_nil (List.splitOn_ne_nil _ rest)
      rw [hpieces, List.flatMap_cons, List.cons_append] at ih
      rw [hpieces, List.modifyHead_cons, List.flatMap_cons, List.cons_append, List.cons_append,
        List.tail_eq_of_cons_eq ih]

/-- A text that ends at a slash inside another one has components of its own, all of them before the last
component of the other. -/
theorem dropLast_splitOn_append (part rest : List CodePoint) :
    ((part ++ .char '/' :: rest).splitOn (.char '/')).dropLast =
      part.splitOn (.char '/') ++ (rest.splitOn (.char '/')).dropLast := by
  rw [List.splitOn_append_cons_self, List.dropLast_append_of_ne_nil (List.splitOn_ne_nil _ rest)]

/-- **What stands between slashes is a run of components**, one that ends before the last component. -/
theorem infix_between_slashes_iff {part cs : List CodePoint} :
    .char '/' :: part ++ [.char '/'] <:+: .char '/' :: cs ↔
      part.splitOn (.char '/') <:+: (cs.splitOn (.char '/')).dropLast := by
  constructor
  · rintro ⟨before, after, htext⟩
    cases before with
    | nil =>
      -- the match starts with the slash in front
      obtain rfl : part ++ .char '/' :: after = cs := by simpa using htext
      rw [dropLast_splitOn_append]
      exact (List.prefix_append _ _).isInfix
    | cons c before =>
      obtain rfl : before ++ .char '/' :: (part ++ .char '/' :: after) = cs := by
        simpa using List.tail_eq_of_cons_eq htext
      rw [dropLast_splitOn_append, dropLast_splitOn_append]
      exact List.infix_append' _ _ _
  · rintro ⟨before, after, hcomponents⟩
    -- the components behind the run, of which there is at least the last one of all
    obtain ⟨first, more, hbehind⟩ : ∃ first more,
        after ++ [(cs.splitOn (.char '/')).getLast (List.splitOn_ne_nil _ cs)] = first :: more :=
      List.exists_cons_of_ne_nil (List.append_ne_nil_of_right_ne_nil _ (List.cons_ne_nil _ _))
    have hall : cs.splitOn (.char '/') = before ++ (part.splitOn (.char '/') ++ first :: more) := by
      rw [← List.dropLast_append_getLast (List.splitOn_ne_nil _ cs), ← hcomponents, ← hbehind]
      simp only [List.append_assoc]
    refine ⟨before.flatMap (.char '/' :: ·), first ++ more.flatMap (.char '/' :: ·), ?_⟩
    rw [← flatMap_slash_splitOn cs, hall, List.flatMap_append, List.flatMap_append,
      flatMap_slash_splitOn, List.flatMap_cons]
    simp only [List.append_assoc, List.cons_append, List.nil_append]

/-! ## Exclusion -/

/-- A path with slashes only, and none in front. -/
def unrooted (path : Text) : Text :=
  Text.ofList ((path.toList.map fun c => if c = .char '\\' then .char '/' else c).dropWhile (· = .char '/'))

theorem wrap_eq (path : Text) : wrap path = .char '/' :: (unrooted path).toList := by
  rw [wrap, unrooted, Text.toList_ofList]

/-- Runs of pieces are runs of components. -/
theorem pieces_infix_iff {segment path : Text} :
    pieces segment <:+: (pieces path).dropLast ↔
      segment.toList.splitOn (.char '/') <:+: (path.toList.splitOn (.char '/')).dropLast := by
  rw [pieces, pieces, ← List.map_dropLast]
  constructor
  · intro h
    simpa [List.map_map, Function.comp_def] using h.map Text.toList
  · intro h
    exact h.map Text.ofList

/-- **The test for excluded segments, component by component.** A path is excluded just if the components of
one of the segments stand, one after the other and as a whole each, among its own components, the last one
left out. -/
theorem isExcluded_iff_components (segments : List Text) (path : Text) :
    isExcluded segments path = true ↔
      ∃ segment ∈ segments, pieces segment <:+: (pieces (unrooted path)).dropLast := by
  rw [isExcluded, List.any_eq_true]
  refine exists_congr fun segment => and_congr_right fun _ => ?_
  rw [occurs_iff_isInfix, wrap_eq, infix_between_slashes_iff, pieces_infix_iff]

/-- A segment of two components, once as it is and once inside longer names and at the end of the path. -/
example : isExcluded ["gradle/wrapper"] "x\\gradle/wrapper/a.java" = true ∧
    isExcluded ["gradle/wrapper"] "x/mygradle/wrapper/gradle/wrapper" = false := by
  decide +kernel

end Gleaner.Path
