import Gleaner.Proofs.Text.Trim
import Gleaner.Schema.Scan

/-!
# A line is of one kind

An opener, a package line and a comment line differ in their first character that is not blank, so no
line is two of them. A scan may therefore look for them in any order: in particular, looking for the
package on every line it reads takes none from a line that opens a block.

## Main results

* `dropPrefix?_eq_some_iff`: dropping a text from the front
* `package?_trim_of_opener?`, `commentText?_of_opener?`: an opener names no package and is no comment
* `commentText?_eq`: the text of a comment line is what follows the marker
-/

namespace Gleaner.Schema

open Gleaner.Text

theorem dropPrefix?_eq_some_iff {start cs rest : List Char} :
    dropPrefix? start cs = some rest ↔ cs = start ++ rest := by
  induction start generalizing cs with
  | nil => simp [dropPrefix?, eq_comm]
  | cons c start ih =>
    cases cs with
    | nil => simp [dropPrefix?]
    | cons d cs =>
      by_cases hcd : c = d
      · subst hcd
        simp [dropPrefix?, ih]
      · simp [dropPrefix?, hcd, Ne.symm hcd]

/-- The text of a comment line is what follows the marker, trimmed. -/
theorem commentText?_eq (line : List Char) :
    commentText? line =
      if commentMarker.isPrefixOf (trim line) then
        some (trim ((trim line).drop commentMarker.length))
      else none := by
  unfold commentText?
  split_ifs with h
  · obtain ⟨rest, hrest⟩ := List.isPrefixOf_iff_prefix.mp h
    rw [dropPrefix?_eq_some_iff.mpr hrest.symm, ← hrest, List.drop_left, Option.map_some]
  · cases hdrop : dropPrefix? commentMarker (trim line) with
    | none => rfl
    | some rest =>
      refine absurd (List.isPrefixOf_iff_prefix.mpr ⟨rest, ?_⟩) h
      exact (dropPrefix?_eq_some_iff.mp hdrop).symm

/-- The first character of an opener that is not blank is that of its keyword. -/
theorem head?_trimStart_of_opener? {line : List Char} {o : Opener} (h : opener? line = some o) :
    (trimStart line).head? = some 'm' ∨ (trimStart line).head? = some 'e' := by
  simp only [opener?, Option.bind_eq_bind, Option.bind_eq_some_iff] at h
  obtain ⟨⟨kind, rest⟩, hkeyword, -⟩ := h
  unfold keyword? at hkeyword
  cases hmessage : dropPrefix? "message".toList (trimStart line) with
  | some after =>
    left
    rw [dropPrefix?_eq_some_iff.mp hmessage]
    rfl
  | none =>
    simp only [hmessage, Option.map_eq_some_iff] at hkeyword
    obtain ⟨after, henum, -⟩ := hkeyword
    right
    rw [dropPrefix?_eq_some_iff.mp henum]
    rfl

/-- A text that starts a trimmed opener starts with the first character of a keyword. -/
theorem head?_of_prefix_trim {line start : List Char} {o : Opener} (h : opener? line = some o)
    (hstart : start <+: trim line) (hne : start ≠ []) :
    start.head? = some 'm' ∨ start.head? = some 'e' := by
  obtain ⟨tail, htail⟩ := hstart.trans (trim_isPrefix line)
  have hhead := head?_trimStart_of_opener? h
  rwa [← htail, List.head?_append_of_ne_nil _ hne] at hhead

/-- An opener names no package. -/
theorem package?_trim_of_opener? {line : List Char} {o : Opener} (h : opener? line = some o) :
    package? (trim line) = none := by
  have hdrop : dropPrefix? "package".toList (trim line) = none := by
    refine Option.eq_none_iff_forall_not_mem.mpr fun rest hrest => ?_
    have hprefix : "package".toList <+: trim line := ⟨rest, (dropPrefix?_eq_some_iff.mp hrest).symm⟩
    have hhead := head?_of_prefix_trim h hprefix (by decide)
    revert hhead
    decide
  rw [package?, trimStart_trim, hdrop]
  rfl

/-- An opener is no comment line. -/
theorem commentText?_of_opener? {line : List Char} {o : Opener} (h : opener? line = some o) :
    commentText? line = none := by
  rw [commentText?_eq, if_neg]
  intro hcomment
  have hhead := head?_of_prefix_trim h (List.isPrefixOf_iff_prefix.mp hcomment) (by decide)
  revert hhead
  decide

end Gleaner.Schema
