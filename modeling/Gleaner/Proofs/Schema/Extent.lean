import Gleaner.Extraction
import Gleaner.Proofs.Schema.Tracking

/-!
# Where the blocks of a schema file stand

Each element of a scan comes from a block of the decomposition. Its snippet is the lines it covers and
nothing else, and its lines, comments included, lie behind those of the element before it: the search
for a block starts right after the line that ended the last one, and claims no comment before that.

## Main results

* `Decomposition.exists_block`: the block behind an element
* `scanText_snippet_verbatim`: a snippet is a verbatim run of lines
* `scanText_extents_increase`: a scan does not fail, and the elements follow one another
-/

namespace Gleaner.Schema

open Gleaner.Text

variable {filePath fileName : Text} {lines : List String} {p n a j : ℕ} {found : Option String}
  {b : Block} {es : List Element} {ds : List Diagnostic} {e : Element}

/-- Each element comes from a block that opens at line `p` or later and is closed exactly. -/
theorem Decomposition.exists_block (h : Decomposition filePath fileName lines p found es ds)
    (he : e ∈ es) :
    ∃ q known b j, p ≤ q ∧ FirstBlock lines q known b ∧ b.EndsAt lines j ∧
      b.depthAt lines j = 0 ∧ e = b.element filePath fileName lines j := by
  induction h with
  | idle => cases he
  | unclosed => cases he
  | closed first ends zero _ ih =>
    rcases List.mem_cons.mp he with rfl | he
    · exact ⟨_, _, _, _, le_rfl, first, ends, zero, rfl⟩
    · obtain ⟨q, known, b, j, hq, hrest⟩ := ih he
      have := first.start_le
      have := ends.line_le
      exact ⟨q, known, b, j, by omega, hrest⟩
  | overclosed first ends _ _ ih =>
    obtain ⟨q, known, b, j, hq, hrest⟩ := ih he
    have := first.start_le
    have := ends.line_le
    exact ⟨q, known, b, j, by omega, hrest⟩

/-- An element starts at line `p` or later and ends within the file, its declaration in between. -/
theorem Decomposition.extent (h : Decomposition filePath fileName lines p found es ds)
    (he : e ∈ es) :
    (p : ℤ) ≤ e.startLine ∧ e.startLine ≤ e.declarationLine ∧ e.declarationLine ≤ e.endLine ∧
      e.endLine ≤ lines.length := by
  obtain ⟨q, known, b, j, hq, first, ends, -, rfl⟩ := h.exists_block he
  have hcomments := first.comments_le
  have hline := ends.line_le
  have hlength := ends.le_length
  simp only [Block.element, Block.startLine]
  omega

/-- The lines of an element lie before those of any later one. -/
theorem Decomposition.pairwise (h : Decomposition filePath fileName lines p found es ds) :
    es.Pairwise fun e f => e.endLine < f.startLine := by
  induction h with
  | idle => exact List.Pairwise.nil
  | unclosed => exact List.Pairwise.nil
  | closed _ _ _ rest ih =>
    refine List.Pairwise.cons (fun f hf => ?_) ih
    -- the search for what follows starts behind the last line of this block
    have hstart := (rest.extent hf).1
    simp only [Block.element]
    omega
  | overclosed _ _ _ _ ih => exact ih

/-- A snippet within the file is a run of its lines. -/
theorem exists_lines_of_snippet (ha : 0 < a) (haj : a ≤ j + 1) (hj : j ≤ lines.length) :
    ∃ before body after, lines = before ++ body ++ after ∧ before.length + 1 = a ∧
      before.length + body.length = j ∧ snippet lines a j = joinLines body := by
  refine ⟨lines.take (a - 1), linesFrom lines a (j + 1), lines.drop j, ?_, ?_, ?_, ?_⟩
  · rw [linesFrom, show lines.drop j = (lines.drop (a - 1)).drop (j + 1 - a) by
      rw [List.drop_drop, show a - 1 + (j + 1 - a) = j by omega], List.append_assoc,
      List.take_append_drop, List.take_append_drop]
  · rw [List.length_take]
    omega
  · rw [linesFrom, List.length_take, List.length_take, List.length_drop]
    omega
  · exact (joinLines_linesFrom ha).symm

/-- **A snippet is verbatim source**: of each element of a scan it is cut out of the file by the first
and the last line of the element, and it is the whole run of these lines, each with its line feed. -/
theorem scanText_snippet_verbatim (filePath fileName : Text) (text : String) :
    ∃ r, scanText filePath fileName text = .ok r ∧ ∀ e ∈ r.elements,
      e.context.snippet = snippet (splitLines text) e.startLine e.endLine ∧
      ∃ before body after, splitLines text = before ++ body ++ after ∧
        e.startLine = before.length + 1 ∧ e.endLine = before.length + body.length ∧
        e.context.snippet = joinLines body := by
  obtain ⟨r, hr, -, hdec⟩ := scanLines_decomposition filePath fileName (splitLines text)
  refine ⟨r, hr, fun e he => ?_⟩
  obtain ⟨q, known, b, j, hq, first, ends, -, rfl⟩ := hdec.exists_block he
  have hcomments := first.comments_le
  have hline := ends.line_le
  refine ⟨rfl, ?_⟩
  obtain ⟨before, body, after, hsplit, hbefore, hbody, hsnippet⟩ :=
    exists_lines_of_snippet (a := b.line - b.comments) (by omega) (by omega) ends.le_length
  refine ⟨before, body, after, hsplit, ?_, ?_, ?_⟩
  · show b.startLine = _
    rw [first.startLine_eq]
    omega
  · show (j : ℤ) = _
    omega
  · show snippet (splitLines text) b.startLine j = _
    rw [first.startLine_eq, hsnippet]

/-- A blank line, a comment and a block. -/
def commentedBlock : String := "\n// a\nenum E \x7b\n\x7d\n"

/-- The comment above a block belongs to its snippet, the blank line above the comment does not. -/
theorem scanText_snippet_with_comment :
    ∃ r, scanText "e.proto" "e.proto" commentedBlock = .ok r ∧ ∃ e ∈ r.elements,
      e.startLine = 2 ∧ e.endLine = 4 ∧ e.context.snippet = "// a\nenum E \x7b\n\x7d\n" := by
  obtain ⟨r, hr, hverbatim⟩ := scanText_snippet_verbatim "e.proto" "e.proto" commentedBlock
  have hextents : (scanText "e.proto" "e.proto" commentedBlock).toOption.map
      (·.elements.map fun e => (e.startLine, e.endLine)) = some [(2, 4)] := by decide +kernel
  rw [hr] at hextents
  obtain ⟨e, he, hplace⟩ := List.map_eq_singleton_iff.mp (Option.some.inj hextents)
  have hmem : e ∈ r.elements := he ▸ List.mem_singleton_self e
  obtain ⟨hstart, hend⟩ := Prod.mk.inj hplace
  refine ⟨r, hr, e, hmem, hstart, hend, ?_⟩
  rw [(hverbatim e hmem).1, hstart, hend]
  decide +kernel

/-- **The elements of a schema file follow one another.** No scan fails, so that no schema file is
given up for its lines. The lines of each element, comments included, lie within the file and around
its declaration, and before those of every later element. -/
theorem scanText_extents_increase (filePath fileName : Text) :
    (∀ text, ∃ r, scanText filePath fileName text = .ok r ∧
      (∀ e ∈ r.elements, 1 ≤ e.startLine ∧ e.startLine ≤ e.declarationLine ∧
        e.declarationLine ≤ e.endLine ∧ e.endLine ≤ (splitLines text).length) ∧
      r.elements.Pairwise fun e f => e.endLine < f.startLine) ∧
    ∀ bytes lineCount cause,
      schemaOutcome filePath fileName bytes ≠ .scanned lineCount (.error cause) := by
  refine ⟨fun text => ?_, fun bytes lineCount cause hfails => ?_⟩
  · obtain ⟨r, hr, -, hdec⟩ := scanLines_decomposition filePath fileName (splitLines text)
    exact ⟨r, hr, fun e he => hdec.extent he, hdec.pairwise⟩
  · unfold schemaOutcome at hfails
    split at hfails
    · cases hfails
    · next text _ =>
      obtain ⟨r, hr, -⟩ := scanLines_decomposition filePath fileName (splitLines text)
      simp [hr] at hfails

/-- A block, and right behind it a comment with another block. -/
def adjacentBlocks : String := "enum A \x7b\n\x7d\n// b\nmessage B \x7b\n\x7d\n"

/-- The comment belongs to the second block only. -/
theorem scanText_extents_of_adjacent_blocks :
    ∃ r e f, scanText "e.proto" "e.proto" adjacentBlocks = .ok r ∧
      r.elements = [e, f] ∧ e.endLine < f.startLine := by
  obtain ⟨r, hr, -, hincrease⟩ :=
    (scanText_extents_increase "e.proto" "e.proto").1 adjacentBlocks
  have hcount : (scanText "e.proto" "e.proto" adjacentBlocks).toOption.map
      (·.elements.length) = some 2 := by decide +kernel
  rw [hr] at hcount
  obtain ⟨e, f, hboth⟩ := List.length_eq_two.mp (Option.some.inj hcount)
  rw [hboth] at hincrease
  exact ⟨r, e, f, hr, hboth, List.rel_of_pairwise_cons hincrease (List.mem_singleton_self f)⟩

end Gleaner.Schema
