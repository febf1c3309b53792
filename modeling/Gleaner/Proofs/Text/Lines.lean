import Mathlib.Data.Int.Notation
import Mathlib.Data.List.Basic
import Mathlib.Tactic.SplitIfs
import Gleaner.Text.Lines

/-!
# Snippets by rows

A row is counted by line feeds in a text, while a snippet is cut out of the list of lines. The two
fit: lines that are written one after the other give back their text, up to a line feed at its end, and
the number of line feeds before a place is the number of whole lines before it. So a part of a text
stands in the snippet from the row where the part begins to the row where it ends.

Nothing but line feeds is counted, and nothing but line feeds ends a line; a final one opens no line,
and the row behind it has no line in the snippet. So lines and texts go into each other without loss, but
for the line feed that a text may lack at its end.

## Main definitions

* `numbered`: the lines with numbers in a range, as far as there are any

## Main results

* `snippet_eq_joinLines_numbered`: the lines of a snippet
* `splitLines_joinLines`: lines give themselves back
* `joinLines_splitLines_eq`, `joinLines_splitLines`: the lines of a text give it back
* `lines_round_trip`: lines and texts back and forth, and snippets one behind the other
* `exists_snippet_eq_append`: a part of a text stands in the snippet of its rows
-/

namespace Gleaner.Text

variable {lines : List String} {text : String}

/-! ## The lines of a snippet -/

/-- The lines `first` to `last`, counted from one and both included, as far as there are any. -/
def numbered (lines : List String) (first last : ℕ) : List String :=
  (List.range' first (last + 1 - first)).filterMap fun n => lines[n - 1]?

theorem filterMap_range'_eq (lines : List String) (k n : ℕ) :
    (List.range' (k + 1) n).filterMap (fun i => lines[i - 1]?) = (lines.drop k).take n := by
  induction n generalizing k with
  | zero => simp
  | succ n ih =>
    rw [List.range'_succ]
    by_cases hk : k < lines.length
    · rw [List.drop_eq_getElem_cons hk, List.take_succ_cons, ← ih, List.filterMap_cons_some]
      exact List.getElem?_eq_getElem hk
    · have hnone : lines[k + 1 - 1]? = none := List.getElem?_eq_none (by omega)
      rw [List.filterMap_cons, hnone, ih, List.drop_eq_nil_of_le (by omega),
        List.drop_eq_nil_of_le (by omega), List.take_nil, List.take_nil]

theorem numbered_eq {first last : ℕ} (h : 1 ≤ first) :
    numbered lines first last = (lines.drop (first - 1)).take (last + 1 - first) := by
  obtain ⟨k, rfl⟩ : ∃ k, first = k + 1 := ⟨first - 1, by omega⟩
  rw [numbered, filterMap_range'_eq, Nat.add_sub_cancel]

/-- A snippet by the lines that are left out and those that are taken. Indices beyond the end do no
harm. -/
theorem snippet_eq {first last : ℕ} (h : 1 ≤ first) :
    snippet lines first last = joinLines ((lines.drop (first - 1)).take (last + 1 - first)) := by
  have hfirst : clampIndex lines.length ((first : ℤ) - 1) = min (first - 1) lines.length := by
    rw [clampIndex, if_neg (by omega)]
    omega
  have hlast : clampIndex lines.length (last : ℤ) = min last lines.length := by
    rw [clampIndex, if_neg (by omega)]
    omega
  rw [snippet, slice, hfirst, hlast]
  congr 1
  -- both sides have the same line at each place, or none
  apply List.ext_getElem?
  intro i
  simp only [List.getElem?_take, List.getElem?_drop]
  grind

/-- **The lines of a snippet** are those with the numbers from the first to the last one. -/
theorem snippet_eq_joinLines_numbered {first last : ℕ} (h : 1 ≤ first) :
    snippet lines first last = joinLines (numbered lines first last) := by
  rw [snippet_eq h, numbered_eq h]

/-- The snippet of lines with others before and behind them. -/
theorem snippet_append (before body after : List String) :
    snippet (before ++ body ++ after) (before.length + 1 : ℕ) (before.length + body.length : ℕ) =
      joinLines body := by
  rw [snippet_eq (by omega), Nat.add_sub_cancel, List.append_assoc, List.drop_left,
    show before.length + body.length + 1 - (before.length + 1) = body.length by omega, List.take_left]

/-! ## The lines of a text -/

@[simp] theorem toList_joinLines_cons (line : String) (rest : List String) :
    (joinLines (line :: rest)).toList = line.toList ++ '\n' :: (joinLines rest).toList := by
  simp [joinLines]

theorem toList_joinLines (lines : List (List Char)) :
    (joinLines (lines.map String.ofList)).toList = lines.flatMap (· ++ ['\n']) := by
  induction lines with
  | nil => rfl
  | cons line rest ih =>
    rw [List.map_cons, toList_joinLines_cons, ih, String.toList_ofList, List.flatMap_cons,
      List.append_assoc, List.singleton_append]

theorem splitOn_cons {α : Type} [DecidableEq α] (separator c : α) (cs : List α) :
    (c :: cs).splitOn separator =
      if c = separator then [] :: cs.splitOn separator
      else (cs.splitOn separator).modifyHead (c :: ·) := by
  simp only [List.splitOn, List.splitOnP_cons_eq_if_modifyHead, beq_iff_eq]

/-- The pieces of a text, each ended by a line feed: one line feed more than the text. -/
theorem flatMap_splitOn (cs : List Char) :
    (cs.splitOn '\n').flatMap (· ++ ['\n']) = cs ++ ['\n'] := by
  induction cs with
  | nil => rfl
  | cons c rest ih =>
    rw [splitOn_cons]
    split_ifs with hc
    · rw [List.flatMap_cons, ih, hc]
      rfl
    · -- any other character joins the first piece of what follows
      obtain ⟨piece, pieces, hpieces⟩ := List.exists_cons_of_ne_nil (List.splitOn_ne_nil '\n' rest)
      rw [hpieces] at ih ⊢
      rw [List.modifyHead_cons, List.flatMap_cons, List.cons_append, List.cons_append,
        List.cons_append, ← ih, List.flatMap_cons]

/-- No piece holds what divides the pieces. -/
theorem notMem_of_mem_splitOn {α : Type} [DecidableEq α] {separator : α} {cs piece : List α}
    (h : piece ∈ cs.splitOn separator) : separator ∉ piece := by
  induction cs generalizing piece with
  | nil =>
    rw [List.splitOn_nil, List.mem_singleton] at h
    rw [h]
    exact List.not_mem_nil
  | cons c rest ih =>
    rw [splitOn_cons] at h
    split_ifs at h with hc
    · rcases List.mem_cons.mp h with rfl | h
      · exact List.not_mem_nil
      · exact ih h
    · obtain ⟨first, pieces, hpieces⟩ := List.exists_cons_of_ne_nil (List.splitOn_ne_nil separator rest)
      rw [hpieces] at ih h
      rcases List.mem_cons.mp h with rfl | h
      · rw [List.mem_cons, not_or]
        exact ⟨Ne.symm hc, ih List.mem_cons_self⟩
      · exact ih (List.mem_cons_of_mem first h)

/-- No line holds a line feed. -/
theorem lineFeed_notMem_of_mem_splitLines {line : String} (h : line ∈ splitLines text) :
    '\n' ∉ line.toList := by
  obtain ⟨piece, hpiece, rfl⟩ := List.mem_map.mp h
  rw [String.toList_ofList]
  refine notMem_of_mem_splitOn (?_ : piece ∈ text.toList.splitOn '\n')
  unfold dropEmptyLast at hpiece
  split_ifs at hpiece
  · exact List.dropLast_subset _ hpiece
  · exact hpiece

/-- Lines that are each ended by a line feed leave an empty piece behind the last one. -/
theorem splitOn_flatMap {pieces : List (List Char)} (h : ∀ piece ∈ pieces, '\n' ∉ piece) :
    (pieces.flatMap (· ++ ['\n'])).splitOn '\n' = pieces ++ [[]] := by
  induction pieces with
  | nil => rfl
  | cons piece rest ih =>
    rw [List.flatMap_cons, List.append_assoc, List.singleton_append,
      List.splitOn_append_cons_self_of_not_mem (h piece List.mem_cons_self),
      ih fun other hother => h other (List.mem_cons_of_mem piece hother), List.cons_append]

/-- **Lines give themselves back**, if none of them holds a line feed. -/
theorem splitLines_joinLines (h : ∀ line ∈ lines, '\n' ∉ line.toList) :
    splitLines (joinLines lines) = lines := by
  have hlines : (lines.map String.toList).map String.ofList = lines := by simp
  have hpieces : ∀ piece ∈ lines.map String.toList, '\n' ∉ piece := by simpa using h
  have htext : (joinLines lines).toList = (lines.map String.toList).flatMap (· ++ ['\n']) := by
    rw [← toList_joinLines, hlines]
  rw [splitLines, htext, splitOn_flatMap hpieces, dropEmptyLast, if_pos List.getLast?_concat,
    List.dropLast_concat, hlines]

/-- **The last piece of a text is empty** just when the text is, or ends with a line feed. -/
theorem getLast?_splitOn_eq_some_nil_iff {cs : List Char} :
    (cs.splitOn '\n').getLast? = some [] ↔ cs = [] ∨ cs.getLast? = some '\n' := by
  constructor
  · intro hlast
    -- without the empty piece the others, each ended by a line feed, make up the text
    have hpieces := flatMap_splitOn cs
    rw [← List.dropLast_append_getLast? [] hlast, List.flatMap_append] at hpieces
    have hcs := List.append_cancel_right hpieces
    rcases List.eq_nil_or_concat (cs.splitOn '\n').dropLast with hnone | ⟨pieces, piece, hsome⟩
    · left
      rw [← hcs, hnone]
      rfl
    · right
      rw [← hcs, hsome]
      simp
  · rintro (rfl | hfeed)
    · rfl
    · obtain ⟨front, rfl⟩ := List.getLast?_eq_some_iff.mp hfeed
      rw [List.splitOn_append_cons_self, List.splitOn_nil, List.getLast?_concat]

/-- **The lines of a text give it back**: as it is, if it is empty or ends with a line feed, and with one
line feed more otherwise. -/
theorem joinLines_splitLines_eq (text : String) :
    joinLines (splitLines text) =
      if text = "" ∨ text.toList.getLast? = some '\n' then text else text ++ "\n" := by
  have hpieces := flatMap_splitOn text.toList
  simp only [← String.toList_eq_nil_iff, ← getLast?_splitOn_eq_some_nil_iff, splitLines, dropEmptyLast]
  split_ifs with hlast
  · -- the last piece, which is empty, has given the line feed that is too much
    rw [← List.dropLast_append_getLast? [] hlast, List.flatMap_append] at hpieces
    rw [← String.toList_inj, toList_joinLines]
    exact List.append_cancel_right hpieces
  · rw [← String.toList_inj, toList_joinLines, String.toList_append]
    exact hpieces

/-- The lines of a text give it back, with a line feed at the end if there was none. -/
theorem joinLines_splitLines (text : String) :
    joinLines (splitLines text) = text ∨ joinLines (splitLines text) = text ++ "\n" := by
  rw [joinLines_splitLines_eq]
  split_ifs
  · exact .inl rfl
  · exact .inr rfl

/-! ## Snippets one behind the other -/

@[simp] theorem joinLines_append (lines others : List String) :
    joinLines (lines ++ others) = joinLines lines ++ joinLines others := by
  induction lines with
  | nil => simp [joinLines]
  | cons line rest ih => rw [List.cons_append, joinLines, joinLines, ih, ← String.append_assoc]

/-- The lines up to one and those behind it. Both snippets may run past the last line. -/
theorem snippet_append_snippet (lines : List String) {a b c : ℤ} (ha : 1 ≤ a) (hab : a ≤ b + 1)
    (hbc : b + 1 ≤ c + 1) : snippet lines a b ++ snippet lines (b + 1) c = snippet lines a c := by
  obtain ⟨k, rfl⟩ : ∃ k : ℕ, a = (k + 1 : ℕ) := ⟨(a - 1).toNat, by omega⟩
  obtain ⟨m, rfl⟩ : ∃ m : ℕ, b = (k + m : ℕ) := ⟨(b - k).toNat, by omega⟩
  obtain ⟨n, rfl⟩ : ∃ n : ℕ, c = (k + m + n : ℕ) := ⟨(c - (k + m : ℕ)).toNat, by omega⟩
  have hsecond : ((k + m : ℕ) : ℤ) + 1 = (k + m + 1 : ℕ) := by omega
  rw [hsecond, snippet_eq (by omega), snippet_eq (by omega), snippet_eq (by omega), ← joinLines_append,
    show k + m + 1 - (k + 1) = m by omega, show k + m + n + 1 - (k + m + 1) = n by omega,
    show k + m + n + 1 - (k + 1) = m + n by omega, Nat.add_sub_cancel, Nat.add_sub_cancel,
    List.take_add, List.drop_drop]

/-- **Lines and texts back and forth.** Lines without a line feed come back from the text that they make
up. A text comes back from its lines, with one more line feed if it is not empty and does not end with
one. And a snippet can be cut behind any of its lines. -/
theorem lines_round_trip :
    (∀ lines : List String, (∀ line ∈ lines, '\n' ∉ line.toList) →
      splitLines (joinLines lines) = lines) ∧
    (∀ text : String, joinLines (splitLines text) =
      if text = "" ∨ text.toList.getLast? = some '\n' then text else text ++ "\n") ∧
    ∀ (lines : List String) (a b c : ℤ), 1 ≤ a → a ≤ b + 1 → b + 1 ≤ c + 1 →
      snippet lines a b ++ snippet lines (b + 1) c = snippet lines a c :=
  ⟨fun _ => splitLines_joinLines, joinLines_splitLines_eq,
    fun lines _ _ _ => snippet_append_snippet lines⟩

/-- Empty lines are lines too, a text of line feeds only lacks none at its end, and the second snippet runs
past the last line. -/
theorem lines_round_trip_of_blank_lines :
    splitLines (joinLines ["", "a\x0d", ""]) = ["", "a\x0d", ""] ∧
      joinLines (splitLines "\n\n") = "\n\n" ∧ joinLines (splitLines "\na") = "\na\n" ∧
      snippet ["a", "b"] 1 0 ++ snippet ["a", "b"] (0 + 1) 7 = snippet ["a", "b"] 1 7 := by
  obtain ⟨hlines, htext, hsnippet⟩ := lines_round_trip
  refine ⟨hlines _ (by decide), ?_, ?_, hsnippet _ 1 0 7 (by decide) (by decide) (by decide)⟩
  · rw [htext, if_pos (by decide)]
  · rw [htext, if_neg (by decide)]
    rfl

/-! ## Parts of a text in their lines -/

/-- A place in a text lies in its first line, or behind the line feed that ends it. -/
theorem place_in_line {line later before rest : List Char}
    (h : line ++ '\n' :: later = before ++ rest) :
    (∃ part, line = before ++ part ∧ rest = part ++ '\n' :: later) ∨
      ∃ before', before = line ++ '\n' :: before' ∧ later = before' ++ rest := by
  rcases List.append_eq_append_iff.mp h with ⟨part, hbefore, hrest⟩ | ⟨part, hline, hrest⟩
  · cases part with
    | nil => exact Or.inl ⟨[], by simp [hbefore], by simpa using hrest.symm⟩
    | cons c part =>
      obtain ⟨rfl, hlater⟩ := List.cons_eq_cons.mp hrest
      exact Or.inr ⟨part, hbefore, hlater⟩
  · exact Or.inl ⟨part, hline, hrest⟩

theorem count_lineFeed_line {line rest : List Char} (h : '\n' ∉ line) :
    (line ++ '\n' :: rest).count '\n' = rest.count '\n' + 1 := by
  rw [List.count_append, List.count_eq_zero_of_not_mem h, List.count_cons_self, Nat.zero_add]

/-- As many lines as there are line feeds before a place end before it; what is left starts within the
line of that place. -/
theorem joinLines_drop_count {before rest : List Char}
    (hlines : ∀ line ∈ lines, '\n' ∉ line.toList) (h : (joinLines lines).toList = before ++ rest) :
    ∃ part, '\n' ∉ part ∧ (joinLines (lines.drop (before.count '\n'))).toList = part ++ rest := by
  induction lines generalizing before with
  | nil =>
    obtain ⟨rfl, rfl⟩ := List.append_eq_nil_iff.mp h.symm
    exact ⟨[], List.not_mem_nil, rfl⟩
  | cons line others ih =>
    have hline := hlines line List.mem_cons_self
    rw [toList_joinLines_cons] at h
    rcases place_in_line h with ⟨part, hpart, -⟩ | ⟨before', rfl, hlater⟩
    · -- no line ends before a place in the first line
      have hbefore : '\n' ∉ before := by
        intro hmem
        exact hline (hpart ▸ List.mem_append_left part hmem)
      refine ⟨before, hbefore, ?_⟩
      rw [List.count_eq_zero_of_not_mem hbefore, List.drop_zero, toList_joinLines_cons, h]
    · -- the first line ends before the place and is left out
      rw [count_lineFeed_line hline, List.drop_succ_cons]
      exact ih (fun l hl => hlines l (List.mem_cons_of_mem line hl)) hlater

/-- One line more than there are line feeds before a place is enough to reach it. -/
theorem joinLines_take_count {front rest : List Char}
    (hlines : ∀ line ∈ lines, '\n' ∉ line.toList) (h : (joinLines lines).toList = front ++ rest) :
    ∃ more, (joinLines (lines.take (front.count '\n' + 1))).toList = front ++ more := by
  induction lines generalizing front with
  | nil =>
    obtain ⟨rfl, rfl⟩ := List.append_eq_nil_iff.mp h.symm
    exact ⟨[], rfl⟩
  | cons line others ih =>
    have hline := hlines line List.mem_cons_self
    rw [toList_joinLines_cons] at h
    rw [List.take_succ_cons, toList_joinLines_cons]
    rcases place_in_line h with ⟨part, hpart, -⟩ | ⟨front', rfl, hlater⟩
    · exact ⟨_, by rw [hpart, List.append_assoc]⟩
    · obtain ⟨more, hmore⟩ := ih (fun l hl => hlines l (List.mem_cons_of_mem line hl)) hlater
      refine ⟨more, ?_⟩
      rw [count_lineFeed_line hline, hmore, List.append_assoc, List.cons_append]

/-- **A part of a text stands in the snippet of its rows**, from the line in which the part begins to
the line in which it ends. -/
theorem exists_snippet_eq_append {before body after : String} (h : text = before ++ body ++ after) :
    ∃ left right, snippet (splitLines text) (before.toList.count '\n' + 1 : ℕ)
      ((before ++ body).toList.count '\n' + 1 : ℕ) = left ++ body ++ right := by
  have hlines : ∀ line ∈ splitLines text, '\n' ∉ line.toList :=
    fun line => lineFeed_notMem_of_mem_splitLines
  -- behind the part there may be a line feed that the text does not have
  obtain ⟨rest, hrest⟩ : ∃ rest, (joinLines (splitLines text)).toList =
      before.toList ++ (body.toList ++ rest) := by
    rcases joinLines_splitLines text with hjoin | hjoin
    · exact ⟨after.toList, by rw [hjoin, h]; simp⟩
    · exact ⟨after.toList ++ ['\n'], by rw [hjoin, h]; simp⟩
  obtain ⟨part, hpart, hdrop⟩ := joinLines_drop_count hlines hrest
  rw [← List.append_assoc] at hdrop
  obtain ⟨more, htake⟩ := joinLines_take_count
    (fun line hline => hlines line (List.mem_of_mem_drop hline)) hdrop
  refine ⟨String.ofList part, String.ofList more, ?_⟩
  rw [snippet_eq (by omega), ← String.toList_inj]
  rw [List.count_append, List.count_eq_zero_of_not_mem hpart, Nat.zero_add] at htake
  rw [Nat.add_sub_cancel, String.toList_append, List.count_append,
    show before.toList.count '\n' + body.toList.count '\n' + 1 + 1 - (before.toList.count '\n' + 1) =
      body.toList.count '\n' + 1 by omega, htake]
  simp

end Gleaner.Text
