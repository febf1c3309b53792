import Mathlib.Data.List.Basic
import Gleaner.Java.Javadoc
import Gleaner.Proofs.Text.Lines
import Gleaner.Proofs.Text.Trim

/-!
# Cleaning a comment, line by line

Cleaning drops the stars that lead lines in one pass over the whole body of a comment. From a line start on it
passes over blanks, and line feeds are blanks; so the blanks before a star may reach back over lines that are
blank, and these lines go with the star. Apart from that, each line is cleaned on its own.

A blank line that goes is missed only where there is text before it and text behind it: what is blank at the
ends of the body is trimmed anyway. In such a place the cleaned text has one line less than the lines of the
comment.

A comment in the usual layout loses nothing, since each line between its delimiters has a star. Cleaning gives
back what was laid out, whatever the lines are: one star and one blank are dropped from each, and a line that
starts with stars or blanks of its own keeps them.

## Main definitions

* `unstar`, `lineText`: a line without its star, and its text
* `documentation?`, `cleanLines`: the documentation that lines give, each on its own
* `withoutGaps`: the lines that are left when blank lines before starred ones go
* `LosesLine`: a blank line goes and is missed
* `formatJavadoc`: a comment in the usual layout

## Main results

* `dropStars_eq`: what is left of a text when its stars are dropped
* `trim_withoutGaps_eq_iff`: when a text misses none of the lines that go
* `cleanJavadoc_by_lines`: cleaning, line by line
* `cleanJavadoc_joins_paragraphs`: a blank line that is missed
* `cleanJavadoc_formatJavadoc`: cleaning undoes the usual layout
-/

namespace Gleaner.Java

open Gleaner.Text

variable {c : Char} {line lead tail : List Char} {lines rest done : List (List Char)}

/-! ## Lines -/

/-- The first character of a line that is not blank is a star. -/
def isStarred (line : List Char) : Bool :=
  (trimStart line).head? == some '*'

/-- What stands behind a star, without one ordinary blank. -/
def afterStar : List Char → List Char
  | ' ' :: tail => tail
  | tail => tail

/-- A line without the star that leads it, the blanks before it and one ordinary blank behind it. Any other line
is left alone. -/
def unstar (line : List Char) : List Char :=
  match trimStart line with
  | '*' :: tail => afterStar tail
  | _ => line

/-- The text of a line. -/
def lineText (line : List Char) : List Char :=
  trimEnd (unstar line)

/-- Lines joined by line feeds and trimmed, absent if nothing remains. -/
def documentation? (lines : List (List Char)) : Option (List Char) :=
  let text := trim (List.intercalate ['\n'] lines)
  if text.isEmpty then none else some text

/-- The documentation that lines give, each cleaned on its own. -/
def cleanLines (lines : List (List Char)) : Option (List Char) :=
  documentation? (lines.map lineText)

/-- The lines between the delimiters of a comment. -/
def bodyLines (comment : List Char) : List (List Char) :=
  (javadocBody comment).splitOn '\n'

/-- The first line that is not blank is a starred one. -/
def starNext : List (List Char) → Bool
  | [] => false
  | line :: rest => if AllBlank line then starNext rest else isStarred line

/-- Lines without the blank ones that a starred line follows, other blank lines aside. -/
def withoutGaps : List (List Char) → List (List Char)
  | [] => []
  | line :: rest =>
    if AllBlank line ∧ starNext rest = true then withoutGaps rest else line :: withoutGaps rest

theorem unstar_of_allBlank (h : AllBlank line) : unstar line = line := by
  rw [unstar, trimStart_eq_nil_iff.mpr h]

theorem unstar_of_star (h : trimStart line = '*' :: tail) : unstar line = afterStar tail := by
  simp only [unstar, h]

theorem unstar_of_not_star (h : trimStart line = c :: tail) (hc : c ≠ '*') : unstar line = line := by
  unfold unstar
  split
  · next hstar => exact absurd (List.cons.inj (h.symm.trans hstar)).1 hc
  · rfl

theorem afterStar_sublist (tail : List Char) : (afterStar tail).Sublist tail := by
  unfold afterStar
  split
  · exact List.sublist_cons_self ' ' _
  · exact List.Sublist.refl tail

theorem unstar_sublist (line : List Char) : (unstar line).Sublist line := by
  have hstart : (trimStart line).Sublist line := (List.dropWhile_suffix isBlank).sublist
  unfold unstar
  split
  · next tail h =>
    rw [h] at hstart
    exact ((afterStar_sublist tail).cons '*').trans hstart
  · exact List.Sublist.refl line

theorem lineText_of_allBlank (h : AllBlank line) : lineText line = [] := by
  rw [lineText, unstar_of_allBlank h, trimEnd_eq_nil_iff]
  exact h

theorem withoutGaps_sublist (lines : List (List Char)) : (withoutGaps lines).Sublist lines := by
  induction lines with
  | nil => exact List.Sublist.refl []
  | cons line rest ih =>
    rw [withoutGaps]
    split_ifs
    · exact List.sublist_cons_of_sublist line ih
    · exact ih.cons_cons line

theorem starNext_of_allBlank (h : AllBlank line) : starNext (line :: rest) = starNext rest :=
  if_pos h

theorem starNext_of_not_allBlank (h : ¬ AllBlank line) : starNext (line :: rest) = isStarred line :=
  if_neg h

theorem withoutGaps_of_gap (h : AllBlank line ∧ starNext rest = true) :
    withoutGaps (line :: rest) = withoutGaps rest :=
  if_pos h

theorem withoutGaps_of_not_gap (h : ¬ (AllBlank line ∧ starNext rest = true)) :
    withoutGaps (line :: rest) = line :: withoutGaps rest :=
  if_neg h

/-- A starred line is never dropped, so some line is left. -/
theorem withoutGaps_ne_nil (h : lines ≠ []) : withoutGaps lines ≠ [] := by
  induction lines with
  | nil => exact absurd rfl h
  | cons line rest ih =>
    rw [withoutGaps]
    split_ifs with hgap
    · apply ih
      rintro rfl
      cases hgap.2
    · exact List.cons_ne_nil line _

/-! ## Lines behind line feeds -/

/-- Lines, each behind a line feed. -/
def feedEach (lines : List (List Char)) : List Char :=
  lines.flatMap ('\n' :: ·)

@[simp] theorem feedEach_nil : feedEach [] = [] := rfl

@[simp] theorem feedEach_cons (line : List Char) (rest : List (List Char)) :
    feedEach (line :: rest) = '\n' :: (line ++ feedEach rest) := rfl

@[simp] theorem feedEach_append (lines rest : List (List Char)) :
    feedEach (lines ++ rest) = feedEach lines ++ feedEach rest :=
  List.flatMap_append

theorem intercalate_cons_eq (line : List Char) (rest : List (List Char)) :
    List.intercalate ['\n'] (line :: rest) = line ++ feedEach rest := by
  induction rest generalizing line with
  | nil => rw [List.intercalate_singleton, feedEach_nil, List.append_nil]
  | cons next rest ih =>
    rw [List.intercalate_cons_cons, ih, feedEach_cons, List.append_assoc, List.singleton_append]

/-- A line feed before the first line goes when the lines are trimmed. -/
theorem trim_intercalate (lines : List (List Char)) :
    trim (List.intercalate ['\n'] lines) = trim (feedEach lines) := by
  cases lines with
  | nil => rfl
  | cons line rest =>
    have hfeed : AllBlank ['\n'] := by decide
    rw [intercalate_cons_eq, feedEach_cons, ← List.singleton_append, trim_of_allBlank_append hfeed]

/-! ## Dropping stars -/

theorem dropStarsFrom_lineFeed (rest : List Char) :
    dropStarsFrom none ('\n' :: rest) = '\n' :: dropStarsFrom (some []) rest := rfl

theorem dropStarsFrom_none_cons (c : Char) (rest : List Char) :
    dropStarsFrom none (c :: rest) = c :: dropStarsFrom (if c = '\n' then some [] else none) rest := rfl

theorem dropStarsFrom_star_cons (h : c ≠ ' ') (blanks rest : List Char) :
    dropStarsFrom (some blanks) ('*' :: c :: rest) = dropStarsFrom none (c :: rest) := by
  rw [dropStarsFrom.eq_def]
  split <;> grind

theorem dropStarsFrom_some_cons (h : c ≠ '*') (blanks rest : List Char) :
    dropStarsFrom (some blanks) (c :: rest) =
      if isBlank c then dropStarsFrom (some (blanks ++ [c])) rest
      else blanks ++ c :: dropStarsFrom none rest := by
  rw [dropStarsFrom.eq_def]
  split <;> grind

/-- Behind the first character of a line that is not blank, a star has no meaning. -/
theorem dropStarsFrom_none (hline : '\n' ∉ line) (rest : List Char) :
    dropStarsFrom none (line ++ rest) = line ++ dropStarsFrom none rest := by
  induction line with
  | nil => rfl
  | cons c line ih =>
    obtain ⟨hc, hrest⟩ := List.ne_and_not_mem_of_not_mem_cons hline
    rw [List.cons_append, dropStarsFrom_none_cons, if_neg hc.symm, ih hrest, List.cons_append]

/-- Blanks from a line start on are kept in mind. -/
theorem dropStarsFrom_blanks (hlead : AllBlank lead) (blanks rest : List Char) :
    dropStarsFrom (some blanks) (lead ++ rest) = dropStarsFrom (some (blanks ++ lead)) rest := by
  induction lead generalizing blanks with
  | nil => rw [List.nil_append, List.append_nil]
  | cons b lead ih =>
    obtain ⟨hb, hrest⟩ := allBlank_cons.mp hlead
    have hstar : b ≠ '*' := by
      rintro rfl
      exact absurd hb (by decide)
    rw [List.cons_append, dropStarsFrom_some_cons hstar, if_pos hb, ih hrest, List.append_assoc,
      List.singleton_append]

/-- A star at a line start goes with the blanks before it and one behind it. A line feed is not that one. -/
theorem dropStarsFrom_star (htail : '\n' ∉ tail) (blanks : List Char) (rest : List (List Char)) :
    dropStarsFrom (some blanks) ('*' :: (tail ++ feedEach rest)) =
      afterStar tail ++ dropStarsFrom none (feedEach rest) := by
  have hafter : '\n' ∉ afterStar tail := fun h => htail ((afterStar_sublist tail).subset h)
  rw [← dropStarsFrom_none hafter]
  cases tail with
  | nil => cases rest <;> rfl
  | cons c tail =>
    by_cases hc : c = ' '
    · subst hc
      rfl
    · rw [List.cons_append, dropStarsFrom_star_cons hc, afterStar, List.cons_append]
      exact fun _ h => hc (List.cons.inj h).1

/-- A line that is not blank decides on the blanks before it: they go with a star and stay otherwise. -/
theorem dropStarsFrom_of_not_allBlank (hline : '\n' ∉ line) (hblank : ¬ AllBlank line)
    (blanks : List Char) (rest : List (List Char)) :
    dropStarsFrom (some blanks) (line ++ feedEach rest) =
      (if isStarred line then [] else blanks) ++ (unstar line ++ dropStarsFrom none (feedEach rest)) := by
  obtain ⟨lead, c, tail, htext, hlead, hc, hstart⟩ := exists_lead_of_not_allBlank hblank
  have htail : '\n' ∉ tail := fun h => hline (by simp [htext, h])
  have hpass : dropStarsFrom (some blanks) (line ++ feedEach rest) =
      dropStarsFrom (some (blanks ++ lead)) (c :: (tail ++ feedEach rest)) := by
    rw [htext, List.append_assoc, dropStarsFrom_blanks hlead, List.cons_append]
  rw [hpass]
  by_cases hstar : c = '*'
  · subst hstar
    have hstarred : isStarred line = true := by simp [isStarred, hstart]
    rw [dropStarsFrom_star htail, unstar_of_star hstart, if_pos hstarred, List.nil_append]
  · have hstarred : isStarred line ≠ true := by simp [isStarred, hstart, hstar]
    rw [unstar_of_not_star hstart hstar, if_neg hstarred, dropStarsFrom_some_cons hstar, hc,
      dropStarsFrom_none htail]
    simp [htext]

/-- A text of lines when its stars are dropped, with the blanks that are still undecided before it. -/
theorem dropStarsFrom_lines (hline : '\n' ∉ line) (hrest : ∀ l ∈ rest, '\n' ∉ l) (blanks : List Char) :
    dropStarsFrom (some blanks) (line ++ feedEach rest) =
      (if starNext (line :: rest) then [] else blanks) ++
        List.intercalate ['\n'] ((withoutGaps (line :: rest)).map unstar) := by
  -- a blank line joins the blanks that are undecided, so the induction is for all of them
  induction rest generalizing line blanks with
  | nil =>
    have hkept : withoutGaps [line] = [line] := withoutGaps_of_not_gap fun h => Bool.false_ne_true h.2
    rw [hkept, List.map_singleton, List.intercalate_singleton]
    by_cases hblank : AllBlank line
    · rw [feedEach_nil, dropStarsFrom_blanks hblank, starNext_of_allBlank hblank, unstar_of_allBlank hblank]
      rfl
    · rw [dropStarsFrom_of_not_allBlank hline hblank, starNext_of_not_allBlank hblank]
      exact congrArg _ (List.append_nil _)
  | cons next rest ih =>
    obtain ⟨hnext, hlater⟩ := List.forall_mem_cons.mp hrest
    have hkept : (withoutGaps (next :: rest)).map unstar ≠ [] := by
      simpa using withoutGaps_ne_nil (List.cons_ne_nil next rest)
    by_cases hblank : AllBlank line
    · have hlead : AllBlank (line ++ ['\n']) := hblank.concat (by decide)
      have hpass : dropStarsFrom (some blanks) (line ++ feedEach (next :: rest)) =
          dropStarsFrom (some (blanks ++ (line ++ ['\n']))) (next ++ feedEach rest) := by
        rw [← dropStarsFrom_blanks hlead, feedEach_cons, List.append_assoc, List.singleton_append]
      rw [hpass, ih hnext hlater, starNext_of_allBlank hblank]
      by_cases hstar : starNext (next :: rest) = true
      · rw [if_pos hstar, if_pos hstar, withoutGaps_of_gap ⟨hblank, hstar⟩]
      · rw [if_neg hstar, if_neg hstar, withoutGaps_of_not_gap fun h => hstar h.2, List.map_cons,
          List.intercalate_cons_of_ne_nil hkept, unstar_of_allBlank hblank, List.append_assoc]
    · rw [dropStarsFrom_of_not_allBlank hline hblank, feedEach_cons, dropStarsFrom_lineFeed,
        ih hnext hlater, ite_self, List.nil_append, starNext_of_not_allBlank hblank,
        withoutGaps_of_not_gap fun h => hblank h.1, List.map_cons,
        List.intercalate_cons_of_ne_nil hkept, List.append_assoc, List.singleton_append]

/-- **What is left of a text when its stars are dropped**: the lines that are no gaps, each without its star. -/
theorem dropStars_eq (h : lines ≠ []) (hlines : ∀ l ∈ lines, '\n' ∉ l) :
    dropStars (List.intercalate ['\n'] lines) =
      List.intercalate ['\n'] ((withoutGaps lines).map unstar) := by
  cases lines with
  | nil => exact absurd rfl h
  | cons line rest =>
    obtain ⟨hline, hrest⟩ := List.forall_mem_cons.mp hlines
    rw [dropStars, intercalate_cons_eq, dropStarsFrom_lines hline hrest, ite_self, List.nil_append]

/-- Cleaning is cleaning of each line, once the gaps are gone. -/
theorem cleanJavadoc_eq (comment : List Char) :
    cleanJavadoc comment = cleanLines (withoutGaps (bodyLines comment)) := by
  have hne : bodyLines comment ≠ [] := List.splitOn_ne_nil '\n' _
  have hlines : ∀ l ∈ bodyLines comment, '\n' ∉ l := fun _ => notMem_of_mem_splitOn
  have hbody : List.intercalate ['\n'] (bodyLines comment) = javadocBody comment :=
    List.intercalate_splitOn '\n'
  have hunstarred : ∀ l ∈ (withoutGaps (bodyLines comment)).map unstar, '\n' ∉ l := by
    intro l hl
    obtain ⟨line, hline, rfl⟩ := List.mem_map.mp hl
    exact fun h => hlines line ((withoutGaps_sublist _).subset hline) ((unstar_sublist line).subset h)
  have hkept : (withoutGaps (bodyLines comment)).map unstar ≠ [] := by
    simpa using withoutGaps_ne_nil hne
  rw [cleanJavadoc, cleanLines, documentation?, ← hbody, dropStars_eq hne hlines, trimLineEnds,
    List.splitOn_intercalate '\n' hunstarred hkept, List.map_map]
  rfl

/-! ## Lines that are missed -/

/-- Some line has a text. -/
def HasText (lines : List (List Char)) : Prop :=
  ∃ line ∈ lines, lineText line ≠ []

/-- Among `lines`, with `done` before them, a blank line goes that has text before it and text behind it. -/
def LosesLineAfter (done lines : List (List Char)) : Prop :=
  ∃ before line after, lines = before ++ line :: after ∧ AllBlank line ∧ starNext after = true ∧
    HasText (done ++ before) ∧ HasText after

/-- A blank line goes that has text before it and text behind it. -/
def LosesLine (lines : List (List Char)) : Prop :=
  LosesLineAfter [] lines

/-- The texts of lines, each behind a line feed. -/
def texts (lines : List (List Char)) : List Char :=
  feedEach (lines.map lineText)

theorem texts_append (lines rest : List (List Char)) :
    texts (lines ++ rest) = texts lines ++ texts rest := by
  rw [texts, List.map_append, feedEach_append, texts, texts]

theorem texts_append_cons_of_allBlank (h : AllBlank line) :
    texts (done ++ line :: rest) = texts done ++ '\n' :: texts rest := by
  rw [texts_append, texts, texts, texts, List.map_cons, feedEach_cons, lineText_of_allBlank h,
    List.nil_append]

theorem allBlank_lineText : AllBlank (lineText line) ↔ lineText line = [] := by
  rw [lineText, allBlank_trimEnd, trimEnd_eq_nil_iff]

theorem hasText_append : HasText (lines ++ rest) ↔ HasText lines ∨ HasText rest := by
  simp only [HasText, List.mem_append, or_and_right, exists_or]

theorem not_hasText_iff : ¬ HasText lines ↔ AllBlank (texts lines) := by
  induction lines with
  | nil => simp [HasText, texts]
  | cons line rest ih =>
    have hfeed : isBlank '\n' = true := by decide
    rw [HasText, List.exists_mem_cons_iff, not_or, ← HasText, ih, not_not, ← allBlank_lineText]
    simp [texts, hfeed]

theorem losesLineAfter_nil : ¬ LosesLineAfter done [] := by
  rintro ⟨before, line, after, h, -⟩
  simp at h

/-- The line that goes is the first one or a later one. -/
theorem losesLineAfter_cons :
    LosesLineAfter done (line :: rest) ↔
      ((AllBlank line ∧ starNext rest = true) ∧ HasText done ∧ HasText rest) ∨
        LosesLineAfter (done ++ [line]) rest := by
  constructor
  · rintro ⟨before, gap, after, h, hgap, hstar, hbefore, hafter⟩
    cases before with
    | nil =>
      obtain ⟨rfl, rfl⟩ := List.cons.inj h
      rw [List.append_nil] at hbefore
      exact .inl ⟨⟨hgap, hstar⟩, hbefore, hafter⟩
    | cons first before =>
      obtain ⟨rfl, rfl⟩ := List.cons.inj h
      rw [← List.singleton_append, ← List.append_assoc] at hbefore
      exact .inr ⟨before, gap, after, rfl, hgap, hstar, hbefore, hafter⟩
  · rintro (⟨⟨hgap, hstar⟩, hbefore, hafter⟩ | ⟨before, gap, after, rfl, hgap, hstar, hbefore, hafter⟩)
    · rw [← List.append_nil done] at hbefore
      exact ⟨[], line, rest, rfl, hgap, hstar, hbefore, hafter⟩
    · rw [List.append_assoc, List.singleton_append] at hbefore
      exact ⟨line :: before, gap, after, rfl, hgap, hstar, hbefore, hafter⟩

/-- A blank line that is done makes no difference. -/
theorem losesLineAfter_append_of_allBlank (h : AllBlank line) :
    LosesLineAfter (done ++ [line]) rest ↔ LosesLineAfter done rest := by
  have hnone : ¬ HasText [line] := by
    rintro ⟨l, hl, htext⟩
    rw [List.mem_singleton.mp hl] at htext
    exact htext (lineText_of_allBlank h)
  simp only [LosesLineAfter, hasText_append, hnone, or_false]

/-- **A gap that goes** costs nothing where there is no text before it or none behind it. -/
theorem trim_texts_of_gap (h : AllBlank line) (hno : ¬ (HasText done ∧ HasText rest)) :
    trim (texts (done ++ line :: rest)) = trim (texts (done ++ rest)) := by
  rw [texts_append_cons_of_allBlank h, texts_append]
  apply trim_append_cons_of_allBlank (by decide)
  rwa [not_and_or, not_hasText_iff, not_hasText_iff] at hno

/-- **A gap between texts** is one line feed. -/
theorem length_trim_texts_of_gap (h : AllBlank line) (hdone : HasText done) (hrest : HasText rest) :
    (trim (texts (done ++ line :: rest))).length = (trim (texts (done ++ rest))).length + 1 := by
  rw [texts_append_cons_of_allBlank h, texts_append]
  apply length_trim_append_cons
  · exact fun hblank => not_hasText_iff.mpr hblank hdone
  · exact fun hblank => not_hasText_iff.mpr hblank hrest

theorem length_trim_withoutGaps_le (done lines : List (List Char)) :
    (trim (texts (done ++ withoutGaps lines))).length ≤ (trim (texts (done ++ lines))).length := by
  induction lines generalizing done with
  | nil => exact Nat.le_refl _
  | cons line rest ih =>
    by_cases hgap : AllBlank line ∧ starNext rest = true
    · rw [withoutGaps_of_gap hgap]
      apply (ih done).trans
      by_cases htext : HasText done ∧ HasText rest
      · rw [length_trim_texts_of_gap hgap.1 htext.1 htext.2]
        exact Nat.le_succ _
      · rw [trim_texts_of_gap hgap.1 htext]
    · rw [withoutGaps_of_not_gap hgap, List.append_cons, List.append_cons done line rest]
      exact ih (done ++ [line])

/-- **The text misses none of the lines that go** just when none of them stood between texts. -/
theorem trim_withoutGaps_eq_iff (done lines : List (List Char)) :
    trim (texts (done ++ withoutGaps lines)) = trim (texts (done ++ lines)) ↔
      ¬ LosesLineAfter done lines := by
  induction lines generalizing done with
  | nil => exact iff_of_true rfl losesLineAfter_nil
  | cons line rest ih =>
    rw [losesLineAfter_cons]
    by_cases hgap : AllBlank line ∧ starNext rest = true
    · rw [withoutGaps_of_gap hgap, losesLineAfter_append_of_allBlank hgap.1]
      by_cases htext : HasText done ∧ HasText rest
      · -- the text is shorter by this line, and the lines that go later make it no longer
        have hless := length_trim_withoutGaps_le done rest
        have hgone := length_trim_texts_of_gap hgap.1 htext.1 htext.2
        apply iff_of_false
        · intro heq
          rw [heq] at hless
          omega
        · exact not_not_intro (.inl ⟨hgap, htext⟩)
      · rw [trim_texts_of_gap hgap.1 htext, ih done]
        simp only [htext, and_false, false_or]
    · rw [withoutGaps_of_not_gap hgap, List.append_cons, List.append_cons done line rest,
        ih (done ++ [line])]
      simp only [hgap, false_and, false_or]

theorem documentation?_eq_iff {lines' : List (List Char)} :
    documentation? lines = documentation? lines' ↔ trim (feedEach lines) = trim (feedEach lines') := by
  simp only [documentation?, trim_intercalate, List.isEmpty_iff]
  split_ifs with h h' h'
  · simp [h, h']
  · simp [h, Ne.symm h']
  · simp [h', h]
  · rw [Option.some_inj]

theorem cleanLines_withoutGaps_eq_iff :
    cleanLines (withoutGaps lines) = cleanLines lines ↔ ¬ LosesLine lines := by
  rw [cleanLines, cleanLines, documentation?_eq_iff]
  exact trim_withoutGaps_eq_iff [] lines

/-- **Cleaning, line by line.** A comment is cleaned by cleaning each of its lines, once the blank lines that a
starred line follows are gone; and it is cleaned by cleaning all of its lines just when none of these had text
before it and text behind it. -/
theorem cleanJavadoc_by_lines (comment : List Char) :
    cleanJavadoc comment = cleanLines (withoutGaps (bodyLines comment)) ∧
    (cleanJavadoc comment = cleanLines (bodyLines comment) ↔ ¬ LosesLine (bodyLines comment)) := by
  rw [cleanJavadoc_eq]
  exact ⟨rfl, cleanLines_withoutGaps_eq_iff⟩

/-- An empty line between paragraphs is lost, since the second one has a star. -/
theorem cleanJavadoc_joins_paragraphs :
    cleanJavadoc "/** a\n\n * b */".toList = some "a\nb".toList ∧
    cleanLines (bodyLines "/** a\n\n * b */".toList) = some "a\n\nb".toList := by
  decide +kernel

/-! ## The usual layout -/

variable {indent doc : List Char} {docs : List (List Char)}

/-- A line of documentation, with its indentation and its star. -/
def starLine (indent doc : List Char) : List Char :=
  indent ++ ' ' :: '*' :: ' ' :: doc

/-- A comment in the usual layout: the delimiters stand on lines of their own, and each line of documentation
has a star. -/
def formatJavadoc (indent : List Char) (docs : List (List Char)) : List Char :=
  List.intercalate ['\n']
    (javadocOpener :: (docs.map (starLine indent) ++ [indent ++ ' ' :: javadocCloser]))

/-- The lines between the delimiters of a comment in the usual layout, with what is left of the lines that
these stand on. -/
def layoutLines (indent : List Char) (docs : List (List Char)) : List (List Char) :=
  [] :: (docs.map (starLine indent) ++ [indent ++ [' ']])

theorem trim_delimited (body : List Char) :
    trim (javadocOpener ++ body ++ javadocCloser) = javadocOpener ++ body ++ javadocCloser := by
  have hopener : ¬ AllBlank (javadocOpener ++ body) := by simp [javadocOpener, isBlank]
  have hcloser : ¬ AllBlank javadocCloser := by decide
  have hstart : trimStart (javadocOpener ++ body) = javadocOpener ++ body := rfl
  rw [trim_append_of_not hopener hcloser, hstart]
  rfl

theorem isPrefixOf_opener (text : List Char) : javadocOpener.isPrefixOf (javadocOpener ++ text) = true :=
  List.isPrefixOf_iff_prefix.mpr (List.prefix_append javadocOpener text)

/-- Whatever stands between the delimiters of a comment is its body. -/
theorem javadocBody_delimited (body : List Char) :
    javadocBody (javadocOpener ++ body ++ javadocCloser) = body := by
  have hcloser : javadocCloser.isSuffixOf (body ++ javadocCloser) = true :=
    List.isSuffixOf_iff_suffix.mpr (List.suffix_append _ _)
  rw [javadocBody, trim_delimited, List.append_assoc]
  simp [isPrefixOf_opener, hcloser]

theorem isJavadoc_delimited (body : List Char) :
    isJavadoc (javadocOpener ++ body ++ javadocCloser) = true := by
  have hlong : javadocOpener ++ (body ++ javadocCloser) ≠ emptyComment := by
    intro h
    have hlength := congrArg List.length h
    simp [javadocOpener, javadocCloser, emptyComment] at hlength
  rw [isJavadoc, trim_delimited, List.append_assoc]
  simp [isPrefixOf_opener, hlong]

theorem formatJavadoc_eq (indent : List Char) (docs : List (List Char)) :
    formatJavadoc indent docs =
      javadocOpener ++ List.intercalate ['\n'] (layoutLines indent docs) ++ javadocCloser := by
  rw [formatJavadoc, layoutLines, intercalate_cons_eq, intercalate_cons_eq]
  simp

theorem bodyLines_formatJavadoc (hindent : '\n' ∉ indent) (hdocs : ∀ d ∈ docs, '\n' ∉ d) :
    bodyLines (formatJavadoc indent docs) = layoutLines indent docs := by
  rw [bodyLines, formatJavadoc_eq, javadocBody_delimited]
  apply List.splitOn_intercalate
  · intro line hline
    simp only [layoutLines, List.mem_cons, List.mem_append, List.mem_map, List.not_mem_nil, or_false] at hline
    rcases hline with rfl | ⟨doc, hdoc, rfl⟩ | rfl
    · exact List.not_mem_nil
    · simp [starLine, hindent, hdocs doc hdoc]
    · simp [hindent]
  · exact List.cons_ne_nil _ _

/-- Behind the blanks of the indentation, a line of documentation starts with its star. -/
theorem trimStart_starLine (hindent : AllBlank indent) :
    trimStart (starLine indent doc) = '*' :: ' ' :: doc := by
  have hlead : AllBlank (indent ++ [' ']) := hindent.concat (by decide)
  rw [starLine, List.append_cons, trimStart_of_allBlank_append hlead]
  rfl

theorem lineText_starLine (hindent : AllBlank indent) : lineText (starLine indent doc) = trimEnd doc := by
  rw [lineText, unstar_of_star (trimStart_starLine hindent), afterStar]

theorem not_allBlank_starLine (hindent : AllBlank indent) : ¬ AllBlank (starLine indent doc) := by
  rw [← trimStart_eq_nil_iff, trimStart_starLine hindent]
  exact List.cons_ne_nil _ _

/-- **The usual layout loses no line**: the only blank lines are the first and the last one. -/
theorem not_losesLine_layoutLines (hindent : AllBlank indent) : ¬ LosesLine (layoutLines indent docs) := by
  rintro ⟨before, line, after, h, hblank, -, hbefore, hafter⟩
  have hnone : ¬ HasText [] := by simp [HasText]
  cases before with
  | nil => exact hnone hbefore
  | cons first before =>
    -- a line with others before it and behind it is one of the starred lines
    have hline : line ∈ docs.map (starLine indent) := by
      have hlater : docs.map (starLine indent) ++ [indent ++ [' ']] = before ++ line :: after :=
        (List.cons.inj h).2
      rcases List.eq_nil_or_concat after with rfl | ⟨inner, last, rfl⟩
      · exact absurd hafter hnone
      · rw [List.concat_eq_append, ← List.cons_append, ← List.append_assoc] at hlater
        rw [(List.append_inj' hlater rfl).1]
        simp
    obtain ⟨doc, -, rfl⟩ := List.mem_map.mp hline
    exact not_allBlank_starLine hindent hblank

/-- The texts of the usual layout are the lines of documentation, between two blank ones. -/
theorem cleanLines_layoutLines (hindent : AllBlank indent) :
    cleanLines (layoutLines indent docs) = documentation? (docs.map trimEnd) := by
  have hfirst : lineText [] = [] := rfl
  have hlast : lineText (indent ++ [' ']) = [] := lineText_of_allBlank (hindent.concat (by decide))
  have hstars : (docs.map (starLine indent)).map lineText = docs.map trimEnd := by
    rw [List.map_map]
    exact List.map_congr_left fun doc _ => lineText_starLine hindent
  have hfeed : AllBlank ['\n'] := by decide
  rw [cleanLines, documentation?_eq_iff, layoutLines, List.map_cons, List.map_append, hstars, hfirst,
    List.map_singleton, hlast, feedEach_cons, feedEach_append, List.nil_append, ← List.singleton_append,
    trim_of_allBlank_append hfeed]
  exact trim_append_of_allBlank hfeed

/-- **Cleaning undoes the usual layout.** Whatever blanks a comment is indented by and whatever lines it lays
out, it is documentation, and cleaned it has these lines again, up to the blanks at their ends. -/
theorem cleanJavadoc_formatJavadoc (hindent : AllBlank indent) (hfeed : '\n' ∉ indent)
    (hdocs : ∀ d ∈ docs, '\n' ∉ d) :
    cleanJavadoc (formatJavadoc indent docs) = documentation? (docs.map trimEnd) ∧
    isJavadoc (formatJavadoc indent docs) = true := by
  constructor
  · rw [cleanJavadoc_eq, bodyLines_formatJavadoc hfeed hdocs,
      cleanLines_withoutGaps_eq_iff.mpr (not_losesLine_layoutLines hindent), cleanLines_layoutLines hindent]
  · rw [formatJavadoc_eq, isJavadoc_delimited]

/-- A line that starts with a star of its own, an empty line and one that starts with a blank of its own. -/
theorem cleanJavadoc_formatJavadoc_list :
    AllBlank "\t".toList ∧ '\n' ∉ "\t".toList ∧
    (∀ d ∈ ["* a ".toList, [], " b".toList], '\n' ∉ d) ∧
    formatJavadoc "\t".toList ["* a ".toList, [], " b".toList] =
      "/**\n\t * * a \n\t * \n\t *  b\n\t */".toList ∧
    cleanJavadoc "/**\n\t * * a \n\t * \n\t *  b\n\t */".toList = some "* a\n\n b".toList ∧
    isJavadoc "/**\n\t * * a \n\t * \n\t *  b\n\t */".toList = true := by
  have hindent : AllBlank "\t".toList := by decide +kernel
  have hfeed : '\n' ∉ "\t".toList := by decide +kernel
  have hdocs : ∀ d ∈ ["* a ".toList, [], " b".toList], '\n' ∉ d := by decide +kernel
  have hformat : formatJavadoc "\t".toList ["* a ".toList, [], " b".toList] =
      "/**\n\t * * a \n\t * \n\t *  b\n\t */".toList := by decide +kernel
  have htext : documentation? (["* a ".toList, [], " b".toList].map trimEnd) =
      some "* a\n\n b".toList := by decide +kernel
  obtain ⟨hclean, hjavadoc⟩ := cleanJavadoc_formatJavadoc hindent hfeed hdocs
  rw [hformat] at hclean hjavadoc
  exact ⟨hindent, hfeed, hdocs, hformat, hclean.trans htext, hjavadoc⟩

end Gleaner.Java
