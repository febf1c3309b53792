import Mathlib.Data.List.Chain
import Mathlib.Data.List.Forall2
import Gleaner.Proofs.Java.Cleaning

/-!
# The text that cleaning leaves

Cleaning a comment takes characters away and adds none. What it leaves is tidy: there is no blank at either end, and
none at the end of a line inside. The second is lost nowhere on the way, though the lines are trimmed before
the whole text is: a blank that ends no line is followed by a character that is not a line feed, and this is a matter
of neighbours, which trimming at the outer ends does not change.

A comment may end its lines in a carriage return and a line feed. The delimiters and the stars are where they were,
and of the carriage returns each stands at the end of a line, where cleaning does not see it: it trims that end,
and whether a line is blank or has a star does not depend on the blanks behind it.

## Main definitions

* `Tidy`: a text without blanks at its ends and at the ends of its lines
* `withReturns`: a text with a carriage return before each line feed
* `Padded`: a line and the same line with blanks behind it

## Main results

* `bareLineEnds_iff`: the ends of lines as a matter of neighbours
* `cleanJavadoc_sublist`: cleaning only takes characters away
* `javadocBody_withReturns`, `padded_splitOn_withReturns`: carriage returns in the body of a comment and in its lines
* `cleanJavadoc_tidy`: what cleaning leaves is tidy, and the same with either kind of line ends
-/

namespace Gleaner.Java

open Gleaner.Text

variable {c : Char} {cs text mark line padded blanks : List Char} {lines padding : List (List Char)}

/-! ## Cleaning takes away -/

/-- Dropping stars takes characters away, of the blanks that are undecided and of the text behind them. -/
theorem dropStarsFrom_sublist (start : Option (List Char)) (text : List Char) :
    (dropStarsFrom start text).Sublist (start.getD [] ++ text) := by
  -- what is undecided stands before the text, so the blanks of `start` count as read
  fun_induction dropStarsFrom start text with
  | case1 => exact List.Sublist.refl []
  | case2 blanks => exact List.sublist_append_left blanks []
  | case3 c rest ih =>
    have hundecided : (if c = '\n' then some [] else none : Option (List Char)).getD [] = [] := by
      split_ifs <;> rfl
    rw [hundecided] at ih
    exact ih.cons_cons c
  | case4 blanks rest ih =>
    exact ((ih.cons ' ').cons '*').trans (List.sublist_append_right blanks _)
  | case5 blanks rest _ ih =>
    exact (ih.cons '*').trans (List.sublist_append_right blanks _)
  | case6 blanks c rest _ _ _ ih =>
    rwa [Option.getD_some, List.append_assoc, List.singleton_append] at ih
  | case7 blanks c rest _ _ _ ih =>
    exact (ih.cons_cons c).append_left blanks

/-- Lines that lose characters give a text that does. -/
theorem intercalate_map_sublist {f : List Char → List Char} (h : ∀ line, (f line).Sublist line)
    (lines : List (List Char)) :
    (List.intercalate ['\n'] (lines.map f)).Sublist (List.intercalate ['\n'] lines) := by
  induction lines with
  | nil => exact List.Sublist.refl _
  | cons line rest ih =>
    cases rest with
    | nil =>
      rw [List.map_singleton, List.intercalate_singleton, List.intercalate_singleton]
      exact h line
    | cons next rest =>
      rw [List.map_cons, List.map_cons, List.intercalate_cons_cons, List.intercalate_cons_cons]
      exact ((h line).append (List.Sublist.refl ['\n'])).append ih

theorem trimLineEnds_sublist (text : List Char) : (trimLineEnds text).Sublist text := by
  have hlines := intercalate_map_sublist
    (fun line => (trimEnd_isPrefix line).sublist) (text.splitOn '\n')
  rwa [List.intercalate_splitOn] at hlines

theorem javadocBody_sublist (comment : List Char) : (javadocBody comment).Sublist comment := by
  have htrim := (trim_isInfix comment).sublist
  unfold javadocBody
  dsimp only
  split_ifs
  · exact (List.take_sublist _ _).trans ((List.drop_sublist _ _).trans htrim)
  · exact (List.drop_sublist _ _).trans htrim
  · exact (List.take_sublist _ _).trans htrim
  · exact htrim

theorem eq_of_cleanJavadoc (h : cleanJavadoc cs = some text) :
    text = trim (trimLineEnds (dropStars (javadocBody cs))) ∧ text ≠ [] := by
  unfold cleanJavadoc at h
  dsimp only at h
  split_ifs at h with hempty
  obtain rfl := Option.some.inj h
  exact ⟨rfl, fun hnil => hempty (List.isEmpty_iff.mpr hnil)⟩

/-- **Cleaning only takes characters away.** -/
theorem cleanJavadoc_sublist (h : cleanJavadoc cs = some text) : text.Sublist cs := by
  rw [(eq_of_cleanJavadoc h).1]
  have hlines := (trimLineEnds_sublist (dropStars (javadocBody cs))).trans
    (dropStarsFrom_sublist (some []) (javadocBody cs))
  exact (trim_isInfix _).sublist.trans (hlines.trans (javadocBody_sublist cs))

/-! ## The ends of lines -/

/-- No line of a text ends with a blank. -/
def BareLineEnds (text : List Char) : Prop :=
  ∀ line ∈ text.splitOn '\n', ∀ c ∈ line.getLast?, isBlank c = false

/-- A text without blanks at its ends and at the ends of its lines. -/
structure Tidy (text : List Char) : Prop where
  ne_nil : text ≠ []
  first : ∀ c ∈ text.head?, isBlank c = false
  last : ∀ c ∈ text.getLast?, isBlank c = false
  lineEnds : BareLineEnds text

theorem bareLineEnds_lineFeed : BareLineEnds ('\n' :: text) ↔ BareLineEnds text := by
  simp [BareLineEnds, splitOn_cons]

/-- A character at the end of its line must not be blank; any other has no say. -/
theorem bareLineEnds_cons (h : c ≠ '\n') :
    BareLineEnds (c :: text) ↔
      (text.head?.all (· = '\n') = true → isBlank c = false) ∧ BareLineEnds text := by
  cases text with
  | nil => simp [BareLineEnds, splitOn_cons, h]
  | cons d rest =>
    -- the line goes on behind the character unless a line feed follows
    obtain ⟨piece, pieces, hpieces⟩ := List.exists_cons_of_ne_nil (List.splitOn_ne_nil '\n' rest)
    by_cases hd : d = '\n'
    · simp [BareLineEnds, splitOn_cons, h, hd]
    · simp [BareLineEnds, splitOn_cons, h, hd, hpieces, List.getLast?_cons_cons]

/-- **The ends of lines as a matter of neighbours**: before a line feed stands a line feed or a character that is
not blank, and so at the end. -/
theorem bareLineEnds_iff (text : List Char) :
    BareLineEnds text ↔
      text.IsChain (fun a b => b = '\n' → a = '\n' ∨ isBlank a = false) ∧
        ∀ c ∈ text.getLast?, c = '\n' ∨ isBlank c = false := by
  induction text with
  | nil => simp [BareLineEnds]
  | cons c rest ih =>
    by_cases hc : c = '\n'
    · subst hc
      rw [bareLineEnds_lineFeed, ih, List.isChain_cons]
      cases rest <;> simp
    · rw [bareLineEnds_cons hc, ih, List.isChain_cons]
      cases rest <;> simp [hc, and_assoc]

/-- Lines that are trimmed at their ends keep them when the whole text is trimmed. -/
theorem bareLineEnds_trim_trimLineEnds (text : List Char) :
    BareLineEnds (trim (trimLineEnds text)) := by
  have hlines : ∀ line ∈ (text.splitOn '\n').map trimEnd, '\n' ∉ line := by
    intro line hline
    obtain ⟨piece, hpiece, rfl⟩ := List.mem_map.mp hline
    exact fun h => notMem_of_mem_splitOn hpiece ((trimEnd_isPrefix piece).subset h)
  have hbare : BareLineEnds (trimLineEnds text) := by
    intro line hline c hc
    rw [trimLineEnds, List.splitOn_intercalate '\n' hlines (by simp)] at hline
    obtain ⟨piece, -, rfl⟩ := List.mem_map.mp hline
    exact isBlank_of_mem_getLast?_trimEnd hc
  -- trimming the whole leaves neighbours as they are, and takes care of the end itself
  have hinside := List.IsChain.infix ((bareLineEnds_iff _).mp hbare).1 (trim_isInfix _)
  apply (bareLineEnds_iff _).mpr
  refine ⟨hinside, ?_⟩
  intro c hc
  exact .inr (isBlank_of_mem_getLast?_trimEnd hc)

/-- What cleaning leaves is tidy. -/
theorem tidy_of_cleanJavadoc (h : cleanJavadoc cs = some text) : Tidy text := by
  obtain ⟨htext, hne⟩ := eq_of_cleanJavadoc h
  rw [htext] at hne ⊢
  refine ⟨hne, fun c hc => ?_, fun c hc => isBlank_of_mem_getLast?_trimEnd hc,
    bareLineEnds_trim_trimLineEnds _⟩
  obtain ⟨rest, hrest⟩ := List.head?_eq_some_iff.mp hc
  exact isBlank_of_trim_cons hrest

/-! ## Carriage returns -/

/-- A text with a carriage return before each line feed. -/
def withReturns (text : List Char) : List Char :=
  text.flatMap fun c => if c = '\n' then ['\r', '\n'] else [c]

@[simp] theorem withReturns_nil : withReturns [] = [] := rfl

@[simp] theorem withReturns_lineFeed (text : List Char) :
    withReturns ('\n' :: text) = '\r' :: '\n' :: withReturns text := rfl

theorem withReturns_cons (h : c ≠ '\n') (text : List Char) :
    withReturns (c :: text) = c :: withReturns text := by
  simp [withReturns, h]

@[simp] theorem withReturns_append (cs text : List Char) :
    withReturns (cs ++ text) = withReturns cs ++ withReturns text :=
  List.flatMap_append

theorem withReturns_of_notMem (h : '\n' ∉ text) : withReturns text = text := by
  induction text with
  | nil => rfl
  | cons c rest ih =>
    obtain ⟨hc, hrest⟩ := List.ne_and_not_mem_of_not_mem_cons h
    rw [withReturns_cons hc.symm, ih hrest]

theorem lineFeed_mem_withReturns : '\n' ∈ withReturns text ↔ '\n' ∈ text := by
  constructor
  · intro h
    by_contra hnot
    rw [withReturns_of_notMem hnot] at h
    exact hnot h
  · intro h
    exact List.mem_flatMap.mpr ⟨'\n', h, by simp⟩

theorem ne_lineFeed_of_isBlank_eq_false (h : isBlank c = false) : c ≠ '\n' := by
  rintro rfl
  exact absurd h (by decide)

theorem allBlank_withReturns_singleton (h : isBlank c = true) : AllBlank (withReturns [c]) := by
  by_cases hc : c = '\n'
  · subst hc
    decide
  · simp [withReturns_cons hc, h]

theorem trimStart_withReturns (text : List Char) :
    trimStart (withReturns text) = withReturns (trimStart text) := by
  induction text with
  | nil => rfl
  | cons c rest ih =>
    cases hc : isBlank c with
    | true =>
      have hblank : AllBlank [c] := by simp [hc]
      rw [← List.singleton_append, withReturns_append,
        trimStart_of_allBlank_append (allBlank_withReturns_singleton hc),
        trimStart_of_allBlank_append hblank, ih]
    | false =>
      have hfeed := ne_lineFeed_of_isBlank_eq_false hc
      simp [trimStart, withReturns_cons hfeed, hc]

theorem trimEnd_withReturns (text : List Char) :
    trimEnd (withReturns text) = withReturns (trimEnd text) := by
  induction text using List.reverseRecOn with
  | nil => rfl
  | append_singleton init c ih =>
    cases hc : isBlank c with
    | true =>
      have hblank : AllBlank [c] := by simp [hc]
      rw [withReturns_append, trimEnd_append_of_allBlank (allBlank_withReturns_singleton hc),
        trimEnd_append_of_allBlank hblank, ih]
    | false =>
      have hblank : ¬ AllBlank [c] := by simp [hc]
      have hkept : trimEnd [c] = [c] := by simp [trimEnd, dropEnd, hc]
      have hlast : withReturns [c] = [c] := withReturns_cons (ne_lineFeed_of_isBlank_eq_false hc) []
      rw [withReturns_append, hlast, trimEnd_append_of_not hblank, trimEnd_append_of_not hblank, hkept,
        withReturns_append, hlast]

theorem trim_withReturns (text : List Char) : trim (withReturns text) = withReturns (trim text) := by
  rw [trim, trimStart_withReturns, trimEnd_withReturns, trim]

/-- Carriage returns do not change what a text starts with. -/
theorem prefix_withReturns_iff (hfeed : '\n' ∉ mark) (hreturn : '\r' ∉ mark) :
    mark <+: withReturns text ↔ mark <+: text := by
  induction mark generalizing text with
  | nil => simp
  | cons m mark ih =>
    obtain ⟨hm, hmark⟩ := List.ne_and_not_mem_of_not_mem_cons hfeed
    obtain ⟨hm', hmark'⟩ := List.ne_and_not_mem_of_not_mem_cons hreturn
    cases text with
    | nil => simp
    | cons c rest =>
      by_cases hc : c = '\n'
      · subst hc
        simp [List.cons_prefix_cons, hm.symm, hm'.symm]
      · rw [withReturns_cons hc, List.cons_prefix_cons, List.cons_prefix_cons, ih hmark hmark']

/-- Carriage returns do not change what a text ends with. -/
theorem suffix_withReturns_iff (hfeed : '\n' ∉ mark) :
    mark <:+ withReturns text ↔ mark <:+ text := by
  induction text with
  | nil => rfl
  | cons c rest ih =>
    by_cases hc : c = '\n'
    · subst hc
      have hlong : ∀ more, mark ≠ '\n' :: more := by
        rintro more rfl
        exact hfeed List.mem_cons_self
      have hlonger : ∀ more, mark ≠ '\r' :: '\n' :: more := by
        rintro more rfl
        exact hfeed (List.mem_cons_of_mem _ List.mem_cons_self)
      simp [List.suffix_cons_iff, hlong, hlonger, ih]
    · -- a text that ends in the mark from its first character on has no line feed
      have hwhole : mark = c :: withReturns rest ↔ mark = c :: rest := by
        constructor <;> rintro rfl <;> simp only [List.mem_cons, not_or] at hfeed
        · rw [withReturns_of_notMem (mt lineFeed_mem_withReturns.mpr hfeed.2)]
        · rw [withReturns_of_notMem hfeed.2]
      rw [withReturns_cons hc, List.suffix_cons_iff, List.suffix_cons_iff, ih, hwhole]

theorem dropOpener_withReturns (text : List Char) :
    (if javadocOpener.isPrefixOf (withReturns text) then
        (withReturns text).drop javadocOpener.length else withReturns text) =
      withReturns (if javadocOpener.isPrefixOf text then text.drop javadocOpener.length else text) := by
  simp only [List.isPrefixOf_iff_prefix,
    prefix_withReturns_iff (show '\n' ∉ javadocOpener by decide) (by decide)]
  split_ifs with h
  · obtain ⟨rest, rfl⟩ := h
    rw [withReturns_append, withReturns_of_notMem (by decide), List.drop_left, List.drop_left]
  · rfl

theorem dropCloser_withReturns (text : List Char) :
    (if javadocCloser.isSuffixOf (withReturns text) then
        (withReturns text).take ((withReturns text).length - javadocCloser.length)
      else withReturns text) =
      withReturns (if javadocCloser.isSuffixOf text then
        text.take (text.length - javadocCloser.length) else text) := by
  simp only [List.isSuffixOf_iff_suffix, suffix_withReturns_iff (show '\n' ∉ javadocCloser by decide)]
  split_ifs with h
  · obtain ⟨init, rfl⟩ := h
    rw [withReturns_append, withReturns_of_notMem (show '\n' ∉ javadocCloser by decide)]
    simp
  · rfl

/-- **The delimiters of a comment** are where they were. -/
theorem javadocBody_withReturns (comment : List Char) :
    javadocBody (withReturns comment) = withReturns (javadocBody comment) := by
  unfold javadocBody
  dsimp only
  rw [trim_withReturns, dropOpener_withReturns, dropCloser_withReturns]

/-! ## Blanks behind lines -/

/-- The second line is the first one with blanks behind it. -/
def Padded (line padded : List Char) : Prop :=
  ∃ blanks, AllBlank blanks ∧ padded = line ++ blanks

theorem Padded.refl (line : List Char) : Padded line line :=
  ⟨[], allBlank_nil, (List.append_nil line).symm⟩

theorem Padded.allBlank_iff (h : Padded line padded) : AllBlank padded ↔ AllBlank line := by
  obtain ⟨blanks, hblanks, rfl⟩ := h
  simp [hblanks]

theorem trimEnd_afterStar_append (h : AllBlank blanks) (tail : List Char) :
    trimEnd (afterStar (tail ++ blanks)) = trimEnd (afterStar tail) := by
  cases tail with
  | nil =>
    have hrest : AllBlank (afterStar blanks) := fun c hc => h c ((afterStar_sublist blanks).subset hc)
    rw [List.nil_append, trimEnd_eq_nil_iff.mpr hrest]
    rfl
  | cons c tail =>
    by_cases hc : c = ' '
    · subst hc
      exact trimEnd_append_of_allBlank h
    · have hkept : ∀ tail, afterStar (c :: tail) = c :: tail := by
        intro tail
        rw [afterStar]
        exact fun _ heq => hc (List.cons.inj heq).1
      rw [List.cons_append, hkept, hkept, ← List.cons_append, trimEnd_append_of_allBlank h]

/-- Blanks behind a line make no star and hide none, and they are no text. -/
theorem Padded.isStarred_lineText (h : Padded line padded) :
    isStarred padded = isStarred line ∧ lineText padded = lineText line := by
  by_cases hline : AllBlank line
  · have hpadded := h.allBlank_iff.mpr hline
    rw [lineText_of_allBlank hline, lineText_of_allBlank hpadded]
    simp [isStarred, trimStart_eq_nil_iff.mpr, hline, hpadded]
  · obtain ⟨blanks, hblanks, rfl⟩ := h
    obtain ⟨lead, c, tail, -, -, -, hstart⟩ := exists_lead_of_not_allBlank hline
    have hstart' : trimStart (line ++ blanks) = c :: (tail ++ blanks) := by
      rw [trimStart_append_of_not hline, hstart, List.cons_append]
    refine ⟨by rw [isStarred, isStarred, hstart, hstart']; rfl, ?_⟩
    by_cases hc : c = '*'
    · subst hc
      rw [lineText, lineText, unstar_of_star hstart, unstar_of_star hstart',
        trimEnd_afterStar_append hblanks]
    · rw [lineText, lineText, unstar_of_not_star hstart hc, unstar_of_not_star hstart' hc,
        trimEnd_append_of_allBlank hblanks]

theorem starNext_eq_of_padded (h : List.Forall₂ Padded lines padding) :
    starNext padding = starNext lines := by
  induction h with
  | nil => rfl
  | cons hline _ ih =>
    simp only [starNext, hline.allBlank_iff, hline.isStarred_lineText.1, ih]

/-- **Blanks behind lines** do not change which lines are left and what their texts are. -/
theorem map_lineText_eq_of_padded (h : List.Forall₂ Padded lines padding) :
    (withoutGaps padding).map lineText = (withoutGaps lines).map lineText := by
  induction h with
  | nil => rfl
  | cons hline hrest ih =>
    simp only [withoutGaps, hline.allBlank_iff, starNext_eq_of_padded hrest]
    split_ifs
    · exact ih
    · rw [List.map_cons, List.map_cons, hline.isStarred_lineText.2, ih]

/-- A character that joins the first line on both sides changes nothing. -/
theorem padded_modifyHead_cons (c : Char) (h : List.Forall₂ Padded lines padding) :
    List.Forall₂ Padded (lines.modifyHead (c :: ·)) (padding.modifyHead (c :: ·)) := by
  cases h with
  | nil => exact List.Forall₂.nil
  | cons hline hlater =>
    obtain ⟨blanks, hblanks, rfl⟩ := hline
    exact List.Forall₂.cons ⟨blanks, hblanks, rfl⟩ hlater

/-- With carriage returns, each line is what it was with blanks behind it. -/
theorem padded_splitOn_withReturns (text : List Char) :
    List.Forall₂ Padded (text.splitOn '\n') ((withReturns text).splitOn '\n') := by
  induction text with
  | nil => exact List.forall₂_same.mpr fun line _ => Padded.refl line
  | cons c rest ih =>
    by_cases hc : c = '\n'
    · subst hc
      have hreturn : Padded [] ['\r'] := ⟨['\r'], by decide, rfl⟩
      simpa [splitOn_cons] using List.Forall₂.cons hreturn ih
    · rw [withReturns_cons hc, splitOn_cons, splitOn_cons, if_neg hc, if_neg hc]
      exact padded_modifyHead_cons c ih

theorem cleanJavadoc_withReturns (comment : List Char) :
    cleanJavadoc (withReturns comment) = cleanJavadoc comment := by
  have hlines : List.Forall₂ Padded (bodyLines comment) (bodyLines (withReturns comment)) := by
    rw [bodyLines, bodyLines, javadocBody_withReturns]
    exact padded_splitOn_withReturns _
  rw [cleanJavadoc_eq, cleanJavadoc_eq, cleanLines, cleanLines, map_lineText_eq_of_padded hlines]

/-- **What cleaning leaves.** Of any comment, well formed or not, cleaning leaves a text that has no blank at its ends
and none at the end of a line, and whose characters stand in the comment in the same order; or it leaves nothing.
It leaves the same if the lines of the comment end in a carriage return and a line feed. -/
theorem cleanJavadoc_tidy (comment : List Char) :
    (∀ text, cleanJavadoc comment = some text → Tidy text ∧ text.Sublist comment) ∧
      cleanJavadoc (withReturns comment) = cleanJavadoc comment :=
  ⟨fun _ h => ⟨tidy_of_cleanJavadoc h, cleanJavadoc_sublist h⟩, cleanJavadoc_withReturns comment⟩

/-- A comment that is cut off, with a line of blanks and a star that a tab follows. -/
theorem cleanJavadoc_tidy_of_truncated :
    cleanJavadoc "/**  a \n \n *\tb\t\n\n *".toList = some "a\n\tb".toList ∧
      Tidy "a\n\tb".toList ∧
      ("a\n\tb".toList).Sublist "/**  a \n \n *\tb\t\n\n *".toList ∧
      cleanJavadoc "/**  a \r\n \r\n *\tb\t\r\n\r\n *".toList = some "a\n\tb".toList := by
  have hclean : cleanJavadoc "/**  a \n \n *\tb\t\n\n *".toList = some "a\n\tb".toList := by
    decide +kernel
  have hreturns : withReturns "/**  a \n \n *\tb\t\n\n *".toList =
      "/**  a \r\n \r\n *\tb\t\r\n\r\n *".toList := by decide +kernel
  obtain ⟨htext, hsame⟩ := cleanJavadoc_tidy "/**  a \n \n *\tb\t\n\n *".toList
  rw [hreturns, hclean] at hsame
  exact ⟨hclean, (htext _ hclean).1, (htext _ hclean).2, hsame⟩

end Gleaner.Java
