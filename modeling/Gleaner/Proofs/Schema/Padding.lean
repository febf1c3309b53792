import Gleaner.Proofs.Schema.Matching
import Gleaner.Proofs.Schema.Restart

/-!
# Blanks at the ends of lines

Lines of a schema file may end in blanks, as they do in a file whose lines end in a carriage return and a
line feed. None of this matters to a scan. Comments and package lines are trimmed before they are looked at;
an opener ends with its brace, before which a blank at the end of the line cannot get; and a blank neither
is a brace nor opens or closes anything that hides one. A single character is looked at together with the
one behind it, and a slash or a star at the end of a line starts nothing with a blank either.

What a scan keeps of the lines themselves, it keeps for the snippets. So two states count as alike if they
differ in nothing but the lines in them, and blanks behind a line lead from alike states to alike ones.

## Main definitions

* `State.Alike`, `Step.Alike`: states and steps that differ only in the lines they hold
* `appendEach`: lines with something behind each of them
* `Element.withSnippet`: an element with another snippet

## Main results

* `opener?_append_blanks`, `tally_append_blanks`: the two readers that see whole lines
* `State.Alike.step`, `State.Alike.scanFrom`: one line, and all lines
* `scanLines_ignores_trailing_blanks`: only the snippets show the blanks
-/

namespace Gleaner

/-- An element with another snippet. -/
def Element.withSnippet (snippet : String) (e : Element) : Element :=
  { e with context := { e.context with snippet } }

end Gleaner

namespace Gleaner.Schema

open Gleaner.Text

variable {start cs tail : List Char} {c : Char}

/-! ## Readers

Each reader gives the same with blanks behind the line, and the blanks stay at the end of what it leaves. -/

/-- A blank is no character of a word, and starts no name. -/
theorem isWord_of_isBlank (h : isBlank c = true) : isWord c = false ∧ isNameStart c = false := by
  have hcodes : ∀ n ∈ [0x09, 0x0a, 0x0b, 0x0c, 0x0d, 0x1c, 0x1d, 0x1e, 0x1f, 0x20, 0x85, 0xa0, 0x1680,
      0x2000, 0x2001, 0x2002, 0x2003, 0x2004, 0x2005, 0x2006, 0x2007, 0x2008, 0x2009, 0x200a, 0x2028,
      0x2029, 0x202f, 0x205f, 0x3000],
      isWord (Char.ofNat n) = false ∧ isNameStart (Char.ofNat n) = false := by decide +kernel
  have hmem := hcodes c.toNat (by simp [isBlank] at h ⊢; omega)
  rwa [Char.ofNat_toNat] at hmem

/-- Two characters that do not stand together do not come to do so by blanks behind them. -/
theorem ne_mark_of_append_blanks {mark second : Char} (htail : AllBlank tail)
    (hsecond : isBlank second = false) (h : ∀ rest, c = mark → cs = second :: rest → False) :
    ∀ rest, c = mark → cs ++ tail = second :: rest → False := by
  intro rest hc hcs
  cases cs with
  | nil =>
    have hblank := htail second (by rw [show tail = second :: rest from hcs]; exact List.mem_cons_self)
    rw [hsecond] at hblank
    cases hblank
  | cons d others =>
    obtain ⟨rfl, -⟩ := List.cons.inj hcs
    exact h others hc rfl

theorem dropPrefix?_append_blanks (hstart : ∀ c ∈ start, isBlank c = false) (htail : AllBlank tail) :
    dropPrefix? start (cs ++ tail) = (dropPrefix? start cs).map (· ++ tail) := by
  induction start generalizing cs with
  | nil => rfl
  | cons p start ih =>
    have hp : isBlank p = false := hstart p List.mem_cons_self
    cases cs with
    | nil =>
      cases tail with
      | nil => rfl
      | cons b tail =>
        have hne : p ≠ b := by
          rintro rfl
          have hblank := htail p List.mem_cons_self
          rw [hp] at hblank
          cases hblank
        simp [dropPrefix?, hne]
    | cons c cs =>
      rw [List.cons_append, dropPrefix?, dropPrefix?]
      split_ifs
      · exact ih fun c hc => hstart c (List.mem_cons_of_mem p hc)
      · rfl

/-- A line that is blank up to its end has nothing that a text could start; behind any other line the blanks
stay where they are. -/
theorem dropPrefix?_trimStart_append_blanks (hne : start ≠ [])
    (hstart : ∀ c ∈ start, isBlank c = false) (htail : AllBlank tail) :
    dropPrefix? start (trimStart (cs ++ tail)) =
      (dropPrefix? start (trimStart cs)).map (· ++ tail) := by
  by_cases hcs : AllBlank cs
  · have hboth : AllBlank (cs ++ tail) := allBlank_append.mpr ⟨hcs, htail⟩
    rw [trimStart_eq_nil_iff.mpr hcs, trimStart_eq_nil_iff.mpr hboth]
    cases start with
    | nil => exact absurd rfl hne
    | cons p start => rfl
  · rw [trimStart_append_of_not hcs, dropPrefix?_append_blanks hstart htail]

theorem keyword?_append_blanks (htail : AllBlank tail) :
    keyword? (trimStart (cs ++ tail)) = (keyword? (trimStart cs)).map (Prod.map id (· ++ tail)) := by
  unfold keyword?
  rw [dropPrefix?_trimStart_append_blanks (by decide) (by simp [isBlank]) htail,
    dropPrefix?_trimStart_append_blanks (by decide) (by simp [isBlank]) htail]
  cases dropPrefix? "message".toList (trimStart cs) with
  | some rest => rfl
  | none =>
    cases dropPrefix? "enum".toList (trimStart cs) with
    | some rest => rfl
    | none => rfl

/-- A name stops before the blanks. -/
theorem blockName?_append_blanks (htail : AllBlank tail) :
    blockName? (cs ++ tail) = (blockName? cs).map (Prod.map id (· ++ tail)) := by
  have hword : tail.takeWhile isWord = [] ∧ tail.dropWhile isWord = tail := by
    cases tail with
    | nil => exact ⟨rfl, rfl⟩
    | cons b tail => simp [(isWord_of_isBlank (htail b List.mem_cons_self)).1]
  cases cs with
  | nil =>
    cases tail with
    | nil => rfl
    | cons b tail => simp [blockName?, (isWord_of_isBlank (htail b List.mem_cons_self)).2]
  | cons c rest =>
    have htake : (rest ++ tail).takeWhile isWord = rest.takeWhile isWord := by
      rw [List.takeWhile_append, hword.1, List.append_nil]
      split_ifs with hall
      · exact ((List.takeWhile_prefix isWord).eq_of_length hall).symm
      · rfl
    have hdrop : (rest ++ tail).dropWhile isWord = rest.dropWhile isWord ++ tail := by
      rw [List.dropWhile_append, hword.2]
      split_ifs with hall
      · rw [List.isEmpty_iff.mp hall, List.nil_append]
      · rfl
    rw [List.cons_append, blockName?, blockName?, htake, hdrop]
    split_ifs
    · rfl
    · rfl

/-- The blanks between keyword and name may be followed by nothing but the blanks at the end, and then there
is no name. -/
theorem blockName?_dropBlanks?_append_blanks (htail : AllBlank tail) :
    (dropBlanks? (cs ++ tail)).bind blockName? =
      ((dropBlanks? cs).bind blockName?).map (Prod.map id (· ++ tail)) := by
  cases cs with
  | nil =>
    cases tail with
    | nil => rfl
    | cons b tail =>
      obtain ⟨hb, hrest⟩ := allBlank_cons.mp htail
      simp [dropBlanks?, hb, trimStart_eq_nil_iff.mpr hrest, blockName?]
  | cons c rest =>
    rw [List.cons_append, dropBlanks?, dropBlanks?]
    split_ifs
    · rw [Option.bind_some, Option.bind_some]
      by_cases hrest : AllBlank rest
      · have hboth : AllBlank (rest ++ tail) := allBlank_append.mpr ⟨hrest, htail⟩
        rw [trimStart_eq_nil_iff.mpr hrest, trimStart_eq_nil_iff.mpr hboth]
        rfl
      · rw [trimStart_append_of_not hrest, blockName?_append_blanks htail]
    · rfl

/-- **An opener with blanks behind it** is the same opener, with the blanks behind the rest of its line. -/
theorem opener?_append_blanks (htail : AllBlank tail) :
    opener? (cs ++ tail) = (opener? cs).map fun o => { o with rest := o.rest ++ tail } := by
  simp only [opener?, Option.bind_eq_bind, keyword?_append_blanks htail]
  cases keyword? (trimStart cs) with
  | none => rfl
  | some found =>
    obtain ⟨kind, afterKeyword⟩ := found
    simp only [Option.map_some, Option.bind_some, Prod.map_apply, id, ← Option.bind_assoc,
      blockName?_dropBlanks?_append_blanks htail]
    cases (dropBlanks? afterKeyword).bind blockName? with
    | none => rfl
    | some found =>
      obtain ⟨name, afterName⟩ := found
      simp only [Option.map_some, Option.bind_some, Prod.map_apply, id]
      rw [dropPrefix?_trimStart_append_blanks (by decide) (by simp [isBlank]) htail]
      cases dropPrefix? ['\x7b'] (trimStart afterName) with
      | none => rfl
      | some rest => rfl

/-- Blanks hold no brace, wherever they stand. -/
theorem tally_blanks (mode : Mode) (escaped : Bool) (htail : AllBlank tail) :
    tally braces mode escaped tail = {} := by
  fun_induction tally braces mode escaped tail with
  | case1 => rfl
  | case2 => simp [isBlank] at htail
  | case3 _ c rest _ ih => exact ih (allBlank_cons.mp htail).2
  | case4 quote escaped c rest _ ih => exact ih (allBlank_cons.mp htail).2
  | case5 quote escaped c rest _ ih => exact ih (allBlank_cons.mp htail).2
  | case6 => rfl
  | case7 => simp [isBlank] at htail
  | case8 escaped c rest _ _ _ ih => exact ih (allBlank_cons.mp htail).2
  | case9 escaped c rest _ _ _ ih =>
    obtain ⟨hc, hrest⟩ := allBlank_cons.mp htail
    have hopen : '\x7b' ≠ c := by
      rintro rfl
      exact absurd hc (by decide)
    have hclose : '\x7d' ≠ c := by
      rintro rfl
      exact absurd hc (by decide)
    rw [ih hrest]
    simp [Tally.add, braces, hopen, hclose]

/-- **Blanks behind a text do not change its braces**, in whatever mode the text is read. -/
theorem tally_append_blanks (mode : Mode) (escaped : Bool) (htail : AllBlank tail) :
    tally braces mode escaped (cs ++ tail) = tally braces mode escaped cs := by
  -- where one or two characters are looked at, no mark of two is completed by a blank
  fun_induction tally braces mode escaped cs with
  | case1 mode escaped => exact tally_blanks mode escaped htail
  | case2 _ rest ih => simpa [tally] using ih
  | case3 _ c rest hends ih =>
    rw [List.cons_append, tally, ih]
    exact ne_mark_of_append_blanks htail (by decide) hends
  | case4 quote escaped c rest hcloses ih => simpa [tally, hcloses] using ih
  | case5 quote escaped c rest hcloses ih => simpa [tally, hcloses] using ih
  | case6 => simp [tally]
  | case7 _ rest ih => simpa [tally] using ih
  | case8 escaped c rest hline hblock hquote ih =>
    rw [List.cons_append, tally, if_pos hquote, ih]
    · exact ne_mark_of_append_blanks htail (by decide) hline
    · exact ne_mark_of_append_blanks htail (by decide) hblock
  | case9 escaped c rest hline hblock hquote ih =>
    rw [List.cons_append, tally, if_neg hquote, ih]
    · exact ne_mark_of_append_blanks htail (by decide) hline
    · exact ne_mark_of_append_blanks htail (by decide) hblock

theorem braceBalance_append_blanks (htail : AllBlank tail) :
    braceBalance (cs ++ tail) = braceBalance cs := by
  rw [braceBalance, countDelimiters, tally_append_blanks .plain false htail, braceBalance, countDelimiters]

theorem commentText?_append_blanks (htail : AllBlank tail) : commentText? (cs ++ tail) = commentText? cs := by
  rw [commentText?, trim_append_of_allBlank htail, commentText?]

/-! ## States without their lines -/

/-- A comment without its line. -/
def Comment.bare (c : Comment) : Comment :=
  { c with raw := "" }

/-- A draft without its lines. -/
def Draft.bare (d : Draft) : Draft :=
  { d with lines := [] }

/-- An element without its snippet. -/
def bareElement (e : Element) : Element :=
  e.withSnippet ""

/-- **Two states that differ in nothing but the lines in them.** -/
structure State.Alike (s s' : State) : Prop where
  filePath : s'.filePath = s.filePath
  fileName : s'.fileName = s.fileName
  depth : s'.depth = s.depth
  pending : s'.pending.map Comment.bare = s.pending.map Comment.bare
  draft : s'.draft.map Draft.bare = s.draft.map Draft.bare
  package : s'.package = s.package

/-- Two steps that lead to such states and yield the same, up to a snippet. -/
structure Step.Alike (t t' : Step) : Prop where
  state : t.state.Alike t'.state
  element : t'.element.map bareElement = t.element.map bareElement
  diagnostic : t'.diagnostic = t.diagnostic

variable {s s' : State} {d d' : Draft} {t : Step} {line : String} {blanks : String} {n depth : ℤ}

theorem State.Alike.refl (s : State) : s.Alike s :=
  ⟨rfl, rfl, rfl, rfl, rfl, rfl⟩

theorem State.Alike.reset (h : s.Alike s') : s.reset.Alike s'.reset :=
  ⟨h.filePath, h.fileName, rfl, rfl, rfl, h.package⟩

/-- The package that a line names does not depend on the blanks behind it. -/
theorem State.Alike.notePackage (h : s.Alike s') (line : String) (hblanks : AllBlank blanks.toList) :
    (s.notePackage line).Alike (s'.notePackage (line ++ blanks)) := by
  have hpackage : (s'.notePackage (line ++ blanks)).package = (s.notePackage line).package := by
    simp only [State.notePackage, String.toList_append, trim_append_of_allBlank hblanks, h.package]
    cases s.package with
    | none => rfl
    | some m => exact h.package
  refine ⟨?_, ?_, ?_, ?_, ?_, hpackage⟩
  · simpa using h.filePath
  · simpa using h.fileName
  · simpa using h.depth
  · simpa using h.pending
  · simpa using h.draft

/-- Documentation is made of the texts of comments. -/
theorem documentation?_of_bare {comments comments' : List Comment}
    (h : comments'.map Comment.bare = comments.map Comment.bare) :
    documentation? comments' = documentation? comments := by
  have htexts : ∀ cs : List Comment, (cs.map Comment.bare).map (·.text) = cs.map (·.text) := by
    intro cs
    rw [List.map_map]
    rfl
  rw [documentation?, ← htexts, h, htexts, documentation?]

/-- An opener starts the same draft, up to its lines. -/
theorem State.Alike.openDraft (h : s.Alike s') (o : Opener) (rest : List Char)
    (line line' : String) (n : ℤ) :
    (s'.openDraft { o with rest } line' n).bare = (s.openDraft o line n).bare := by
  have hlength : s'.pending.length = s.pending.length := by
    rw [← List.length_map Comment.bare, h.pending, List.length_map]
  simp only [State.openDraft, Draft.bare, documentation?_of_bare h.pending, hlength, h.package]

theorem State.Alike.withoutPending (h : s.Alike s') :
    State.Alike { s with pending := [] } { s' with pending := [] } :=
  ⟨h.filePath, h.fileName, h.depth, rfl, h.draft, h.package⟩

/-- **What becomes of a draft does not depend on its lines.** -/
theorem State.Alike.advance (h : s.Alike s') (hd : d'.bare = d.bare)
    (hadvance : Schema.advance s d depth n = .ok t) :
    ∃ t', Schema.advance s' d' depth n = .ok t' ∧ t.Alike t' := by
  have hfields := hd
  simp only [Draft.bare, Draft.mk.injEq, and_true] at hfields
  obtain ⟨hkind, hname, hdeclaration, hstart, hdocumentation, hpackage⟩ := hfields
  have hturn := advance_turn s d depth n
  rw [hadvance] at hturn
  unfold Schema.advance
  cases hturn with
  | closed hzero horder =>
    have helement : bareElement (d'.element s' n) = bareElement (d.element s n) := by
      simp only [bareElement, Element.withSnippet, Draft.element, hkind, hname, hdeclaration, hstart,
        hdocumentation, hpackage, h.filePath, h.fileName]
    have horder' : (d'.element s' n).WellOrdered := by
      simpa only [Element.WellOrdered, Draft.element, hstart, hdeclaration] using horder
    rw [if_pos hzero, Element.checked, if_pos horder']
    exact ⟨_, rfl, h.reset, congrArg some helement, rfl⟩
  | overclosed hnegative =>
    rw [if_neg hnegative.ne, if_pos hnegative]
    refine ⟨_, rfl, h.reset, rfl, ?_⟩
    simp only [Draft.overclosed, hkind, hname, hstart, h.filePath]
  | remains hpositive =>
    rw [if_neg hpositive.ne', if_neg hpositive.not_gt]
    exact ⟨_, rfl, ⟨h.filePath, h.fileName, rfl, h.pending, congrArg some hd, h.package⟩, rfl, rfl⟩

/-- **One line with blanks behind it**, from a state that differs only in its lines. -/
theorem State.Alike.step (h : s.Alike s') (hblanks : AllBlank blanks.toList)
    (hstep : Schema.step s line n = .ok t) :
    ∃ t', Schema.step s' (line ++ blanks) n = .ok t' ∧ t.Alike t' := by
  have hdraft' := h.draft
  cases hdraft : s.draft with
  | some d =>
    rw [hdraft, Option.map_some, Option.map_eq_some_iff] at hdraft'
    obtain ⟨d', hd', hbare⟩ := hdraft'
    -- inside a block, only the balance of the line counts, and blanks have none
    simp only [Schema.step, hdraft, hd', blockLine] at hstep ⊢
    rw [String.toList_append, braceBalance_append_blanks hblanks, h.depth]
    apply h.advance _ hstep
    exact hbare
  | none =>
    rw [hdraft, Option.map_none, Option.map_eq_none_iff] at hdraft'
    -- outside, the line is a comment, an opening or neither, whatever blanks it ends with
    have hnoted := h.notePackage line hblanks
    simp only [Schema.step, hdraft, hdraft', seekLine] at hstep ⊢
    rw [String.toList_append, commentText?_append_blanks hblanks, opener?_append_blanks hblanks]
    cases htext : commentText? line.toList with
    | some text =>
      simp only [htext] at hstep ⊢
      cases hstep
      refine ⟨_, rfl, ⟨hnoted.filePath, hnoted.fileName, hnoted.depth, ?_, hnoted.draft,
        hnoted.package⟩, rfl, rfl⟩
      rw [List.map_append, List.map_append, hnoted.pending]
      rfl
    | none =>
      simp only [htext] at hstep ⊢
      cases ho : opener? line.toList with
      | some o =>
        simp only [ho, Option.map_some] at hstep ⊢
        rw [braceBalance_append_blanks hblanks]
        apply hnoted.withoutPending.advance _ hstep
        exact hnoted.openDraft o _ line _ n
      | none =>
        simp only [ho, Option.map_none] at hstep ⊢
        cases hstep
        exact ⟨_, rfl, hnoted.withoutPending, rfl, rfl⟩

theorem State.Alike.finish (h : s.Alike s') : Schema.finish s' = Schema.finish s := by
  have hunclosed : ∀ (s : State), Schema.finish s = (s.draft.map Draft.bare).map (·.unclosed s) := by
    intro s
    rw [Option.map_map]
    rfl
  rw [hunclosed, h.draft, hunclosed]
  simp only [Draft.unclosed, h.filePath]

/-! ## All lines -/

/-- Lines with something behind each of them, by its index. -/
def appendEach (lines : List String) (tail : ℕ → String) : List String :=
  lines.mapIdx fun i line => line ++ tail i

theorem appendEach_cons (line : String) (rest : List String) (tail : ℕ → String) :
    appendEach (line :: rest) tail = (line ++ tail 0) :: appendEach rest fun i => tail (i + 1) :=
  List.mapIdx_cons

/-- **All lines with blanks behind them.** -/
theorem State.Alike.scanFrom {lines : List String} {tail : ℕ → String} {r : FileResult} (h : s.Alike s')
    (hblank : ∀ i, AllBlank (tail i).toList) (hscan : Schema.scanFrom s n lines = .ok r) :
    ∃ r', Schema.scanFrom s' n (appendEach lines tail) = .ok r' ∧
      r'.elements.map bareElement = r.elements.map bareElement ∧ r'.diagnostics = r.diagnostics := by
  induction lines generalizing s s' n tail r with
  | nil =>
    cases hscan
    exact ⟨_, rfl, rfl, by rw [h.finish]⟩
  | cons line rest ih =>
    obtain ⟨t, later, hstep, hlater, rfl⟩ := scanFrom_cons_eq_ok hscan
    obtain ⟨t', hstep', halike⟩ := h.step (hblank 0) hstep
    obtain ⟨later', hlater', helements, hdiagnostics⟩ :=
      ih halike.state (fun i => hblank (i + 1)) hlater
    refine ⟨_, by rw [appendEach_cons]; exact scanFrom_cons_of_ok hstep' hlater', ?_, ?_⟩
    · rw [List.map_append, List.map_append, helements, ← Option.toList_map, halike.element,
        Option.toList_map]
    · rw [halike.diagnostic, hdiagnostics]

theorem appendEach_append (lines others : List String) (tail : ℕ → String) :
    appendEach (lines ++ others) tail =
      appendEach lines tail ++ appendEach others fun i => tail (i + lines.length) :=
  List.mapIdx_append

@[simp] theorem length_appendEach (lines : List String) (tail : ℕ → String) :
    (appendEach lines tail).length = lines.length :=
  List.length_mapIdx

/-- The lines that an element covers. -/
theorem Decomposition.exists_lines {filePath fileName : Text} {lines : List String} {p : ℕ}
    {found : Option String} {es : List Element} {ds : List Diagnostic} {e : Element}
    (h : Decomposition filePath fileName lines p found es ds) (hp : 0 < p) (he : e ∈ es) :
    e.context.snippet = snippet lines e.startLine e.endLine ∧
      ∃ before body after, lines = before ++ body ++ after ∧ e.startLine = (before.length + 1 : ℕ) ∧
        e.endLine = (before.length + body.length : ℕ) := by
  obtain ⟨q, known, b, j, hq, first, ends, -, rfl⟩ := h.exists_block he
  have hcomments := first.comments_le
  have hline := ends.line_le
  obtain ⟨before, body, after, hsplit, hbefore, hbody, -⟩ :=
    exists_lines_of_snippet (a := b.line - b.comments) (by omega) (by omega) ends.le_length
  refine ⟨rfl, before, body, after, hsplit, ?_, congrArg Nat.cast hbody.symm⟩
  rw [hbefore]
  exact first.startLine_eq

/-- **Blanks behind lines do not matter.** Whatever blanks are put behind each line of a schema file, the scan
reports the same and finds the same elements, up to their snippets. These are cut out of the new lines as they
were out of the old ones, so that they differ by the blanks behind the lines they cover and by nothing
else. -/
theorem scanLines_ignores_trailing_blanks (filePath fileName : Text) (lines : List String)
    (tail : ℕ → String) (hblank : ∀ i, AllBlank (tail i).toList) :
    ∃ r r', scanLines filePath fileName lines = .ok r ∧
      scanLines filePath fileName (appendEach lines tail) = .ok r' ∧
      r'.diagnostics = r.diagnostics ∧ r'.failed = r.failed ∧
      r'.elements = r.elements.map (fun e =>
        e.withSnippet (snippet (appendEach lines tail) e.startLine e.endLine)) ∧
      ∀ e ∈ r.elements, ∃ before body after, lines = before ++ body ++ after ∧
        e.startLine = (before.length + 1 : ℕ) ∧ e.endLine = (before.length + body.length : ℕ) ∧
        e.context.snippet = joinLines body ∧
        snippet (appendEach lines tail) e.startLine e.endLine =
          joinLines (appendEach body fun i => tail (before.length + i)) := by
  obtain ⟨r, hr, hfailed, hdec⟩ := scanLines_decomposition filePath fileName lines
  obtain ⟨r', hr', helements, hdiagnostics⟩ :=
    State.Alike.scanFrom (.refl (.initial filePath fileName)) hblank hr
  obtain ⟨r₁, hr₁, hfailed', hdec'⟩ :=
    scanLines_decomposition filePath fileName (appendEach lines tail)
  obtain rfl : r₁ = r' := Except.ok.inj (hr₁.symm.trans hr')
  refine ⟨r, r₁, hr, hr', hdiagnostics, hfailed'.trans hfailed.symm, ?_, ?_⟩
  · -- an element is made up of its snippet and the rest, and the rest says how to cut the snippet
    let cutAgain (e : Element) : Element :=
      e.withSnippet (snippet (appendEach lines tail) e.startLine e.endLine)
    have hcut : ∀ e ∈ r₁.elements, cutAgain (bareElement e) = e := by
      intro e he
      show e.withSnippet (snippet _ e.startLine e.endLine) = e
      rw [← (hdec'.exists_lines Nat.one_pos he).1]
      rfl
    calc r₁.elements = (r₁.elements.map bareElement).map cutAgain := by
          rw [List.map_map]
          exact ((List.map_congr_left hcut).trans (List.map_id _)).symm
      _ = (r.elements.map bareElement).map cutAgain := by rw [helements]
      _ = r.elements.map cutAgain := by rw [List.map_map]; rfl
  · intro e he
    obtain ⟨hsnippet, before, body, after, rfl, hstart, hend⟩ := hdec.exists_lines Nat.one_pos he
    refine ⟨before, body, after, rfl, hstart, hend, ?_, ?_⟩
    · rw [hsnippet, hstart, hend, snippet_append]
    · rw [hstart, hend, appendEach_append, appendEach_append, ← length_appendEach before tail,
        ← length_appendEach body, snippet_append]
      simp only [length_appendEach, Nat.add_comm]

/-- A block with a comment, and a block with one brace too many. -/
def twoBlocks : List String :=
  ["// a", "enum E \x7b // \x7d", "\x7d", "enum F \x7b", "\x7d \x7d"]

/-- The report on the second block and all of the first one, up to its snippet, are those of the file without
carriage returns. -/
theorem scanLines_ignores_carriage_returns :
    AllBlank "\r".toList ∧
    ∃ r r' e, scanLines "e.proto" "e.proto" twoBlocks = .ok r ∧
      scanLines "e.proto" "e.proto" (appendEach twoBlocks fun _ => "\r") = .ok r' ∧
      r.diagnostics.length = 1 ∧ r'.diagnostics = r.diagnostics ∧
      r.elements = [e] ∧ e.documentation = some "a" ∧
      e.context.snippet = "// a\nenum E \x7b // \x7d\n\x7d\n" ∧
      r'.elements = [e.withSnippet "// a\r\nenum E \x7b // \x7d\r\n\x7d\r\n"] := by
  have hreturn : AllBlank "\r".toList := by decide +kernel
  obtain ⟨r, r', hr, hr', hdiagnostics, -, helements, -⟩ :=
    scanLines_ignores_trailing_blanks "e.proto" "e.proto" twoBlocks (fun _ => "\r") fun _ => hreturn
  have hlength : (scanLines "e.proto" "e.proto" twoBlocks).toOption.map (·.diagnostics.length) =
      some 1 := by decide +kernel
  have hview : (scanLines "e.proto" "e.proto" twoBlocks).toOption.map (·.elements.map fun e =>
      (e.documentation, e.startLine, e.endLine, e.context.snippet)) =
        some [(some "a", 1, 3, "// a\nenum E \x7b // \x7d\n\x7d\n")] := by decide +kernel
  rw [hr] at hlength hview
  obtain ⟨e, he, hfields⟩ := List.map_eq_singleton_iff.mp (Option.some.inj hview)
  simp only [Prod.mk.injEq] at hfields
  obtain ⟨hdocumentation, hstart, hend, hsnippet⟩ := hfields
  refine ⟨hreturn, r, r', e, hr, hr', Option.some.inj hlength, hdiagnostics, he, hdocumentation,
    hsnippet, ?_⟩
  have hpadded : snippet (appendEach twoBlocks fun _ => "\r") 1 3 =
      "// a\r\nenum E \x7b // \x7d\r\n\x7d\r\n" := by decide +kernel
  rw [helements, he, List.map_singleton, hstart, hend, hpadded]

end Gleaner.Schema
