import Gleaner.Proofs.Schema.Padding
import Gleaner.Proofs.Schema.Transition
import Gleaner.Proofs.Text.Words

/-!
# The form of an opening line

A line opens a block if it has a certain form: blanks, a keyword, at least one blank, a name, blanks, a
brace, and anything behind it. Reading the line takes blanks and words as long as they last and never goes
back. It need not: no blank is a character of a word, so each part ends where the next one begins, and a
line has the form in one way at most.

The depth of a block that opens is counted from behind the brace, with one for the brace itself, while
every other line is counted as a whole. That makes no difference. Nothing before the brace is a brace or
starts a comment, a literal or an escape, so a count of the whole line reaches the brace as it would start
on what follows. So each line, the opening one included, adds what its braces add, and a block ends on the
first line up to which these add up to nothing.

## Main definitions

* `OpenerForm`: the parts of an opening line
* `Step.MeetsBlock`: a line that opens a block, ends one or reports one
* `Inert`: a character that the count passes over

## Main results

* `opener?_eq_some_iff`, `OpenerForm.unique`: which lines are openers, and in how many ways
* `OpenerForm.countDelimiters_eq`: what is before the brace does not count
* `OpenerForm.turn`: what an opening line does, by the braces of the whole line
* `Block.depthAt_eq_sum`: the depth of a block as a sum over whole lines
* `opening_lines_count_alike`: all of this together
-/

namespace Gleaner.Schema

open Gleaner.Text

variable {line lead keyword gap trail : List Char} {o : Opener}

/-! ## Runs of characters -/

section Runs

variable {p : Char → Bool} {cs run run' rest rest' : List Char}

/-- What is left behind a run of characters of a class starts with none of them. -/
theorem dropWhile_eq_iff :
    cs.dropWhile p = rest ↔
      ∃ run, cs = run ++ rest ∧ (∀ c ∈ run, p c = true) ∧ ∀ c ∈ rest.head?, p c = false := by
  constructor
  · rintro rfl
    refine ⟨cs.takeWhile p, List.takeWhile_append_dropWhile.symm, fun _ => List.mem_takeWhile_imp, ?_⟩
    intro c hc
    have hfirst := List.head?_dropWhile_not p cs
    rwa [Option.mem_def.mp hc] at hfirst
  · rintro ⟨run, rfl, hrun, hrest⟩
    rw [List.dropWhile_append_of_pos hrun]
    cases rest with
    | nil => rfl
    | cons c rest => rw [List.dropWhile_cons_of_neg (by simp [hrest c rfl])]

/-- **Where a run ends is determined.** -/
theorem run_unique (h : run ++ rest = run' ++ rest') (hrun : ∀ c ∈ run, p c = true)
    (hrun' : ∀ c ∈ run', p c = true) (hrest : ∀ c ∈ rest.head?, p c = false)
    (hrest' : ∀ c ∈ rest'.head?, p c = false) : run = run' ∧ rest = rest' := by
  have hleft : (run ++ rest).dropWhile p = rest := dropWhile_eq_iff.mpr ⟨run, rfl, hrun, hrest⟩
  have hright : (run ++ rest).dropWhile p = rest' := dropWhile_eq_iff.mpr ⟨run', h, hrun', hrest'⟩
  obtain rfl := hleft.symm.trans hright
  exact ⟨List.append_cancel_right h, rfl⟩

end Runs

/-! ## The form -/

/-- The keywords, with the kinds of block that they open. -/
inductive IsKeyword : List Char → ElementKind → Prop
  | message : IsKeyword "message".toList .message
  | enum : IsKeyword "enum".toList .enum

/-- A block name: an ASCII letter or an underscore, and then characters of words. -/
def IsBlockName (name : List Char) : Prop :=
  ∃ first others, name = first :: others ∧ isNameStart first = true ∧ ∀ c ∈ others, isWord c = true

/-- **The form of an opening line**: blanks, a keyword, at least one blank, a name, blanks, a brace, and
the rest. -/
structure OpenerForm (line lead keyword gap trail : List Char) (o : Opener) : Prop where
  chars : line = lead ++ keyword ++ gap ++ o.name ++ trail ++ '{' :: o.rest
  lead_blank : AllBlank lead
  keyword : IsKeyword keyword o.kind
  gap_blank : AllBlank gap
  gap_ne_nil : gap ≠ []
  name : IsBlockName o.name
  trail_blank : AllBlank trail

theorem IsKeyword.unique {kind : ElementKind} {keyword' : List Char} (h : IsKeyword keyword kind)
    (h' : IsKeyword keyword' kind) : keyword = keyword' := by
  cases h with
  | message => cases h'; rfl
  | enum => cases h'; rfl

/-- No character of a keyword is blank, and there is one. -/
theorem IsKeyword.solid {kind : ElementKind} (h : IsKeyword keyword kind) : Solid keyword := by
  cases h with
  | message => decide
  | enum => decide

/-- A name starts with no blank. -/
theorem IsBlockName.head?_append {name : List Char} (h : IsBlockName name) (rest : List Char) :
    ∀ c ∈ (name ++ rest).head?, isBlank c = false := by
  obtain ⟨first, others, rfl, hfirst, -⟩ := h
  rintro _ ⟨⟩
  by_contra hblank
  rw [(isWord_of_isBlank (by simpa using hblank)).2] at hfirst
  cases hfirst

/-- Behind a name there is no character of a word, but a blank or the brace. -/
theorem head?_trail (htrail : AllBlank trail) (rest : List Char) :
    ∀ c ∈ (trail ++ '{' :: rest).head?, isWord c = false := by
  cases trail with
  | nil =>
    rintro _ ⟨⟩
    decide
  | cons b trail =>
    rintro _ ⟨⟩
    exact (isWord_of_isBlank (htrail b List.mem_cons_self)).1

theorem keyword?_eq_some_iff {cs rest : List Char} {kind : ElementKind} :
    keyword? cs = some (kind, rest) ↔ ∃ keyword, IsKeyword keyword kind ∧ cs = keyword ++ rest := by
  unfold keyword?
  cases hmessage : dropPrefix? "message".toList cs with
  | some after =>
    have hcs := dropPrefix?_eq_some_iff.mp hmessage
    constructor
    · rintro ⟨⟩
      exact ⟨_, .message, hcs⟩
    · rintro ⟨keyword, hkeyword, hrest⟩
      cases hkeyword with
      | message => rw [List.append_cancel_left (hcs.symm.trans hrest)]
      | enum =>
        -- the keywords differ in their first character
        exact absurd (List.cons.inj (hcs.symm.trans hrest)).1 (by decide)
  | none =>
    simp only [Option.map_eq_some_iff, dropPrefix?_eq_some_iff, Prod.mk.injEq]
    constructor
    · rintro ⟨after, hcs, rfl, rfl⟩
      exact ⟨_, .enum, hcs⟩
    · rintro ⟨keyword, hkeyword, hrest⟩
      cases hkeyword with
      | message =>
        rw [dropPrefix?_eq_some_iff.mpr hrest] at hmessage
        cases hmessage
      | enum => exact ⟨rest, hrest, rfl, rfl⟩

theorem dropBlanks?_eq_some_iff {cs rest : List Char} :
    dropBlanks? cs = some rest ↔
      ∃ gap, cs = gap ++ rest ∧ AllBlank gap ∧ gap ≠ [] ∧ ∀ c ∈ rest.head?, isBlank c = false := by
  cases cs with
  | nil => simp [dropBlanks?]
  | cons b cs =>
    rw [dropBlanks?]
    constructor
    · intro h
      split_ifs at h with hb
      obtain ⟨run, hcs, hrun, hrest⟩ := dropWhile_eq_iff.mp (Option.some.inj h)
      exact ⟨b :: run, by rw [hcs, List.cons_append], allBlank_cons.mpr ⟨hb, hrun⟩,
        List.cons_ne_nil b run, hrest⟩
    · rintro ⟨gap, hcs, hgap, hne, hrest⟩
      obtain ⟨d, run, rfl⟩ := List.exists_cons_of_ne_nil hne
      obtain ⟨rfl, htail⟩ := List.cons.inj hcs
      obtain ⟨hb, hrun⟩ := allBlank_cons.mp hgap
      rw [if_pos hb, trimStart, dropWhile_eq_iff.mpr ⟨run, htail, hrun, hrest⟩]

theorem blockName?_eq_some_iff {cs name rest : List Char} :
    blockName? cs = some (name, rest) ↔
      cs = name ++ rest ∧ IsBlockName name ∧ ∀ c ∈ rest.head?, isWord c = false := by
  cases cs with
  | nil =>
    refine iff_of_false (fun h => nomatch h) ?_
    rintro ⟨hnil, ⟨first, others, rfl, -⟩, -⟩
    cases hnil
  | cons first cs =>
    rw [blockName?]
    constructor
    · intro h
      split_ifs at h with hfirst
      obtain ⟨rfl, rfl⟩ := Prod.mk.inj (Option.some.inj h)
      refine ⟨by rw [List.cons_append, List.takeWhile_append_dropWhile],
        ⟨first, _, rfl, hfirst, fun _ => List.mem_takeWhile_imp⟩, ?_⟩
      obtain ⟨-, -, -, hrest⟩ := dropWhile_eq_iff.mp (rfl : cs.dropWhile isWord = _)
      exact hrest
    · rintro ⟨hcs, ⟨first', others, rfl, hfirst, hothers⟩, hrest⟩
      obtain ⟨rfl, htail⟩ := List.cons.inj hcs
      have hdrop := dropWhile_eq_iff.mpr ⟨others, htail, hothers, hrest⟩
      have htake : cs.takeWhile isWord ++ cs.dropWhile isWord = cs := List.takeWhile_append_dropWhile
      rw [hdrop, htail] at htake
      rw [if_pos hfirst, hdrop, htail, List.append_cancel_right htake]

/-- **Which lines are openers**: those of the form. -/
theorem opener?_eq_some_iff :
    opener? line = some o ↔ ∃ lead keyword gap trail, OpenerForm line lead keyword gap trail o := by
  simp only [opener?, Option.bind_eq_bind, Option.bind_eq_some_iff, Prod.exists, keyword?_eq_some_iff,
    dropBlanks?_eq_some_iff, blockName?_eq_some_iff, dropPrefix?_eq_some_iff]
  constructor
  · rintro ⟨kind, _, ⟨keyword, hkeyword, hstart⟩, _, ⟨gap, rfl, hgap, hne, -⟩, name, after,
      ⟨rfl, hname, -⟩, rest, hafter, ho⟩
    cases ho
    obtain ⟨lead, hline, hlead, -⟩ := dropWhile_eq_iff.mp hstart
    obtain ⟨trail, rfl, htrail, -⟩ := dropWhile_eq_iff.mp hafter
    refine ⟨lead, keyword, gap, trail, ?_, hlead, hkeyword, hgap, hne, hname, htrail⟩
    simp only [hline, List.append_assoc, List.singleton_append]
  · rintro ⟨lead, keyword, gap, trail, h⟩
    obtain ⟨kind, name, rest⟩ := o
    refine ⟨kind, _, ⟨keyword, h.keyword, dropWhile_eq_iff.mpr ⟨lead, ?_, h.lead_blank, ?_⟩⟩, _,
      ⟨gap, rfl, h.gap_blank, h.gap_ne_nil, h.name.head?_append _⟩, name, trail ++ '{' :: rest,
      ⟨rfl, h.name, head?_trail h.trail_blank rest⟩, rest,
      dropWhile_eq_iff.mpr ⟨trail, rfl, h.trail_blank, ?_⟩, rfl⟩
    · simp only [h.chars, List.append_assoc]
    · exact fun c hc => h.keyword.solid.head? _ hc
    · rintro _ ⟨⟩
      rfl

/-- **A line has the form in one way at most.** -/
theorem OpenerForm.unique {lead' keyword' gap' trail' : List Char} {o' : Opener}
    (h : OpenerForm line lead keyword gap trail o)
    (h' : OpenerForm line lead' keyword' gap' trail' o') :
    lead = lead' ∧ keyword = keyword' ∧ gap = gap' ∧ trail = trail' ∧ o = o' := by
  have ho := opener?_eq_some_iff.mpr ⟨_, _, _, _, h⟩
  have ho' := opener?_eq_some_iff.mpr ⟨_, _, _, _, h'⟩
  obtain rfl := Option.some.inj (ho.symm.trans ho')
  obtain rfl := h.keyword.unique h'.keyword
  have hchars := h.chars.symm.trans h'.chars
  simp only [List.append_assoc] at hchars
  -- what follows the blanks is the same on both sides, part by part
  obtain ⟨rfl, hafter⟩ := run_unique hchars h.lead_blank h'.lead_blank
    (fun _ => h.keyword.solid.head? _) fun _ => h.keyword.solid.head? _
  obtain ⟨rfl, hname⟩ := run_unique (List.append_cancel_left hafter) h.gap_blank h'.gap_blank
    (h.name.head?_append _) (h.name.head?_append _)
  exact ⟨rfl, rfl, rfl, List.append_cancel_right (List.append_cancel_left hname), rfl⟩

/-! ## What is before the brace -/

/-- The characters that matter to a count of braces. -/
def marks : List Char :=
  ['{', '}', '"', '\'', '/', '\\']

/-- A character that a count of braces passes over. -/
def Inert (c : Char) : Prop :=
  c ∉ marks

instance : DecidablePred Inert :=
  fun c => inferInstanceAs (Decidable (c ∉ marks))

instance (cs : List Char) : Decidable (∀ c ∈ cs, Inert c) :=
  List.decidableBAll Inert cs

theorem inert_of_class {p : Char → Bool} {c : Char} (hmarks : marks.any p = false) (h : p c = true) :
    Inert c :=
  fun hc => List.any_eq_false.mp hmarks c hc h

theorem IsKeyword.inert {kind : ElementKind} (h : IsKeyword keyword kind) : ∀ c ∈ keyword, Inert c := by
  cases h with
  | message => decide
  | enum => decide

theorem OpenerForm.inert (h : OpenerForm line lead keyword gap trail o) :
    ∀ c ∈ lead ++ keyword ++ gap ++ o.name ++ trail, Inert c := by
  have hblank : ∀ {cs : List Char}, AllBlank cs → ∀ c ∈ cs, Inert c :=
    fun hcs c hc => inert_of_class (by decide) (hcs c hc)
  have hname : ∀ c ∈ o.name, Inert c := by
    obtain ⟨first, others, hname, hfirst, hothers⟩ := h.name
    rw [hname, List.forall_mem_cons]
    exact ⟨inert_of_class (by decide) hfirst, fun c hc => inert_of_class (by decide) (hothers c hc)⟩
  simp only [List.forall_mem_append]
  exact ⟨⟨⟨⟨hblank h.lead_blank, h.keyword.inert⟩, hblank h.gap_blank⟩, hname⟩, hblank h.trail_blank⟩

/-- Inert characters leave a count where it started: among plain characters, with nothing escaped. -/
theorem tally_append_of_inert {start : List Char} (h : ∀ c ∈ start, Inert c) (rest : List Char) :
    tally braces .plain false (start ++ rest) = tally braces .plain false rest := by
  induction start with
  | nil => rfl
  | cons c start ih =>
    obtain ⟨hc, hstart⟩ := List.forall_mem_cons.mp h
    simp only [Inert, marks, List.mem_cons, List.not_mem_nil, or_false, not_or] at hc
    obtain ⟨hopen, hclose, hdouble, hsingle, hslash, hbackslash⟩ := hc
    have hquote : isQuote c = false := by simp [isQuote, hdouble, hsingle]
    have hescape : (c == '\\') = false := by simpa using hbackslash
    rw [List.cons_append, tally]
    · rw [hquote, if_neg (by decide), hescape, ih hstart]
      simp [Tally.add, braces, Ne.symm hopen, Ne.symm hclose]
    · exact fun _ hc _ => hslash hc
    · exact fun _ hc _ => hslash hc

/-- **What is before the brace of an opening line does not count.** -/
theorem OpenerForm.countDelimiters_eq (h : OpenerForm line lead keyword gap trail o) :
    countDelimiters braces line = (countDelimiters braces o.rest).add braces '{' := by
  rw [countDelimiters, h.chars, tally_append_of_inert h.inert]
  rfl

/-- The depth that an opening line leaves is what its braces add. -/
theorem OpenerForm.braceBalance_eq (h : OpenerForm line lead keyword gap trail o) :
    1 + braceBalance o.rest = braceBalance line := by
  rw [braceBalance, braceBalance, h.countDelimiters_eq, balance_add_braces]
  rfl

/-! ## One line -/

variable {s : State} {text : String} {n : ℤ}

/-- A line that opens a block, ends one or reports one: it leaves a block open, or yields something. -/
def Step.MeetsBlock (t : Step) : Prop :=
  t.state.inBlock = true ∨ t.element.isSome = true ∨ t.diagnostic.isSome = true

/-- **What an opening line does**, by the braces of the whole line. -/
theorem OpenerForm.turn (h : OpenerForm text.toList lead keyword gap trail o) (hs : s.draft = none) :
    Turn { s.notePackage text with pending := [] } ((s.notePackage text).openDraft o text n)
      (braceBalance text.toList) n (step s text n) := by
  have ho := opener?_eq_some_iff.mpr ⟨_, _, _, _, h⟩
  have hstep : step s text n = advance { s.notePackage text with pending := [] }
      ((s.notePackage text).openDraft o text n) (1 + braceBalance o.rest) n := by
    simp only [step, hs, seekLine, commentText?_of_opener? ho, ho]
  rw [hstep, h.braceBalance_eq]
  exact advance_turn _ _ _ _

/-- An opening line does not fail, and meets a block. -/
theorem OpenerForm.meetsBlock (h : OpenerForm text.toList lead keyword gap trail o)
    (hs : s.draft = none) (n : ℤ) : ∃ t, step s text n = .ok t ∧ t.MeetsBlock := by
  have hturn := h.turn hs (n := n)
  -- the depth decides what comes of the block
  generalize step s text n = result at hturn
  cases hturn with
  | closed => exact ⟨_, rfl, .inr (.inl rfl)⟩
  | refused _ hdisorder =>
    refine absurd ?_ hdisorder
    simp only [Element.WellOrdered, Draft.element, State.openDraft]
    omega
  | overclosed => exact ⟨_, rfl, .inr (.inr rfl)⟩
  | remains => exact ⟨_, rfl, .inl rfl⟩

/-- **A line meets a block that was not there before just when it has the form.** -/
theorem step_meetsBlock_iff (hs : s.draft = none) (text : String) (n : ℤ) :
    ∃ t, step s text n = .ok t ∧
      (t.MeetsBlock ↔ ∃ lead keyword gap trail o, OpenerForm text.toList lead keyword gap trail o) := by
  cases ho : opener? text.toList with
  | some o =>
    obtain ⟨lead, keyword, gap, trail, h⟩ := opener?_eq_some_iff.mp ho
    obtain ⟨t, ht, hmeets⟩ := h.meetsBlock hs n
    exact ⟨t, ht, iff_of_true hmeets ⟨lead, keyword, gap, trail, o, h⟩⟩
  | none =>
    rcases step_cases s text n with ⟨pending, -, hstep⟩ | ⟨_, _, _, hworks, -⟩
    · refine ⟨_, hstep, iff_of_false ?_ ?_⟩
      · simp [Step.MeetsBlock, State.inBlock, hs]
      · rintro ⟨lead, keyword, gap, trail, o, h⟩
        rw [opener?_eq_some_iff.mpr ⟨_, _, _, _, h⟩] at ho
        cases ho
    · cases hworks with
      | opened _ hopens =>
        rw [ho] at hopens
        cases hopens
      | continued hdraft =>
        rw [hs] at hdraft
        cases hdraft

/-- What a line inside a block does, by the braces of the whole line. -/
theorem turn_of_draft {d : Draft} (hd : s.draft = some d) (text : String) (n : ℤ) :
    Turn s { d with lines := d.lines ++ [text] } (s.depth + braceBalance text.toList) n
      (step s text n) := by
  simp only [step, hd, blockLine]
  exact advance_turn _ _ _ _

/-! ## All lines of a block -/

/-- **The depth of a block as a sum over whole lines**, the opening one included. -/
theorem Block.depthAt_eq_sum {b : Block} {lines : List String} {j : ℕ}
    (ho : openerAt lines b.line = some b.opener) (h : b.line ≤ j) :
    b.depthAt lines j = ∑ i ∈ Finset.Icc b.line j, balanceAt lines i := by
  induction j, h using Nat.le_induction with
  | base =>
    obtain ⟨text, htext, hopener⟩ := Option.bind_eq_some_iff.mp ho
    obtain ⟨lead, keyword, gap, trail, hform⟩ := opener?_eq_some_iff.mp hopener
    rw [Block.depthAt_line, Finset.Icc_self, Finset.sum_singleton, balanceAt_of_line htext,
      hform.braceBalance_eq]
  | succ j hbj ih => rw [Block.depthAt_succ hbj, ih, Finset.sum_Icc_succ_top (by omega)]

/-- Before the line on which a block ends the sum is positive, as the block would have ended earlier. -/
theorem Block.EndsAt.sum_pos {b : Block} {lines : List String} {i j : ℕ} (h : b.EndsAt lines j)
    (ho : openerAt lines b.line = some b.opener) (hbi : b.line ≤ i) (hij : i < j) :
    0 < ∑ k ∈ Finset.Icc b.line i, balanceAt lines k := by
  rw [← Block.depthAt_eq_sum ho hbi]
  by_contra hclosed
  have hearly := h.2 ⟨hbi, hij.le.trans h.le_length, not_lt.mp hclosed⟩
  omega

/-- **Opening lines count like all others.** A line that is read while no block is open opens one exactly if
it has the form of an opening line. It has the form in one way only, which gives the name and the kind of the
block, and the depth that it leaves is what the braces of the whole line add, just as a line inside a block
adds to the depth what its braces add. So for each element of a file the braces of its lines, from the
declaration on, add up to something positive before the last line, and to nothing there. -/
theorem opening_lines_count_alike :
    (∀ (s : State) (text : String) (n : ℤ), s.draft = none →
      (∃ t, step s text n = .ok t ∧
        (t.MeetsBlock ↔
          ∃ lead keyword gap trail o, OpenerForm text.toList lead keyword gap trail o)) ∧
      ∀ lead keyword gap trail o, OpenerForm text.toList lead keyword gap trail o →
        ∃ s₀ d, Turn s₀ d (braceBalance text.toList) n (step s text n) ∧
          d.name = String.ofList o.name ∧ d.kind = o.kind ∧ d.declarationLine = n) ∧
    (∀ line lead keyword gap trail o lead' keyword' gap' trail' o',
      OpenerForm line lead keyword gap trail o → OpenerForm line lead' keyword' gap' trail' o' →
      lead = lead' ∧ keyword = keyword' ∧ gap = gap' ∧ trail = trail' ∧ o = o') ∧
    (∀ line lead keyword gap trail o, OpenerForm line lead keyword gap trail o →
      (1 + (countDelimiters braces o.rest).opens - (countDelimiters braces o.rest).closes : ℤ) =
        (countDelimiters braces line).opens - (countDelimiters braces line).closes) ∧
    (∀ (s : State) (d : Draft) (text : String) (n : ℤ), s.draft = some d →
      Turn s { d with lines := d.lines ++ [text] } (s.depth + braceBalance text.toList) n
        (step s text n)) ∧
    ∀ filePath fileName lines, ∃ r, scanLines filePath fileName lines = .ok r ∧
      ∀ e ∈ r.elements, ∃ a j : ℕ, e.declarationLine = a ∧ e.endLine = j ∧
        1 ≤ a ∧ a ≤ j ∧ j ≤ lines.length ∧
        (∀ i, a ≤ i → i < j → 0 < ∑ k ∈ Finset.Icc a i, balanceAt lines k) ∧
        ∑ k ∈ Finset.Icc a j, balanceAt lines k = 0 := by
  refine ⟨fun s text n hs => ⟨step_meetsBlock_iff hs text n, ?_⟩, ?_, ?_, ?_, ?_⟩
  · intro lead keyword gap trail o h
    exact ⟨_, _, h.turn hs, rfl, rfl, rfl⟩
  · intro line lead keyword gap trail o lead' keyword' gap' trail' o' h h'
    exact h.unique h'
  · intro line lead keyword gap trail o h
    have hbalance := h.braceBalance_eq
    simp only [braceBalance, Tally.balance] at hbalance
    omega
  · intro s d text n hd
    exact turn_of_draft hd text n
  · intro filePath fileName lines
    obtain ⟨r, hr, -, hdec⟩ := scanLines_decomposition filePath fileName lines
    refine ⟨r, hr, fun e he => ?_⟩
    obtain ⟨q, known, b, j, hq, first, ends, zero, rfl⟩ := hdec.exists_block he
    have hstart := first.start_le
    refine ⟨b.line, j, rfl, rfl, hq.trans hstart, ends.line_le, ends.le_length, fun i => ?_, ?_⟩
    · exact ends.sum_pos first.opener
    · rw [← Block.depthAt_eq_sum first.opener ends.line_le, zero]

/-- A line with unusual blanks around its keyword, a name that is not ASCII, and braces behind its own. -/
def wideOpening : String := "\u00a0enum\u3000_é²\x7b \x7b \x7d"

/-- The opener on that line. -/
def wideOpener : Opener := ⟨.enum, "_é²".toList, " \x7b \x7d".toList⟩

theorem wideOpening_form :
    OpenerForm wideOpening.toList ['\u00a0'] "enum".toList ['\u3000'] [] wideOpener where
  chars := by decide
  lead_blank := by decide
  keyword := .enum
  gap_blank := by decide
  gap_ne_nil := by decide
  name := ⟨'_', ['é', '²'], rfl, by decide, List.all_eq_true.mp (by decide)⟩
  trail_blank := by decide

/-- The line counts as a whole, and the block that it opens ends where the braces of the lines add up to
nothing. -/
theorem opening_lines_count_alike_of_wide_opening :
    OpenerForm wideOpening.toList ['\u00a0'] "enum".toList ['\u3000'] [] wideOpener ∧
      (∃ s₀ d, Turn s₀ d (braceBalance wideOpening.toList) 1
        (step (.initial "e.proto" "e.proto") wideOpening 1) ∧ d.name = "_é²" ∧ d.kind = .enum) ∧
      ∃ r e, scanLines "e.proto" "e.proto" ["// e", wideOpening, "A = 0;", "\x7d"] = .ok r ∧
        e ∈ r.elements ∧ ∃ a j : ℕ, e.declarationLine = a ∧ e.endLine = j ∧
          ∑ k ∈ Finset.Icc a j, balanceAt ["// e", wideOpening, "A = 0;", "\x7d"] k = 0 := by
  obtain ⟨hstep, -, -, -, hfile⟩ := opening_lines_count_alike
  refine ⟨wideOpening_form, ?_, ?_⟩
  · obtain ⟨s₀, d, hturn, hname, hkind, -⟩ :=
      (hstep (.initial "e.proto" "e.proto") wideOpening 1 rfl).2 _ _ _ _ _ wideOpening_form
    exact ⟨s₀, d, hturn, hname.trans (by decide), hkind⟩
  · obtain ⟨r, hr, hsums⟩ := hfile "e.proto" "e.proto" ["// e", wideOpening, "A = 0;", "\x7d"]
    have hcount : (scanLines "e.proto" "e.proto" ["// e", wideOpening, "A = 0;", "\x7d"]).toOption.map
        (·.elements.length) = some 1 := by decide +kernel
    rw [hr] at hcount
    obtain ⟨e, he⟩ := List.length_eq_one_iff.mp (Option.some.inj hcount)
    have hmem : e ∈ r.elements := he ▸ List.mem_singleton_self e
    obtain ⟨a, j, hdeclared, hend, -, -, -, -, hsum⟩ := hsums e hmem
    exact ⟨r, e, hr, hmem, a, j, hdeclared, hend, hsum⟩

end Gleaner.Schema
