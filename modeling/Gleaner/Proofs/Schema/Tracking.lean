import Gleaner.Proofs.Schema.Decomposition
import Gleaner.Proofs.Schema.Opener
import Gleaner.Proofs.Text.Lines

/-!
# A scan finds the blocks of a file

The state of a scan summarises the lines read since the last block ended, at line `p - 1`. While it
seeks, these lines hold no opener, and the state holds their first package and the comment run at
their end; inside a block it holds what the block would be if it ended now, at a depth that has been
positive all along. Each line keeps this, or ends the block and starts over at the next line.

## Main definitions

* `Tracks`: the state is what the lines `p` to `n - 1` make of it
* `Progress`: what line `n` can do

## Main results

* `Tracks.step_progress`: one line
* `scanFrom_decomposition`: all lines from a tracked state on
* `scanText_iff_decomposition`: the scan of a file is its one block decomposition
-/

namespace Gleaner.Schema

open Gleaner.Text

variable {filePath fileName : Text} {lines : List String} {p n a : ℕ} {found : Option String}
  {line : String} {b : Block} {s : State}

/-! ## One more line

How the views of a range of lines grow when line `n` is added at its end. -/

theorem lineAt_eq_some (h : lineAt lines n = some line) : 0 < n ∧ n ≤ lines.length := by
  cases n with
  | zero => cases h
  | succ m =>
    obtain ⟨hm, -⟩ := List.getElem?_eq_some_iff.mp h
    exact ⟨by omega, hm⟩

theorem lineAt_of_length_lt (h : lines.length < n) : lineAt lines n = none := by
  cases n with
  | zero => rfl
  | succ m => exact List.getElem?_eq_none (by omega)

theorem firstPackage_self : firstPackage lines p p = none := by
  simp [firstPackage]

theorem firstPackage_succ (h : p ≤ n) :
    firstPackage lines p (n + 1) = (firstPackage lines p n).or (packageAt lines n) := by
  unfold firstPackage
  rw [show n + 1 - p = (n - p) + 1 by omega, List.range'_1_concat, List.findSome?_append,
    show p + (n - p) = n by omega, List.findSome?_singleton]

theorem commentTexts_succ (h : a ≤ n) :
    commentTexts lines a (n + 1) = commentTexts lines a n ++ (commentAt lines n).toList := by
  unfold commentTexts
  rw [show n + 1 - a = (n - a) + 1 by omega, List.range'_1_concat, List.filterMap_append,
    show a + (n - a) = n by omega]
  cases hc : commentAt lines n <;> simp [hc]

/-- The lines `a` to `n - 1`. -/
def linesFrom (lines : List String) (a n : ℕ) : List String :=
  (lines.drop (a - 1)).take (n - a)

@[simp] theorem linesFrom_self : linesFrom lines a a = [] := by
  simp [linesFrom]

theorem linesFrom_succ (ha : 0 < a) (h : a ≤ n) (hline : lineAt lines n = some line) :
    linesFrom lines a (n + 1) = linesFrom lines a n ++ [line] := by
  obtain ⟨m, rfl⟩ : ∃ m, n = m + 1 := ⟨n - 1, by omega⟩
  have hget : (lines.drop (a - 1))[m + 1 - a]? = some line := by
    rw [List.getElem?_drop, show a - 1 + (m + 1 - a) = m by omega]
    exact hline
  unfold linesFrom
  rw [show m + 1 + 1 - a = (m + 1 - a) + 1 by omega, List.take_add_one, hget, Option.toList_some]

/-- Lines read one after the other make up the snippet. -/
theorem joinLines_linesFrom (ha : 0 < a) :
    joinLines (linesFrom lines a (n + 1)) = snippet lines a n :=
  (snippet_eq ha).symm

theorem Block.depthAt_line (b : Block) (lines : List String) :
    b.depthAt lines b.line = 1 + braceBalance b.opener.rest := by
  simp [Block.depthAt]

theorem Block.depthAt_succ (h : b.line ≤ n) :
    b.depthAt lines (n + 1) = b.depthAt lines n + balanceAt lines (n + 1) := by
  unfold Block.depthAt
  rw [Finset.sum_Ioc_succ_top h, ← add_assoc]

theorem zero_isGreatest_commentRuns (h : p ≤ n) (hcomment : p < n → commentAt lines (n - 1) = none) :
    IsGreatest (commentRuns lines p n) 0 := by
  refine ⟨⟨by omega, fun i hi hin => by omega⟩, ?_⟩
  rintro k ⟨hk, hrun⟩
  -- a longer run would hold the line right before `n`
  by_contra hpos
  have hlast := hrun (n - 1) (by omega) (by omega)
  rw [hcomment (by omega)] at hlast
  cases hlast

/-- A comment line makes the run at the end longer by one. -/
theorem succ_isGreatest_commentRuns {k : ℕ} (h : IsGreatest (commentRuns lines p n) k)
    (hcomment : (commentAt lines n).isSome) : IsGreatest (commentRuns lines p (n + 1)) (k + 1) := by
  obtain ⟨⟨hk, hrun⟩, hmax⟩ := h
  refine ⟨⟨by omega, fun i hi hin => ?_⟩, ?_⟩
  · rcases Nat.lt_succ_iff_lt_or_eq.mp hin with hlt | rfl
    · exact hrun i (by omega) hlt
    · exact hcomment
  · rintro m ⟨hm, hrun'⟩
    -- without its last line a run is one that ends a line earlier
    have hshorter : m - 1 ∈ commentRuns lines p n :=
      ⟨by omega, fun i hi hin => hrun' i (by omega) (by omega)⟩
    have := hmax hshorter
    omega

/-! ## What a state knows -/

/-- The draft of a block of which the lines up to `n - 1` were read. -/
def Block.draft (b : Block) (lines : List String) (n : ℕ) : Draft where
  kind := b.opener.kind
  name := String.ofList b.opener.name
  declarationLine := b.line
  startLine := b.startLine
  documentation := b.documentation lines
  package := b.package
  lines := linesFrom lines (b.line - b.comments) n

/-- The lines `p` to `n - 1` were read in search of a block. -/
structure Seeks (filePath fileName : Text) (lines : List String) (p : ℕ) (found : Option String)
    (n : ℕ) (s : State) : Prop where
  filePath : s.filePath = filePath
  fileName : s.fileName = fileName
  draft : s.draft = none
  start_pos : 0 < p
  start_le : p ≤ n
  quiet : ∀ i, p ≤ i → i < n → openerAt lines i = none
  package : s.package = found.or (firstPackage lines p n)
  run : IsGreatest (commentRuns lines p n) s.pending.length
  raws : s.pending.map (·.raw) = linesFrom lines (n - s.pending.length) n
  texts : s.pending.map (·.text) = commentTexts lines (n - s.pending.length) n

/-- The block `b` is the first one from line `p` on, and its lines up to `n` were read. -/
structure Inside (filePath fileName : Text) (lines : List String) (p : ℕ) (found : Option String)
    (b : Block) (n : ℕ) (s : State) : Prop where
  filePath : s.filePath = filePath
  fileName : s.fileName = fileName
  first : FirstBlock lines p found b
  start_pos : 0 < p
  draft : s.draft = some (b.draft lines (n + 1))
  package : s.package = b.package
  line_le : b.line ≤ n
  depth : s.depth = b.depthAt lines n
  stays_open : ∀ j, b.line ≤ j → j ≤ n → 0 < b.depthAt lines j

/-- **The state is what the lines read make of it**: the last block ended on line `p - 1`, with the
package `found`, and line `n` comes next. -/
inductive Tracks (filePath fileName : Text) (lines : List String) (p : ℕ) (found : Option String) :
    ℕ → State → Prop
  | seeks {n : ℕ} {s : State} (h : Seeks filePath fileName lines p found n s) :
      Tracks filePath fileName lines p found n s
  | inside {n : ℕ} {s : State} {b : Block} (h : Inside filePath fileName lines p found b n s) :
      Tracks filePath fileName lines p found (n + 1) s

/-- **What line `n` can do**: it leads to a state that tracks one line more, or it ends the block that
is open, and the search for the next one starts right after it. -/
inductive Progress (filePath fileName : Text) (lines : List String) (p : ℕ)
    (found : Option String) (n : ℕ) : Step → Prop
  | on {s : State} (h : Tracks filePath fileName lines p found (n + 1) s) :
      Progress filePath fileName lines p found n { state := s }
  | closed {s : State} {b : Block} (first : FirstBlock lines p found b) (ends : b.EndsAt lines n)
      (zero : b.depthAt lines n = 0)
      (next : Seeks filePath fileName lines (n + 1) b.package (n + 1) s) :
      Progress filePath fileName lines p found n
        { state := s, element := some (b.element filePath fileName lines n) }
  | overclosed {s : State} {b : Block} (first : FirstBlock lines p found b)
      (ends : b.EndsAt lines n) (negative : b.depthAt lines n < 0)
      (next : Seeks filePath fileName lines (n + 1) b.package (n + 1) s) :
      Progress filePath fileName lines p found n
        { state := s, diagnostic := some (b.overclosed filePath n) }

/-! ## One line -/

/-- Right after a block, or at the start, nothing was read. -/
theorem Seeks.start (hp : 0 < p) (hpath : s.filePath = filePath) (hname : s.fileName = fileName)
    (hdraft : s.draft = none) (hpending : s.pending = []) :
    Seeks filePath fileName lines p s.package p s where
  filePath := hpath
  fileName := hname
  draft := hdraft
  start_pos := hp
  start_le := le_rfl
  quiet i hpi hip := by omega
  package := by rw [firstPackage_self, Option.or_none]
  run := by
    rw [hpending]
    exact zero_isGreatest_commentRuns le_rfl (fun hlt => absurd hlt (lt_irrefl p))
  raws := by simp [hpending]
  texts := by simp [hpending, commentTexts]

/-- What is read off a draft is what its block says. -/
theorem Block.element_draft (first : FirstBlock lines p found b) (hp : 0 < p)
    (hpath : s.filePath = filePath) (hname : s.fileName = fileName) :
    (b.draft lines (n + 1)).element s n = b.element filePath fileName lines n := by
  have hcomments := first.comments_le
  have hsnippet : joinLines (linesFrom lines (b.line - b.comments) (n + 1)) =
      snippet lines b.startLine n := by
    rw [first.startLine_eq]
    exact joinLines_linesFrom (by omega)
  simp only [Draft.element, Block.draft, Block.element, hpath, hname, hsnippet]

theorem Block.overclosed_draft (b : Block) (lines : List String) (hpath : s.filePath = filePath) :
    (b.draft lines (n + 1)).overclosed s n = b.overclosed filePath n := by
  simp [Draft.overclosed, Block.draft, Block.overclosed, Block.title, hpath, toString, String.append_assoc]

theorem Block.unclosed_draft (b : Block) (lines : List String) (hpath : s.filePath = filePath) :
    (b.draft lines (n + 1)).unclosed s = b.unclosed filePath := by
  simp [Draft.unclosed, Block.draft, Block.unclosed, Block.title, hpath, toString, String.append_assoc]

/-- Going on with the draft of a block that was open before line `n`. -/
theorem advance_progress (first : FirstBlock lines p found b) (hp : 0 < p) (hbn : b.line ≤ n)
    (hn : n ≤ lines.length) (hopen : ∀ j, b.line ≤ j → j < n → 0 < b.depthAt lines j)
    (hpath : s.filePath = filePath) (hname : s.fileName = fileName)
    (hpackage : s.package = b.package) :
    ∃ t, advance s (b.draft lines (n + 1)) (b.depthAt lines n) n = .ok t ∧
      Progress filePath fileName lines p found n t := by
  have hends : b.depthAt lines n ≤ 0 → b.EndsAt lines n := by
    intro hle
    refine ⟨⟨hbn, hn, hle⟩, ?_⟩
    -- on every line before, the block was still open
    rintro j ⟨hbj, -, hj⟩
    by_contra hlt
    exact absurd (hopen j hbj (by omega)) (by omega)
  have hnext : Seeks filePath fileName lines (n + 1) b.package (n + 1) s.reset := by
    rw [← hpackage]
    exact Seeks.start (s := s.reset) (by omega) hpath hname rfl rfl
  unfold advance
  split_ifs with hzero hnegative
  · have helement : (b.draft lines (n + 1)).element s n = b.element filePath fileName lines n :=
      Block.element_draft first hp hpath hname
    have hordered : (b.element filePath fileName lines n).WellOrdered := by
      have := first.comments_le
      simp only [Element.WellOrdered, Block.element, Block.startLine]
      omega
    refine ⟨_, ?_, .closed first (hends hzero.le) hzero hnext⟩
    rw [helement, Element.checked, if_pos hordered]
    rfl
  · refine ⟨_, ?_, .overclosed first (hends hnegative.le) hnegative hnext⟩
    rw [Block.overclosed_draft b lines hpath]
    rfl
  · refine ⟨_, rfl, .on (.inside (b := b) ?_)⟩
    refine ⟨hpath, hname, first, hp, rfl, hpackage, hbn, rfl, fun j hbj hjn => ?_⟩
    rcases hjn.lt_or_eq with hlt | rfl
    · exact hopen j hbj hlt
    · omega

section Line

variable (hline : lineAt lines n = some line)

include hline

theorem openerAt_of_line : openerAt lines n = opener? line.toList := by
  rw [openerAt, hline, Option.bind_some]

theorem packageAt_of_line :
    packageAt lines n = (package? (trim line.toList)).map String.ofList := by
  rw [packageAt, hline, Option.bind_some]

theorem commentAt_of_line : commentAt lines n = (commentText? line.toList).map String.ofList := by
  rw [commentAt, hline, Option.bind_some, commentText?_eq]
  split_ifs
  · simp [trimmed]
  · rfl

theorem balanceAt_of_line : balanceAt lines n = braceBalance line.toList := by
  rw [balanceAt, hline, Option.map_some, Option.getD_some]

/-- A package line is noted whatever else the line is. -/
theorem Seeks.package_succ (h : Seeks filePath fileName lines p found n s) :
    (s.notePackage line).package = found.or (firstPackage lines p (n + 1)) := by
  rw [firstPackage_succ h.start_le, ← Option.or_assoc, ← h.package, packageAt_of_line hline]
  unfold State.notePackage
  cases hs : s.package with
  | none => rfl
  | some m => exact hs

theorem quiet_succ (hquiet : ∀ i, p ≤ i → i < n → openerAt lines i = none)
    (hopener : opener? line.toList = none) :
    ∀ i, p ≤ i → i < n + 1 → openerAt lines i = none := by
  intro i hpi hin
  rcases Nat.lt_succ_iff_lt_or_eq.mp hin with hlt | rfl
  · exact hquiet i hpi hlt
  · rw [openerAt_of_line hline, hopener]

end Line

@[simp] theorem State.notePackage_filePath (s : State) (line : String) :
    (s.notePackage line).filePath = s.filePath := by
  unfold State.notePackage
  split <;> rfl

@[simp] theorem State.notePackage_fileName (s : State) (line : String) :
    (s.notePackage line).fileName = s.fileName := by
  unfold State.notePackage
  split <;> rfl

@[simp] theorem State.notePackage_pending (s : State) (line : String) :
    (s.notePackage line).pending = s.pending := by
  unfold State.notePackage
  split <;> rfl

@[simp] theorem State.notePackage_draft (s : State) (line : String) :
    (s.notePackage line).draft = s.draft := by
  unfold State.notePackage
  split <;> rfl

theorem State.notePackage_of_package?_eq_none (s : State)
    (h : package? (trim line.toList) = none) : s.notePackage line = s := by
  obtain ⟨_, _, _, _, _, package⟩ := s
  cases package with
  | none => simp [State.notePackage, h]
  | some m => rfl

/-- A comment line joins the run at the end. -/
theorem Seeks.comment (h : Seeks filePath fileName lines p found n s)
    (hline : lineAt lines n = some line) {text : List Char} {number : ℤ}
    (htext : commentText? line.toList = some text) :
    Seeks filePath fileName lines p found (n + 1)
      { s.notePackage line with
        pending := (s.notePackage line).pending ++ [⟨number, line, String.ofList text⟩] } := by
  have hp := h.start_pos
  have hrun := h.run.1.1
  have hcomment : commentAt lines n = some (String.ofList text) := by
    rw [commentAt_of_line hline, htext, Option.map_some]
  -- openers and comments start with different characters
  have hopener : opener? line.toList = none := by
    cases ho : opener? line.toList with
    | none => rfl
    | some o =>
      rw [commentText?_of_opener? ho] at htext
      cases htext
  have hlength : n + 1 - (s.pending.length + 1) = n - s.pending.length := by omega
  refine ⟨?_, ?_, ?_, hp, ?_, quiet_succ hline h.quiet hopener, h.package_succ hline, ?_, ?_, ?_⟩
  · simpa using h.filePath
  · simpa using h.fileName
  · simpa using h.draft
  · exact h.start_le.trans (Nat.le_succ n)
  · simpa using succ_isGreatest_commentRuns h.run (by rw [hcomment]; rfl)
  · simp only [State.notePackage_pending, List.map_append, List.map_cons, List.map_nil,
      List.length_append, List.length_singleton]
    rw [hlength, h.raws, linesFrom_succ (by omega) (by omega) hline]
  · simp only [State.notePackage_pending, List.map_append, List.map_cons, List.map_nil,
      List.length_append, List.length_singleton]
    rw [hlength, h.texts, commentTexts_succ (by omega), hcomment, Option.toList_some]

/-- A line that is neither a comment nor an opener ends the run of comments. -/
theorem Seeks.other (h : Seeks filePath fileName lines p found n s)
    (hline : lineAt lines n = some line) (htext : commentText? line.toList = none)
    (hopener : opener? line.toList = none) :
    Seeks filePath fileName lines p found (n + 1) { s.notePackage line with pending := [] } := by
  have hcomment : commentAt lines n = none := by
    rw [commentAt_of_line hline, htext, Option.map_none]
  refine ⟨?_, ?_, ?_, h.start_pos, ?_, quiet_succ hline h.quiet hopener, h.package_succ hline, ?_,
    by simp, by simp [commentTexts]⟩
  · simpa using h.filePath
  · simpa using h.fileName
  · simpa using h.draft
  · exact h.start_le.trans (Nat.le_succ n)
  · exact zero_isGreatest_commentRuns (h.start_le.trans (Nat.le_succ n)) fun _ => hcomment

/-- The block that an opener starts where the search has come to it. -/
theorem Seeks.firstBlock (h : Seeks filePath fileName lines p found n s)
    (hline : lineAt lines n = some line) {o : Opener} (ho : opener? line.toList = some o) :
    FirstBlock lines p found ⟨o, n, s.pending.length, s.package⟩ where
  least := by
    refine ⟨⟨h.start_le, by rw [openerAt_of_line hline, ho]; rfl⟩, ?_⟩
    rintro i ⟨hpi, hi⟩
    by_contra hlt
    rw [h.quiet i hpi (not_le.mp hlt)] at hi
    cases hi
  opener := by rw [openerAt_of_line hline, ho]
  comments := h.run
  package := h.package

theorem Seeks.openDraft_eq (h : Seeks filePath fileName lines p found n s)
    (hline : lineAt lines n = some line) (o : Opener) :
    s.openDraft o line n =
      Block.draft ⟨o, n, s.pending.length, s.package⟩ lines (n + 1) := by
  have hp := h.start_pos
  have hrun := h.run.1.1
  have hdocumentation : documentation? s.pending =
      Block.documentation ⟨o, n, s.pending.length, s.package⟩ lines := by
    rw [documentation?, h.texts, Block.documentation]
  simp only [State.openDraft, Block.draft, Block.startLine, hdocumentation, h.raws]
  rw [linesFrom_succ (by omega) (by omega) hline]

/-- **One line while seeking.** -/
theorem Seeks.step_progress (h : Seeks filePath fileName lines p found n s)
    (hline : lineAt lines n = some line) :
    ∃ t, step s line n = .ok t ∧ Progress filePath fileName lines p found n t := by
  simp only [step, h.draft, seekLine]
  cases htext : commentText? line.toList with
  | some text => exact ⟨_, rfl, .on (.seeks (h.comment hline htext))⟩
  | none =>
    cases ho : opener? line.toList with
    | none => exact ⟨_, rfl, .on (.seeks (h.other hline htext ho))⟩
    | some o =>
      -- the opener names no package, so the state is still the one that sought it
      have hsame := s.notePackage_of_package?_eq_none (package?_trim_of_opener? ho)
      have hdepth := Block.depthAt_line ⟨o, n, s.pending.length, s.package⟩ lines
      simp only [hsame]
      rw [h.openDraft_eq hline o, ← hdepth]
      exact advance_progress (h.firstBlock hline ho) h.start_pos le_rfl (lineAt_eq_some hline).2
        (fun j hnj hjn => absurd hjn (not_lt.mpr hnj)) h.filePath h.fileName rfl

/-- **One line inside a block.** -/
theorem Inside.step_progress (h : Inside filePath fileName lines p found b n s)
    (hline : lineAt lines (n + 1) = some line) :
    ∃ t, step s line (n + 1 : ℕ) = .ok t ∧
      Progress filePath fileName lines p found (n + 1) t := by
  have hp := h.start_pos
  have hcomments := h.first.comments_le
  have hle := h.line_le
  have hdraft : { b.draft lines (n + 1) with lines := (b.draft lines (n + 1)).lines ++ [line] } =
      b.draft lines (n + 2) := by
    simp only [Block.draft]
    rw [← linesFrom_succ (by omega) (by omega) hline]
  have hdepth : s.depth + braceBalance line.toList = b.depthAt lines (n + 1) := by
    rw [Block.depthAt_succ hle, h.depth, balanceAt_of_line hline]
  simp only [step, h.draft, blockLine]
  rw [hdraft, hdepth]
  exact advance_progress h.first hp (by omega) (lineAt_eq_some hline).2
    (fun j hbj hjn => h.stays_open j hbj (by omega)) h.filePath h.fileName h.package

theorem Tracks.step_progress (h : Tracks filePath fileName lines p found n s)
    (hline : lineAt lines n = some line) :
    ∃ t, step s line n = .ok t ∧ Progress filePath fileName lines p found n t := by
  cases h with
  | seeks h => exact h.step_progress hline
  | inside h => exact h.step_progress hline

/-! ## All lines -/

/-- The line that is read next is the first of those that are left. -/
theorem lineAt_of_drop {rest : List String} (hn : 0 < n) (hrest : lines.drop (n - 1) = line :: rest) :
    lineAt lines n = some line := by
  obtain ⟨m, rfl⟩ : ∃ m, n = m + 1 := ⟨n - 1, by omega⟩
  rw [lineAt, ← List.head?_drop, show m = m + 1 - 1 from rfl, hrest, List.head?_cons]

theorem drop_succ_of_drop {rest : List String} (hn : 0 < n)
    (hrest : lines.drop (n - 1) = line :: rest) : lines.drop (n + 1 - 1) = rest := by
  rw [show n + 1 - 1 = n - 1 + 1 by omega, ← List.drop_drop, hrest, List.drop_one, List.tail_cons]

/-- At the end of the file what is still open never ends. -/
theorem Tracks.finish_decomposition (h : Tracks filePath fileName lines p found n s)
    (hend : lines.length < n) :
    Decomposition filePath fileName lines p found [] (finish s).toList := by
  cases h with
  | seeks h =>
    rw [finish, h.draft]
    refine .idle fun i hpi => ?_
    rcases lt_or_ge i n with hin | hni
    · exact h.quiet i hpi hin
    · rw [openerAt, lineAt_of_length_lt (by omega), Option.bind_none]
  | inside h =>
    rw [finish, h.draft, Option.map_some, Option.toList_some, Block.unclosed_draft _ _ h.filePath]
    refine .unclosed h.first fun j hends => ?_
    have hopen := h.stays_open j hends.line_le (by have := hends.le_length; omega)
    exact absurd hends.1.2.2 (not_le.mpr hopen)

/-- A scan yields what its first line yields, and then what the others yield. -/
theorem scanFrom_cons_of_ok {number : ℤ} {rest : List String} {t : Step} {r : FileResult}
    (ht : step s line number = .ok t) (hr : scanFrom t.state (number + 1) rest = .ok r) :
    scanFrom s number (line :: rest) =
      .ok { elements := t.element.toList ++ r.elements
            diagnostics := t.diagnostic.toList ++ r.diagnostics } := by
  rw [scanFrom, ht]
  simp only [bind, Except.bind, hr]
  rfl

/-- **From a tracked state on, a scan yields the decomposition.** The induction is on the lines that
are left; a line that ends a block changes the line and the package that the state is tracked from. -/
theorem scanFrom_decomposition {rest : List String} (h : Tracks filePath fileName lines p found n s)
    (hn : 0 < n) (hrest : lines.drop (n - 1) = rest) :
    ∃ r, scanFrom s n rest = .ok r ∧ r.failed = false ∧
      Decomposition filePath fileName lines p found r.elements r.diagnostics := by
  induction rest generalizing n s p found with
  | nil =>
    -- every line was read
    have hlength : lines.length < n := by
      have := List.drop_eq_nil_iff.mp hrest
      omega
    exact ⟨_, rfl, rfl, h.finish_decomposition hlength⟩
  | cons line rest ih =>
    have hline := lineAt_of_drop hn hrest
    have hrest' := drop_succ_of_drop hn hrest
    obtain ⟨t, ht, hprogress⟩ := h.step_progress hline
    cases hprogress with
    | on hnext =>
      obtain ⟨r, hr, -, hdec⟩ := ih hnext (Nat.succ_pos n) hrest'
      exact ⟨_, scanFrom_cons_of_ok ht hr, rfl, hdec⟩
    | closed first ends zero hnext =>
      obtain ⟨r, hr, -, hdec⟩ := ih (.seeks hnext) (Nat.succ_pos n) hrest'
      exact ⟨_, scanFrom_cons_of_ok ht hr, rfl, .closed first ends zero hdec⟩
    | overclosed first ends negative hnext =>
      obtain ⟨r, hr, -, hdec⟩ := ih (.seeks hnext) (Nat.succ_pos n) hrest'
      exact ⟨_, scanFrom_cons_of_ok ht hr, rfl, .overclosed first ends negative hdec⟩

/-- The scan of lines does not fail, and yields the decomposition from the first line on. -/
theorem scanLines_decomposition (filePath fileName : Text) (lines : List String) :
    ∃ r, scanLines filePath fileName lines = .ok r ∧ r.failed = false ∧
      Decomposition filePath fileName lines 1 none r.elements r.diagnostics :=
  scanFrom_decomposition
    (.seeks (Seeks.start (s := .initial filePath fileName) Nat.one_pos rfl rfl rfl rfl))
    Nat.one_pos rfl

/-- **The scan of a file is its block decomposition**: it does not fail, and its elements and its
diagnostics are those of the one decomposition that the file has. -/
theorem scanText_iff_decomposition (filePath fileName : Text) (text : String) :
    ∃ r, scanText filePath fileName text = .ok r ∧ r.failed = false ∧
      ∀ es ds, Decomposition filePath fileName (splitLines text) 1 none es ds ↔
        es = r.elements ∧ ds = r.diagnostics := by
  obtain ⟨r, hr, hfailed, hdec⟩ := scanLines_decomposition filePath fileName (splitLines text)
  refine ⟨r, hr, hfailed, fun es ds => ⟨fun h => hdec.unique h, ?_⟩⟩
  rintro ⟨rfl, rfl⟩
  exact hdec

end Gleaner.Schema
