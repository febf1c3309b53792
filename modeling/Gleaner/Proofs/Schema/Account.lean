import Gleaner.Proofs.Schema.Restart

/-!
# Every block of a schema file is accounted for

A scan opens a block at a line that is an opener, provided that it seeks a block there; an opener
inside a block opens nothing. Each block that it opens has one ending: the element it yields, the
report that it closed too much, or the report that the file ended before it did. The endings stand in
the order of the blocks, and between them they are all that the scan yields.

The induction carries the block that is open as the head of the list of blocks: `State.underWay` is
what a state owes, and a line either adds to the debt or pays it.

## Main definitions

* `opens`, `openings`: the lines at which a scan opens a block
* `Ending`, `EndsIn`: the ways in which a block can end
* `Accounts`: blocks and endings make up a scan

## Main results

* `Tracks.underWay_append_opens`: what one line does to the blocks under way
* `scanFrom_accounts`: all lines from a tracked state on
* `scanLines_accounts_for_blocks`: no block of a file is lost or reported twice
-/

namespace Gleaner.Schema

open Gleaner.Text

variable {filePath fileName : Text} {lines : List String} {p n j : ℕ} {found : Option String}
  {line : String} {b : Block} {s : State}

/-! ## Where blocks open -/

/-- A line opens a block: the scan seeks one, and the line is an opener. -/
def opens (s : State) (line : String) : Bool :=
  !s.inBlock && (opener? line.toList).isSome

/-- The numbers of the lines at which a scan opens a block, the first line having the given number. -/
def openings (s : State) (lineNumber : ℤ) : List String → Except LineRangeError (List ℤ)
  | [] => return []
  | line :: rest => do
    let now ← step s line lineNumber
    let later ← openings now.state (lineNumber + 1) rest
    return if opens s line then lineNumber :: later else later

/-- The line of the block that is open, if one is. -/
def State.underWay (s : State) : List ℤ :=
  (s.draft.map (·.declarationLine)).toList

theorem openings_cons_of_ok {number : ℤ} {rest : List String} {t : Step} {later : List ℤ}
    (ht : step s line number = .ok t) (hlater : openings t.state (number + 1) rest = .ok later) :
    openings s number (line :: rest) =
      .ok ((if opens s line then [number] else []) ++ later) := by
  rw [openings, ht]
  simp only [bind, Except.bind, hlater]
  split_ifs <;> rfl

theorem Seeks.underWay_eq (h : Seeks filePath fileName lines p found n s) : s.underWay = [] := by
  rw [State.underWay, h.draft]
  rfl

theorem Inside.underWay_eq (h : Inside filePath fileName lines p found b n s) :
    s.underWay = [(b.line : ℤ)] := by
  rw [State.underWay, h.draft]
  rfl

/-! ## How blocks end -/

/-- What a block comes to: an element, or a report. -/
inductive Ending where
  | element (e : Element)
  | report (d : Diagnostic)

/-- The element of an ending that is one. -/
def Ending.element? : Ending → Option Element
  | .element e => some e
  | .report _ => none

/-- The report of an ending that is one. -/
def Ending.report? : Ending → Option Diagnostic
  | .element _ => none
  | .report d => some d

@[simp] theorem Ending.element?_element (e : Element) : (Ending.element e).element? = some e := rfl

@[simp] theorem Ending.element?_report (d : Diagnostic) : (Ending.report d).element? = none := rfl

@[simp] theorem Ending.report?_element (e : Element) : (Ending.element e).report? = none := rfl

@[simp] theorem Ending.report?_report (d : Diagnostic) : (Ending.report d).report? = some d := rfl

/-- Each ending is an element or a report, and not both. -/
theorem Ending.length_eq (endings : List Ending) :
    endings.length =
      (endings.filterMap (·.element?)).length + (endings.filterMap (·.report?)).length := by
  induction endings with
  | nil => rfl
  | cons e rest ih =>
    cases e with
    | element e =>
      simp only [List.filterMap_cons, element?_element, report?_element, List.length_cons, ih]
      omega
    | report d =>
      simp only [List.filterMap_cons, element?_report, report?_report, List.length_cons, ih]
      omega

/-- **How a block ends**: on the line that closes it, on a line that closes more than was open, or not
at all. -/
inductive EndsIn (filePath fileName : Text) (lines : List String) (b : Block) : Ending → Prop
  | closed {j : ℕ} (ends : b.EndsAt lines j) (zero : b.depthAt lines j = 0) :
      EndsIn filePath fileName lines b (.element (b.element filePath fileName lines j))
  | overclosed {j : ℕ} (ends : b.EndsAt lines j) (negative : b.depthAt lines j < 0) :
      EndsIn filePath fileName lines b (.report (b.overclosed filePath j))
  | unclosed (never : ∀ j, ¬ b.EndsAt lines j) :
      EndsIn filePath fileName lines b (.report (b.unclosed filePath))

/-- A block ends in one way only. -/
theorem EndsIn.unique {e e' : Ending} (h : EndsIn filePath fileName lines b e)
    (h' : EndsIn filePath fileName lines b e') : e' = e := by
  cases h with
  | closed ends zero =>
    cases h' with
    | closed ends' => rw [ends.unique ends']
    | overclosed ends' negative =>
      obtain rfl := ends.unique ends'
      exact absurd zero negative.ne
    | unclosed never => exact absurd ends (never _)
  | overclosed ends negative =>
    cases h' with
    | closed ends' zero =>
      obtain rfl := ends.unique ends'
      exact absurd zero negative.ne
    | overclosed ends' => rw [ends.unique ends']
    | unclosed never => exact absurd ends (never _)
  | unclosed never =>
    cases h' with
    | closed ends => exact absurd ends (never _)
    | overclosed ends => exact absurd ends (never _)
    | unclosed => rfl

/-- A block ends in one way. -/
theorem Block.existsUnique_ending (b : Block) (filePath fileName : Text) (lines : List String) :
    ∃! e, EndsIn filePath fileName lines b e := by
  refine existsUnique_of_exists_of_unique ?_ fun e e' he he' => he'.unique he
  by_cases hends : ∃ j, b.EndsAt lines j
  · obtain ⟨j, hj⟩ := hends
    rcases hj.1.2.2.lt_or_eq with hnegative | hzero
    · exact ⟨_, .overclosed hj hnegative⟩
    · exact ⟨_, .closed hj hzero⟩
  · exact ⟨_, .unclosed (not_exists.mp hends)⟩

variable {blocks : List Block} {endings : List Ending} {es : List Element} {ds : List Diagnostic}

/-- **Blocks and endings that make up a scan**: the blocks stand in openers, each ends in the ending in
its place, and the elements and the diagnostics are those of the endings, in order. -/
structure Accounts (filePath fileName : Text) (lines : List String) (blocks : List Block)
    (endings : List Ending) (es : List Element) (ds : List Diagnostic) : Prop where
  openers : ∀ b ∈ blocks, openerAt lines b.line = some b.opener
  ends : List.Forall₂ (EndsIn filePath fileName lines) blocks endings
  elements : es = endings.filterMap (·.element?)
  diagnostics : ds = endings.filterMap (·.report?)

/-- As many blocks as elements and diagnostics. -/
theorem Accounts.length_eq (h : Accounts filePath fileName lines blocks endings es ds) :
    blocks.length = es.length + ds.length := by
  rw [h.ends.length_eq, h.elements, h.diagnostics]
  exact Ending.length_eq endings

/-- One more block in front, with its ending. -/
theorem Accounts.cons {e : Ending} (ho : openerAt lines b.line = some b.opener)
    (he : EndsIn filePath fileName lines b e)
    (h : Accounts filePath fileName lines blocks endings es ds) :
    Accounts filePath fileName lines (b :: blocks) (e :: endings) (e.element?.toList ++ es)
      (e.report?.toList ++ ds) where
  openers := by
    intro b' hb'
    rcases List.mem_cons.mp hb' with rfl | hb'
    · exact ho
    · exact h.openers b' hb'
  ends := .cons he h.ends
  elements := by
    rw [h.elements]
    cases e <;> rfl
  diagnostics := by
    rw [h.diagnostics]
    cases e <;> rfl

/-! ## One line -/

/-- **A block that has begun by line `n`** is the one under way before that line, or the one that the
line opens. -/
theorem Tracks.underWay_append_opens (h : Tracks filePath fileName lines p found n s)
    (hline : lineAt lines n = some line) (first : FirstBlock lines p found b) (hbn : b.line ≤ n) :
    s.underWay ++ (if opens s line then [(n : ℤ)] else []) = [(b.line : ℤ)] := by
  cases h with
  | seeks h =>
    -- no line before `n` is an opener, so the block begins on line `n`
    have hb : b.line = n := by
      by_contra hne
      have hquiet := h.quiet b.line first.start_le (by omega)
      rw [first.opener] at hquiet
      cases hquiet
    have ho : opener? line.toList = some b.opener := by
      rw [← openerAt_of_line hline, ← hb, first.opener]
    have hopens : opens s line = true := by
      simp [opens, State.inBlock, h.draft, ho]
    rw [h.underWay_eq, if_pos hopens, hb]
    rfl
  | inside h =>
    obtain rfl := h.first.unique first
    have hopens : opens s line = false := by
      simp [opens, State.inBlock, h.draft]
    rw [h.underWay_eq, hopens]
    rfl

/-- Before a line up to which no block has begun, none is under way, and the line opens none. -/
theorem Tracks.underWay_append_opens_of_quiet (h : Tracks filePath fileName lines p found n s)
    (hline : lineAt lines n = some line)
    (hquiet : ∀ i, p ≤ i → i < n + 1 → openerAt lines i = none) :
    s.underWay ++ (if opens s line then [(n : ℤ)] else []) = [] := by
  cases h with
  | seeks h =>
    have ho : opener? line.toList = none := by
      rw [← openerAt_of_line hline]
      exact hquiet n h.start_le (Nat.lt_succ_self n)
    have hopens : opens s line = false := by
      simp [opens, ho]
    rw [h.underWay_eq, hopens]
    rfl
  | inside h =>
    have hbegun := hquiet _ h.first.start_le (by have := h.line_le; omega)
    rw [h.first.opener] at hbegun
    cases hbegun

/-- A line that ends no block moves the block that it opens among those under way. -/
theorem Tracks.underWay_step {s' : State} (h : Tracks filePath fileName lines p found n s)
    (hline : lineAt lines n = some line)
    (hnext : Tracks filePath fileName lines p found (n + 1) s') :
    s.underWay ++ (if opens s line then [(n : ℤ)] else []) = s'.underWay := by
  cases hnext with
  | seeks hnext =>
    rw [hnext.underWay_eq]
    exact h.underWay_append_opens_of_quiet hline hnext.quiet
  | inside hnext =>
    rw [hnext.underWay_eq]
    exact h.underWay_append_opens hline hnext.first hnext.line_le

/-! ## All lines -/

/-- At the end of the file the block under way, if any, has no end. -/
theorem Tracks.finish_accounts (h : Tracks filePath fileName lines p found n s)
    (hend : lines.length < n) :
    ∃ blocks endings, s.underWay = blocks.map (fun b => (b.line : ℤ)) ∧
      Accounts filePath fileName lines blocks endings [] (finish s).toList := by
  cases h with
  | seeks h =>
    refine ⟨[], [], h.underWay_eq, ?_, .nil, rfl, ?_⟩
    · intro b hb
      cases hb
    · rw [finish, h.draft]
      rfl
  | inside h =>
    rename_i b
    refine ⟨[b], [.report (b.unclosed filePath)], h.underWay_eq, ?_, ?_, rfl, ?_⟩
    · intro b' hb'
      rw [List.mem_singleton.mp hb']
      exact h.first.opener
    · refine .cons (.unclosed fun j hends => ?_) .nil
      have hopen := h.stays_open j hends.line_le (by have := hends.le_length; omega)
      exact absurd hends.1.2.2 (not_le.mpr hopen)
    · rw [finish, h.draft, Option.map_some, Option.toList_some, Block.unclosed_draft _ _ h.filePath]
      rfl

/-- **From a tracked state on, every block has its ending.** The block under way counts as the first
one; the induction is on the lines that are left. -/
theorem scanFrom_accounts {rest : List String} (h : Tracks filePath fileName lines p found n s)
    (hn : 0 < n) (hrest : lines.drop (n - 1) = rest) :
    ∃ r opened blocks endings, scanFrom s n rest = .ok r ∧ openings s n rest = .ok opened ∧
      s.underWay ++ opened = blocks.map (fun b => (b.line : ℤ)) ∧
      Accounts filePath fileName lines blocks endings r.elements r.diagnostics := by
  induction rest generalizing n s p found with
  | nil =>
    have hlength : lines.length < n := by
      have := List.drop_eq_nil_iff.mp hrest
      omega
    obtain ⟨blocks, endings, hblocks, haccounts⟩ := h.finish_accounts hlength
    refine ⟨_, [], blocks, endings, rfl, rfl, ?_, haccounts⟩
    rw [List.append_nil, hblocks]
  | cons line rest ih =>
    have hline := lineAt_of_drop hn hrest
    have hrest' := drop_succ_of_drop hn hrest
    obtain ⟨t, ht, hprogress⟩ := h.step_progress hline
    cases hprogress with
    -- no block ends in this line
    | on hnext =>
      obtain ⟨r, opened, blocks, endings, hr, hopened, hblocks, haccounts⟩ :=
        ih hnext (Nat.succ_pos n) hrest'
      refine ⟨_, _, blocks, endings, scanFrom_cons_of_ok ht hr, openings_cons_of_ok ht hopened, ?_,
        haccounts⟩
      rw [← List.append_assoc, h.underWay_step hline hnext, hblocks]
    | closed first ends zero hnext =>
      obtain ⟨r, opened, blocks, endings, hr, hopened, hblocks, haccounts⟩ :=
        ih (.seeks hnext) (Nat.succ_pos n) hrest'
      refine ⟨_, _, _, _, scanFrom_cons_of_ok ht hr, openings_cons_of_ok ht hopened, ?_,
        haccounts.cons first.opener (.closed ends zero)⟩
      rw [hnext.underWay_eq] at hblocks
      rw [← List.append_assoc, h.underWay_append_opens hline first ends.line_le, List.map_cons,
        ← hblocks]
      rfl
    | overclosed first ends negative hnext =>
      obtain ⟨r, opened, blocks, endings, hr, hopened, hblocks, haccounts⟩ :=
        ih (.seeks hnext) (Nat.succ_pos n) hrest'
      refine ⟨_, _, _, _, scanFrom_cons_of_ok ht hr, openings_cons_of_ok ht hopened, ?_,
        haccounts.cons first.opener (.overclosed ends negative)⟩
      rw [hnext.underWay_eq] at hblocks
      rw [← List.append_assoc, h.underWay_append_opens hline first ends.line_le, List.map_cons,
        ← hblocks]
      rfl

/-! ## The report at the end of the file -/

/-- A line reports nothing but a block that closes too much. -/
theorem step_report_kind {number : ℤ} {t : Step} {d : Diagnostic} (h : step s line number = .ok t)
    (hd : t.diagnostic = some d) : d.kind = .unbalancedBlock := by
  rcases step_cases s line number with ⟨pending, -, hstep⟩ | ⟨s₀, draft, depth, -, hstep⟩
  · cases hstep.symm.trans h
    cases hd
  · have hturn := advance_turn s₀ draft depth number
    rw [← hstep, h] at hturn
    cases hturn with
    | closed => cases hd
    | overclosed =>
      cases hd
      rfl
    | remains => cases hd

/-- The diagnostics of a scan: those of its lines, none of which is about an unclosed block, and then
that of the state after the last line. -/
theorem exists_reports_append_finish {number : ℤ} {r : FileResult}
    (h : scanFrom s number lines = .ok r) :
    ∃ s' reports, stateAfter s number lines = .ok s' ∧
      r.diagnostics = reports ++ (finish s').toList ∧
      ∀ d ∈ reports, d.kind ≠ .unterminatedBlock := by
  induction lines generalizing s number r with
  | nil =>
    cases h
    refine ⟨s, [], rfl, rfl, ?_⟩
    intro d hd
    cases hd
  | cons line rest ih =>
    obtain ⟨t, later, hstep, hlater, rfl⟩ := scanFrom_cons_eq_ok h
    obtain ⟨s', reports, hs', hdiagnostics, hreports⟩ := ih hlater
    refine ⟨s', t.diagnostic.toList ++ reports, ?_, ?_, ?_⟩
    · rw [stateAfter_cons hstep, hs']
    · rw [List.append_assoc, ← hdiagnostics]
    · intro d hd
      rcases List.mem_append.mp hd with hnow | hthen
      · rw [step_report_kind hstep (Option.mem_toList.mp hnow)]
        decide
      · exact hreports d hthen

theorem kind_of_mem_finish {d : Diagnostic} (h : d ∈ (finish s).toList) :
    d.kind = .unterminatedBlock := by
  obtain ⟨draft, -, rfl⟩ := Option.map_eq_some_iff.mp (Option.mem_toList.mp h)
  rfl

theorem exists_mem_finish_iff : (∃ d, d ∈ (finish s).toList) ↔ s.inBlock = true := by
  cases hdraft : s.draft <;> simp [finish, State.inBlock, hdraft]

/-- In a list with at most one more item behind others, an item that is none of the others is the
last. -/
theorem eq_nil_of_append_toList {α : Type} {others before after : List α} {a : α} {more : Option α}
    (h : others ++ more.toList = before ++ a :: after) (ha : a ∉ others) : after = [] := by
  rcases List.eq_nil_or_concat after with rfl | ⟨start, last, rfl⟩
  · rfl
  · exfalso
    apply ha
    cases more with
    | none =>
      rw [Option.toList_none, List.append_nil] at h
      rw [h]
      exact List.mem_append_right before List.mem_cons_self
    | some b =>
      -- the last items are the same, so the others end before it
      have hsame : others ++ [b] = (before ++ a :: start) ++ [last] := by
        rw [Option.toList_some, List.concat_eq_append] at h
        rw [h, List.append_assoc, List.cons_append]
      rw [(List.append_inj' hsame rfl).1]
      exact List.mem_append_right before List.mem_cons_self

/-- **No block of a file is lost or reported twice.** The lines at which a scan opens a block are those
of as many blocks as it yields elements and diagnostics, each of which is the one ending of the block
in its place. A block that never ends is reported once, after everything else, and just when the scan
ends inside a block. -/
theorem scanLines_accounts_for_blocks (filePath fileName : Text) (lines : List String) :
    ∃ r s opened blocks endings,
      scanLines filePath fileName lines = .ok r ∧
      stateAfter (.initial filePath fileName) 1 lines = .ok s ∧
      openings (.initial filePath fileName) 1 lines = .ok opened ∧
      opened.length = r.elements.length + r.diagnostics.length ∧
      opened = blocks.map (fun b => (b.line : ℤ)) ∧
      Accounts filePath fileName lines blocks endings r.elements r.diagnostics ∧
      (∀ b ∈ blocks, ∃! e, EndsIn filePath fileName lines b e) ∧
      r.diagnostics.countP (·.kind = .unterminatedBlock) ≤ 1 ∧
      (∀ before d after, r.diagnostics = before ++ d :: after → d.kind = .unterminatedBlock →
        after = []) ∧
      ((∃ d ∈ r.diagnostics, d.kind = .unterminatedBlock) ↔ s.inBlock = true) := by
  have hstart : Tracks filePath fileName lines 1 none 1 (.initial filePath fileName) :=
    .seeks (Seeks.start (s := .initial filePath fileName) Nat.one_pos rfl rfl rfl rfl)
  obtain ⟨r, opened, blocks, endings, hr, hopened, hblocks, haccounts⟩ :=
    scanFrom_accounts hstart Nat.one_pos rfl
  obtain ⟨s, reports, hs, hdiagnostics, hreports⟩ := exists_reports_append_finish hr
  have hlines : opened = blocks.map (fun b => (b.line : ℤ)) := hblocks
  refine ⟨r, s, opened, blocks, endings, hr, hs, hopened, ?_, hlines, haccounts, ?_, ?_, ?_, ?_⟩
  · rw [hlines, List.length_map, haccounts.length_eq]
  · intro b _
    exact b.existsUnique_ending filePath fileName lines
  · -- only the end of the file reports a block that never ends, and that report comes last
    rw [hdiagnostics, List.countP_append, List.countP_eq_zero.mpr (by simpa using hreports), zero_add]
    calc (finish s).toList.countP (·.kind = .unterminatedBlock)
        ≤ (finish s).toList.length := List.countP_le_length
      _ ≤ 1 := by cases finish s <;> simp
  · intro before d after hsplit hkind
    refine eq_nil_of_append_toList (hdiagnostics.symm.trans hsplit) fun hd => ?_
    exact hreports d hd hkind
  · rw [← exists_mem_finish_iff, hdiagnostics]
    constructor
    · rintro ⟨d, hd, hkind⟩
      rcases List.mem_append.mp hd with hreport | hfinish
      · exact absurd hkind (hreports d hreport)
      · exact ⟨d, hfinish⟩
    · rintro ⟨d, hd⟩
      exact ⟨d, List.mem_append_right _ hd, kind_of_mem_finish hd⟩

end Gleaner.Schema
