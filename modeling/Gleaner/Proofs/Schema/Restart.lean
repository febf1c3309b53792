import Mathlib.Data.List.Forall2
import Gleaner.Proofs.Schema.Transition

/-!
# A scan starts afresh between two blocks

While a scan seeks a block and holds no comment, its state keeps nothing of the lines read so far but
the package. What it does from there on is what it would do at the top of a file in that package, only
further down. Two facts make this up: a step does not look at the line number except to write it down,
so that moving the state and the number moves the result; and a seeking state has depth zero, so that
no brace of an earlier block, closed or given up, is left over.

The number of a line also stands in the wording of a report. `Diagnostic.Shifted` relates the reports
of one draft at two places.

## Main definitions

* `stateAfter`: the state that lines lead to
* `Element.shift`, `State.shift`: an element and a state, some lines further down
* `Diagnostic.Shifted`: the reports of one block at two places
* `SplitsAt`: a file that is scanned in two parts

## Main results

* `step_shift`, `scanFrom_shift`: one line, and all lines, further down
* `scanFrom_append`: a scan in two parts
* `scanLines_splits_between_blocks`: the part behind a block is scanned as a file of its own
-/

namespace Gleaner

/-- The same element `k` lines further down. -/
def Element.shift (k : ℤ) (e : Element) : Element :=
  { e with
    declarationLine := e.declarationLine + k
    startLine := e.startLine + k
    endLine := e.endLine + k }

/-- Moving an element does not disturb the order of its lines. -/
theorem Element.checked_shift {e checked : Element} (k : ℤ) (h : e.checked = .ok checked) :
    (e.shift k).checked = .ok (checked.shift k) := by
  unfold Element.checked at h
  split_ifs at h with hordered
  cases h
  have hshifted : (e.shift k).WellOrdered := by
    unfold Element.WellOrdered at hordered ⊢
    simp only [Element.shift]
    omega
  rw [Element.checked, if_pos hshifted]

end Gleaner

namespace Gleaner.Schema

open Gleaner.Text

variable {s s' : State} {d : Draft} {line : String} {lines : List String} {n k depth : ℤ} {t : Step}

/-! ## Further down -/

/-- The same comment `k` lines further down. -/
def Comment.shift (k : ℤ) (c : Comment) : Comment :=
  { c with lineNumber := c.lineNumber + k }

/-- The same draft `k` lines further down. -/
def Draft.shift (k : ℤ) (d : Draft) : Draft :=
  { d with
    declarationLine := d.declarationLine + k
    startLine := d.startLine + k }

/-- The same state `k` lines further down. -/
def State.shift (k : ℤ) (s : State) : State :=
  { s with
    pending := s.pending.map (·.shift k)
    draft := s.draft.map (·.shift k) }

/-- **The same report `k` lines further down**: the line it is about and the line at which it says
that the block starts are moved, and all else is kept. -/
inductive Diagnostic.Shifted (k : ℤ) : Diagnostic → Diagnostic → Prop
  | overclosed (d : Draft) (s : State) (line : ℤ) :
      Diagnostic.Shifted k (d.overclosed s line) ((d.shift k).overclosed (s.shift k) (line + k))
  | unclosed (d : Draft) (s : State) :
      Diagnostic.Shifted k (d.unclosed s) ((d.shift k).unclosed (s.shift k))

/-- The same step `k` lines further down. -/
structure Step.Shifted (k : ℤ) (t t' : Step) : Prop where
  state : t'.state = t.state.shift k
  element : t'.element = t.element.map (·.shift k)
  diagnostic : List.Forall₂ (Diagnostic.Shifted k) t.diagnostic.toList t'.diagnostic.toList

/-- A step that only leads to a state, moved. -/
theorem Step.Shifted.quiet (s : State) : Step.Shifted k { state := s } { state := s.shift k } where
  state := rfl
  element := rfl
  diagnostic := List.Forall₂.nil

theorem documentation?_shift (k : ℤ) (comments : List Comment) :
    documentation? (comments.map (·.shift k)) = documentation? comments := by
  have htexts : (comments.map (·.shift k)).map (·.text) = comments.map (·.text) := by
    rw [List.map_map]
    rfl
  rw [documentation?, htexts, documentation?]

theorem State.openDraft_shift (s : State) (o : Opener) (line : String) (n k : ℤ) :
    (s.shift k).openDraft o line (n + k) = (s.openDraft o line n).shift k := by
  have hraws : (s.pending.map (·.shift k)).map (·.raw) = s.pending.map (·.raw) := by
    rw [List.map_map]
    rfl
  have hstart : n + k - (s.pending.length : ℤ) = n - s.pending.length + k := by omega
  simp only [State.openDraft, State.shift, Draft.shift, documentation?_shift, hraws, List.length_map,
    hstart]

theorem State.notePackage_shift (s : State) (line : String) (k : ℤ) :
    (s.shift k).notePackage line = (s.notePackage line).shift k := by
  obtain ⟨_, _, _, _, _, package⟩ := s
  cases package with
  | none => rfl
  | some m => rfl

/-- Going on with a draft, further down. -/
theorem advance_shift (k : ℤ) (h : advance s d depth n = .ok t) :
    ∃ t', advance (s.shift k) (d.shift k) depth (n + k) = .ok t' ∧ t.Shifted k t' := by
  unfold advance at h ⊢
  split_ifs at h ⊢ with hzero hnegative
  · cases hchecked : (d.element s n).checked with
    | error e =>
      rw [hchecked] at h
      cases h
    | ok element =>
      rw [hchecked] at h
      cases h
      have hshifted := Element.checked_shift k hchecked
      refine ⟨{ state := s.reset.shift k, element := some (element.shift k) }, ?_, rfl, rfl, .nil⟩
      rw [show (d.shift k).element (s.shift k) (n + k) = (d.element s n).shift k from rfl, hshifted]
      rfl
  · cases h
    exact ⟨_, rfl, rfl, rfl, .cons (.overclosed d s n) .nil⟩
  · cases h
    exact ⟨_, rfl, .quiet _⟩

/-- **One line, further down**: a step writes the number of its line down and does nothing else with
it. -/
theorem step_shift (k : ℤ) (h : step s line n = .ok t) :
    ∃ t', step (s.shift k) line (n + k) = .ok t' ∧ t.Shifted k t' := by
  cases hdraft : s.draft with
  | some d =>
    -- inside a block, the number matters only to what becomes of the draft
    have hshifted : (s.shift k).draft = some (d.shift k) := by
      rw [State.shift, hdraft, Option.map_some]
    have hdepth : (s.shift k).depth = s.depth := rfl
    have hlines : { d.shift k with lines := (d.shift k).lines ++ [line] } =
        Draft.shift k { d with lines := d.lines ++ [line] } := rfl
    simp only [step, hdraft, hshifted, blockLine] at h ⊢
    rw [hdepth, hlines]
    exact advance_shift k h
  | none =>
    -- outside, it is written down with a comment or with a draft
    have hshifted : (s.shift k).draft = none := by
      rw [State.shift, hdraft, Option.map_none]
    simp only [step, hdraft, hshifted, seekLine, State.notePackage_shift] at h ⊢
    cases htext : commentText? line.toList with
    | some text =>
      simp only [htext] at h ⊢
      cases h
      refine ⟨_, rfl, ?_, rfl, .nil⟩
      simp only [State.shift, List.map_append, List.map_cons, List.map_nil]
      rfl
    | none =>
      simp only [htext] at h ⊢
      cases ho : opener? line.toList with
      | some o =>
        simp only [ho, State.openDraft_shift] at h ⊢
        exact advance_shift k h
      | none =>
        simp only [ho] at h ⊢
        cases h
        exact ⟨_, rfl, rfl, rfl, .nil⟩

theorem finish_shift (k : ℤ) (s : State) :
    List.Forall₂ (Diagnostic.Shifted k) (finish s).toList (finish (s.shift k)).toList := by
  have hshifted : (s.shift k).draft = s.draft.map (·.shift k) := rfl
  cases hdraft : s.draft with
  | none =>
    rw [hdraft, Option.map_none] at hshifted
    rw [finish, finish, hdraft, hshifted]
    exact List.Forall₂.nil
  | some d =>
    rw [hdraft, Option.map_some] at hshifted
    rw [finish, finish, hdraft, hshifted]
    exact List.Forall₂.cons (.unclosed d s) .nil

/-- A scan of one line more consists of a step and the scan from there on. -/
theorem scanFrom_cons_eq_ok {rest : List String} {r : FileResult}
    (h : scanFrom s n (line :: rest) = .ok r) :
    ∃ t later, step s line n = .ok t ∧ scanFrom t.state (n + 1) rest = .ok later ∧
      r = { elements := t.element.toList ++ later.elements
            diagnostics := t.diagnostic.toList ++ later.diagnostics } := by
  cases hstep : step s line n with
  | error e => simp [scanFrom, hstep, bind, Except.bind] at h
  | ok t =>
    cases hlater : scanFrom t.state (n + 1) rest with
    | error e => simp [scanFrom, hstep, hlater, bind, Except.bind] at h
    | ok later =>
      rw [scanFrom_cons_of_ok hstep hlater] at h
      exact ⟨t, later, rfl, hlater, (Except.ok.inj h).symm⟩

/-- **All lines, further down.** -/
theorem scanFrom_shift (k : ℤ) {r : FileResult} (h : scanFrom s n lines = .ok r) :
    ∃ ds, scanFrom (s.shift k) (n + k) lines =
        .ok { elements := r.elements.map (·.shift k), diagnostics := ds } ∧
      List.Forall₂ (Diagnostic.Shifted k) r.diagnostics ds := by
  induction lines generalizing s n r with
  | nil =>
    cases h
    exact ⟨_, rfl, finish_shift k s⟩
  | cons line rest ih =>
    obtain ⟨t, later, hstep, hlater, rfl⟩ := scanFrom_cons_eq_ok h
    obtain ⟨t', hstep', hshifted⟩ := step_shift k hstep
    obtain ⟨ds, hlater', hds⟩ := ih hlater
    rw [← hshifted.state, add_right_comm] at hlater'
    refine ⟨t'.diagnostic.toList ++ ds, ?_, List.rel_append hshifted.diagnostic hds⟩
    rw [scanFrom_cons_of_ok hstep' hlater', hshifted.element, List.map_append, Option.toList_map]

/-! ## The state between two lines -/

/-- The state that lines lead to, the first of which has the given number. -/
def stateAfter (s : State) (lineNumber : ℤ) : List String → Except LineRangeError State
  | [] => return s
  | line :: rest => do
    let now ← step s line lineNumber
    stateAfter now.state (lineNumber + 1) rest

theorem stateAfter_cons {rest : List String} (h : step s line n = .ok t) :
    stateAfter s n (line :: rest) = stateAfter t.state (n + 1) rest := by
  rw [stateAfter, h]
  rfl

theorem stateAfter_cons_eq_ok {rest : List String} (h : stateAfter s n (line :: rest) = .ok s') :
    ∃ t, step s line n = .ok t ∧ stateAfter t.state (n + 1) rest = .ok s' := by
  cases hstep : step s line n with
  | error e => simp [stateAfter, hstep, bind, Except.bind] at h
  | ok t =>
    rw [stateAfter_cons hstep] at h
    exact ⟨t, rfl, h⟩

theorem stateAfter_concat (h : stateAfter s n lines = .ok s')
    (hstep : step s' line (n + lines.length) = .ok t) :
    stateAfter s n (lines ++ [line]) = .ok t.state := by
  induction lines generalizing s n with
  | nil =>
    cases h
    rw [List.length_nil, Int.natCast_zero, add_zero] at hstep
    rw [List.nil_append, stateAfter_cons hstep]
    rfl
  | cons first rest ih =>
    obtain ⟨u, hu, hrest⟩ := stateAfter_cons_eq_ok h
    rw [List.cons_append, stateAfter_cons hu]
    refine ih hrest ?_
    rwa [List.length_cons, Int.natCast_add, Int.natCast_one, add_comm (rest.length : ℤ),
      ← add_assoc] at hstep

/-- A report ends its block and leaves nothing of it behind. -/
theorem seeks_of_report (h : step s line n = .ok t) (hreport : t.diagnostic.isSome) :
    t.state.draft = none ∧ t.state.pending = [] :=
  (step_clean h).afresh (.inr hreport)

/-- Lines keep the file of a state, and keep it coherent. -/
theorem stateAfter_keeps (h : stateAfter s n lines = .ok s') (hcoherent : s.Coherent) :
    s.Keeps s' ∧ s'.Coherent := by
  induction lines generalizing s n with
  | nil =>
    cases h
    exact ⟨.refl _, hcoherent⟩
  | cons line rest ih =>
    obtain ⟨t, hstep, hlater⟩ := stateAfter_cons_eq_ok h
    obtain ⟨hkeeps, hlast⟩ := ih hlater (hcoherent.step hstep)
    exact ⟨(step_keeps hstep).trans hkeeps, hlast⟩

/-- **Between two blocks only the package is kept.** -/
theorem eq_initial_of_seeks {filePath fileName : Text}
    (h : stateAfter (.initial filePath fileName) n lines = .ok s) (hdraft : s.draft = none)
    (hpending : s.pending = []) :
    s = { State.initial filePath fileName with package := s.package } := by
  obtain ⟨⟨hpath, hname, -⟩, hcoherent⟩ := stateAfter_keeps h (.initial filePath fileName)
  have hdepth := hcoherent.seeking hdraft
  obtain ⟨_, _, _, _, _, _⟩ := s
  cases hpath
  cases hname
  cases hdraft
  cases hpending
  cases hdepth
  rfl

/-! ## Two parts -/

/-- **A scan in two parts**, the first of which leaves no block open. -/
theorem scanFrom_append {after : List String} {es : List Element} {ds : List Diagnostic}
    (hstate : stateAfter s n lines = .ok s') (hdraft : s'.draft = none)
    (hrest : scanFrom s' (n + lines.length) after = .ok { elements := es, diagnostics := ds }) :
    ∃ first, scanFrom s n lines = .ok first ∧
      scanFrom s n (lines ++ after) =
        .ok { elements := first.elements ++ es, diagnostics := first.diagnostics ++ ds } := by
  induction lines generalizing s n with
  | nil =>
    cases hstate
    rw [List.length_nil, Int.natCast_zero, add_zero] at hrest
    refine ⟨{}, ?_, hrest⟩
    rw [scanFrom, finish, hdraft]
    rfl
  | cons line lines ih =>
    obtain ⟨t, hstep, hlater⟩ := stateAfter_cons_eq_ok hstate
    rw [List.length_cons, Int.natCast_add, Int.natCast_one, add_comm (lines.length : ℤ),
      ← add_assoc] at hrest
    obtain ⟨first, hfirst, hboth⟩ := ih hlater hrest
    refine ⟨_, scanFrom_cons_of_ok hstep hfirst, ?_⟩
    rw [List.cons_append, scanFrom_cons_of_ok hstep hboth]
    simp only [List.append_assoc]

/-- A file whose second part is scanned as a file of its own: the whole yields what the lines `before`
yield, and then what the lines `after` yield at the top of a file in a package, moved down. -/
def SplitsAt (filePath fileName : Text) (before after : List String) (package : Option String) :
    Prop :=
  ∃ first rest moved,
    scanLines filePath fileName before = .ok first ∧
    scanFrom { State.initial filePath fileName with package } 1 after = .ok rest ∧
    List.Forall₂ (Diagnostic.Shifted before.length) rest.diagnostics moved ∧
    scanLines filePath fileName (before ++ after) =
      .ok { elements := first.elements ++ rest.elements.map (·.shift before.length)
            diagnostics := first.diagnostics ++ moved }

/-- Where a scan seeks a block and holds no comment, a file can be cut in two. -/
theorem splitsAt_of_seeks {filePath fileName : Text} {before : List String} (after : List String)
    (hstate : stateAfter (.initial filePath fileName) 1 before = .ok s) (hdraft : s.draft = none)
    (hpending : s.pending = []) : SplitsAt filePath fileName before after s.package := by
  have hseeks : Seeks filePath fileName after 1 s.package 1
      { State.initial filePath fileName with package := s.package } :=
    Seeks.start (s := { State.initial filePath fileName with package := s.package }) Nat.one_pos rfl
      rfl rfl rfl
  obtain ⟨rest, hrest, -, -⟩ := scanFrom_decomposition (.seeks hseeks) Nat.one_pos rfl
  obtain ⟨moved, hmoved, hshifted⟩ := scanFrom_shift before.length hrest
  -- a state without draft and comments holds no line number, so moving it changes nothing
  have hfixed : State.shift before.length
      { State.initial filePath fileName with package := s.package } = s :=
    (eq_initial_of_seeks hstate hdraft hpending).symm
  rw [hfixed] at hmoved
  obtain ⟨first, hfirst, hboth⟩ := scanFrom_append hstate hdraft hmoved
  exact ⟨first, rest, moved, hfirst, hrest, hshifted, hboth⟩

/-- **A scan starts afresh between two blocks.** If the lines read so far lead to a state that seeks a
block and holds no comment, the lines that follow yield what they would yield as a file of their own
in the package found so far, with all line numbers moved. So they do in particular right after a block
that was given up because it closed too much. -/
theorem scanLines_splits_between_blocks (filePath fileName : Text) :
    (∀ before after s, stateAfter (.initial filePath fileName) 1 before = .ok s →
      s.draft = none → s.pending = [] → SplitsAt filePath fileName before after s.package) ∧
    ∀ before line after s t, stateAfter (.initial filePath fileName) 1 before = .ok s →
      step s line (before.length + 1) = .ok t → t.diagnostic.isSome →
      SplitsAt filePath fileName (before ++ [line]) after t.state.package := by
  refine ⟨fun before after s hstate hdraft hpending => splitsAt_of_seeks after hstate hdraft hpending,
    fun before line after s t hstate hstep hreport => ?_⟩
  obtain ⟨hdraft, hpending⟩ := seeks_of_report hstep hreport
  rw [add_comm] at hstep
  exact splitsAt_of_seeks after (stateAfter_concat hstate hstep) hdraft hpending

/-- After a package line, and after a block that closes one brace too many, what follows is scanned as
a file of its own in that package. -/
theorem scanLines_splits_after_overclosed_block :
    ∃ s t, stateAfter (.initial "a.proto" "a.proto") 1 ["package p;"] = .ok s ∧
      s.draft = none ∧ s.pending = [] ∧
      step s "enum A \x7b \x7d \x7d" 2 = .ok t ∧ t.diagnostic.isSome ∧
      SplitsAt "a.proto" "a.proto" ["package p;"] ["enum A \x7b \x7d \x7d"] (some "p") ∧
      SplitsAt "a.proto" "a.proto" ["package p;", "enum A \x7b \x7d \x7d"]
        ["// b", "message B \x7b", "\x7d"] (some "p") := by
  have hstate : stateAfter (.initial "a.proto" "a.proto") 1 ["package p;"] =
      .ok { State.initial "a.proto" "a.proto" with package := some "p" } := by decide +kernel
  obtain ⟨t, hstep, hpackage, hreport⟩ : ∃ t,
      step { State.initial "a.proto" "a.proto" with package := some "p" }
        "enum A \x7b \x7d \x7d" 2 = .ok t ∧ t.state.package = some "p" ∧ t.diagnostic.isSome :=
    ⟨_, rfl, rfl, rfl⟩
  have hsplits := scanLines_splits_between_blocks "a.proto" "a.proto"
  refine ⟨_, t, hstate, rfl, rfl, hstep, hreport, hsplits.1 _ _ _ hstate rfl rfl, ?_⟩
  rw [← hpackage]
  exact hsplits.2 _ _ _ _ _ hstate hstep hreport

end Gleaner.Schema
