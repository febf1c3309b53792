import Gleaner.Proofs.Schema.Tracking

/-!
# What a line can do

A line either leaves the search for a block to go on, or it works on a draft: on the one that its opener
starts, or on the one that is open already. What becomes of that draft is a matter of the depth alone. So
all that a scan keeps from line to line can be read off a few cases.

Nothing here depends on the numbers of the lines, which may come in any order. Only a number that runs
back behind the declaration of a block can make a line fail, and then only if it closes the block exactly;
the state is then left as it was.

## Main definitions

* `Works`: the draft that a line works on, and the depth that it brings it to
* `Turn`: what becomes of that draft
* `State.Coherent`: what holds of a state between two lines
* `State.after`: the state after lines with any numbers, failures passed over

## Main results

* `step_cases`, `advance_turn`: what a line can do
* `State.Coherent.step`: a line keeps a state coherent
* `step_eq_error_iff`: when a line fails
* `State.initial_after_coherent`: what holds after any lines
-/

namespace Gleaner.Schema

open Gleaner.Text

variable {s s' s₀ : State} {d : Draft} {t : Step} {line : String} {n depth : ℤ}

/-! ## Cases -/

/-- The draft that a line works on, the state to which it belongs, and the depth after the line. -/
inductive Works (s : State) (line : String) (n : ℤ) : State → Draft → ℤ → Prop
  | opened {o : Opener} (sought : s.draft = none) (opens : opener? line.toList = some o) :
      Works s line n { s.notePackage line with pending := [] }
        ((s.notePackage line).openDraft o line n) (1 + braceBalance o.rest)
  | continued {d : Draft} (draft : s.draft = some d) :
      Works s line n s { d with lines := d.lines ++ [line] } (s.depth + braceBalance line.toList)

/-- **What a line can do**: the search goes on, or the line works on a draft. -/
theorem step_cases (s : State) (line : String) (n : ℤ) :
    (∃ pending, s.draft = none ∧
      step s line n = .ok { state := { s.notePackage line with pending } }) ∨
    ∃ s₀ d depth, Works s line n s₀ d depth ∧ step s line n = advance s₀ d depth n := by
  cases hdraft : s.draft with
  | some d =>
    refine .inr ⟨_, _, _, .continued hdraft, ?_⟩
    simp only [step, hdraft, blockLine]
  | none =>
    have hseek : step s line n = seekLine s line n := by simp only [step, hdraft]
    rw [hseek, seekLine]
    cases htext : commentText? line.toList with
    | some text => exact .inl ⟨_, rfl, rfl⟩
    | none =>
      cases ho : opener? line.toList with
      | none => exact .inl ⟨_, rfl, rfl⟩
      | some o => exact .inr ⟨_, _, _, .opened hdraft ho, rfl⟩

/-- **What becomes of a draft**, by the depth after the line. -/
inductive Turn (s : State) (d : Draft) (depth n : ℤ) : Except LineRangeError Step → Prop
  | closed (zero : depth = 0) (order : (d.element s n).WellOrdered) :
      Turn s d depth n (.ok { state := s.reset, element := some (d.element s n) })
  | refused (zero : depth = 0) (disorder : ¬ (d.element s n).WellOrdered) :
      Turn s d depth n (.error ⟨d.kind, d.name, d.startLine, d.declarationLine, n⟩)
  | overclosed (negative : depth < 0) :
      Turn s d depth n (.ok { state := s.reset, diagnostic := some (d.overclosed s n) })
  | remains (positive : 0 < depth) :
      Turn s d depth n (.ok { state := { s with depth, draft := some d } })

theorem advance_turn (s : State) (d : Draft) (depth n : ℤ) :
    Turn s d depth n (advance s d depth n) := by
  unfold advance
  split_ifs with hzero hnegative
  · unfold Element.checked
    split_ifs with horder
    · exact .closed hzero horder
    · exact .refused hzero horder
  · exact .overclosed hnegative
  · exact .remains (by omega)

/-! ## What lines keep -/

/-- The file of a state is kept, and so is its package once it has one. -/
structure State.Keeps (s s' : State) : Prop where
  filePath : s'.filePath = s.filePath
  fileName : s'.fileName = s.fileName
  package : ∀ m, s.package = some m → s'.package = some m

theorem State.Keeps.refl (s : State) : s.Keeps s :=
  ⟨rfl, rfl, fun _ h => h⟩

theorem State.Keeps.trans (h : s.Keeps s₀) (h' : s₀.Keeps s') : s.Keeps s' :=
  ⟨h'.filePath.trans h.filePath, h'.fileName.trans h.fileName, fun m hm => h'.package m (h.package m hm)⟩

theorem State.notePackage_keeps (s : State) (line : String) : s.Keeps (s.notePackage line) := by
  refine ⟨s.notePackage_filePath line, s.notePackage_fileName line, fun m hm => ?_⟩
  simp only [State.notePackage, hm]

@[simp] theorem State.notePackage_depth (s : State) (line : String) :
    (s.notePackage line).depth = s.depth := by
  unfold State.notePackage
  split <;> rfl

theorem Works.keeps (h : Works s line n s₀ d depth) : s.Keeps s₀ := by
  cases h with
  | opened =>
    have hnoted := s.notePackage_keeps line
    exact ⟨hnoted.filePath, hnoted.fileName, hnoted.package⟩
  | continued => exact .refl s

theorem Turn.keeps (h : Turn s d depth n (.ok t)) : s.Keeps t.state := by
  cases h with
  | closed => exact ⟨rfl, rfl, fun _ h => h⟩
  | overclosed => exact ⟨rfl, rfl, fun _ h => h⟩
  | remains => exact ⟨rfl, rfl, fun _ h => h⟩

/-- **A line keeps the file and the package.** -/
theorem step_keeps (h : step s line n = .ok t) : s.Keeps t.state := by
  rcases step_cases s line n with ⟨pending, -, hstep⟩ | ⟨s₀, d, depth, hworks, hstep⟩
  · cases hstep.symm.trans h
    have hnoted := s.notePackage_keeps line
    exact ⟨hnoted.filePath, hnoted.fileName, hnoted.package⟩
  · have hturn := advance_turn s₀ d depth n
    rw [← hstep, h] at hturn
    exact hworks.keeps.trans hturn.keeps

/-! ## What a line yields -/

/-- **What a line yields**: not both an element and a report; and with either of them the search starts
afresh, without comments. -/
structure Step.Clean (t : Step) : Prop where
  single : t.element = none ∨ t.diagnostic = none
  afresh : t.element.isSome ∨ t.diagnostic.isSome → t.state.draft = none ∧ t.state.pending = []

theorem step_clean (h : step s line n = .ok t) : t.Clean := by
  rcases step_cases s line n with ⟨pending, -, hstep⟩ | ⟨s₀, d, depth, -, hstep⟩
  · cases hstep.symm.trans h
    exact ⟨.inl rfl, by simp⟩
  · have hturn := advance_turn s₀ d depth n
    rw [← hstep, h] at hturn
    cases hturn with
    | closed => exact ⟨.inr rfl, fun _ => ⟨rfl, rfl⟩⟩
    | overclosed => exact ⟨.inl rfl, fun _ => ⟨rfl, rfl⟩⟩
    | remains => exact ⟨.inl rfl, by simp⟩

/-! ## Coherent states -/

/-- **What holds of a state between two lines**: without a block the depth is zero; a block that is open
has a positive depth, its comments were taken over, and it does not start behind its declaration. -/
structure State.Coherent (s : State) : Prop where
  seeking : s.draft = none → s.depth = 0
  inside : ∀ d, s.draft = some d → 1 ≤ s.depth ∧ s.pending = [] ∧ d.startLine ≤ d.declarationLine

namespace State.Coherent

theorem initial (filePath fileName : Text) : (State.initial filePath fileName).Coherent := by
  refine ⟨fun _ => rfl, ?_⟩
  rintro d ⟨⟩

/-- There is no draft just when the depth is zero. -/
theorem draft_eq_none_iff (h : s.Coherent) : s.draft = none ↔ s.depth = 0 := by
  refine ⟨h.seeking, fun hzero => ?_⟩
  cases hdraft : s.draft with
  | none => rfl
  | some d =>
    have hpositive := (h.inside d hdraft).1
    omega

theorem reset (s : State) : s.reset.Coherent := by
  refine ⟨fun _ => rfl, ?_⟩
  rintro d ⟨⟩

/-- The draft that a line works on does not start behind its declaration. -/
theorem startLine_le (h : s.Coherent) (hworks : Works s line n s₀ d depth) :
    d.startLine ≤ d.declarationLine := by
  cases hworks with
  | opened =>
    simp only [State.openDraft]
    omega
  | continued hdraft => exact (h.inside _ hdraft).2.2

/-- No comments are pending where a line works on a draft: an opener has taken them over, and a block
that was open has left none. -/
theorem pending_eq_nil (h : s.Coherent) (hworks : Works s line n s₀ d depth) : s₀.pending = [] := by
  cases hworks with
  | opened => rfl
  | continued hdraft => exact (h.inside _ hdraft).2.1

/-- **A line keeps a state coherent.** -/
theorem step (h : s.Coherent) (hstep : Schema.step s line n = .ok t) : t.state.Coherent := by
  rcases step_cases s line n with ⟨pending, hdraft, hcase⟩ | ⟨s₀, d, depth, hworks, hcase⟩
  · cases hcase.symm.trans hstep
    refine ⟨fun _ => ?_, fun d hd => ?_⟩
    · simpa using h.seeking hdraft
    · simp [hdraft] at hd
  · have hturn := advance_turn s₀ d depth n
    rw [← hcase, hstep] at hturn
    cases hturn with
    | closed => exact reset s₀
    | overclosed => exact reset s₀
    | remains hpositive =>
      have hpending := h.pending_eq_nil hworks
      constructor
      · rintro ⟨⟩
      · rintro _ ⟨⟩
        exact ⟨hpositive, hpending, h.startLine_le hworks⟩

end State.Coherent

/-- **When a line fails**: it closes a block exactly, with a number before that of the declaration. -/
theorem step_eq_error_iff (h : s.Coherent) {e : LineRangeError} :
    step s line n = .error e ↔ ∃ d, s.draft = some d ∧ s.depth + braceBalance line.toList = 0 ∧
      n < d.declarationLine ∧ e = ⟨d.kind, d.name, d.startLine, d.declarationLine, n⟩ := by
  constructor
  · intro hstep
    rcases step_cases s line n with ⟨pending, -, hcase⟩ | ⟨s₀, d, depth, hworks, hcase⟩
    · cases hcase.symm.trans hstep
    · have hturn := advance_turn s₀ d depth n
      have hstart := h.startLine_le hworks
      rw [← hcase, hstep] at hturn
      cases hturn with
      | refused hzero hdisorder =>
        -- the start of a draft is in order, so that its end is not
        have hend : n < d.declarationLine := by
          by_contra hle
          exact hdisorder ⟨hstart, not_lt.mp hle⟩
        cases hworks with
        | opened => exact absurd hend (lt_irrefl n)
        | continued hdraft => exact ⟨_, hdraft, hzero, hend, rfl⟩
  · rintro ⟨d, hdraft, hzero, hend, rfl⟩
    simp only [step, hdraft, blockLine, hzero]
    have hturn := advance_turn s { d with lines := d.lines ++ [line] } 0 n
    generalize advance s { d with lines := d.lines ++ [line] } 0 n = result at hturn ⊢
    cases hturn with
    | closed _ horder => exact absurd horder.2 (not_le.mpr hend)
    | refused => rfl
    | overclosed hnegative => exact absurd hnegative (lt_irrefl 0)
    | remains hpositive => exact absurd hpositive (lt_irrefl 0)

/-! ## Lines with any numbers -/

/-- The state after one line with any number. A line that fails leaves the state as it was. -/
def State.afterLine (s : State) (line : String) (n : ℤ) : State :=
  match step s line n with
  | .ok t => t.state
  | .error _ => s

/-- The state after lines, each with a number of its own. -/
def State.after (s : State) (lines : List (String × ℤ)) : State :=
  lines.foldl (fun s line => s.afterLine line.1 line.2) s

theorem State.afterLine_keeps (s : State) (line : String) (n : ℤ) : s.Keeps (s.afterLine line n) := by
  unfold State.afterLine
  split
  · next t hstep => exact step_keeps hstep
  · exact .refl s

theorem State.Coherent.afterLine (h : s.Coherent) (line : String) (n : ℤ) :
    (s.afterLine line n).Coherent := by
  unfold State.afterLine
  split
  · next t hstep => exact h.step hstep
  · exact h

/-- Lines keep the file and the package, whatever their numbers are. -/
theorem State.after_keeps (s : State) (lines : List (String × ℤ)) : s.Keeps (s.after lines) := by
  induction lines generalizing s with
  | nil => exact .refl s
  | cons line rest ih => exact (s.afterLine_keeps line.1 line.2).trans (ih _)

/-- **Lines keep a state coherent**, whatever their numbers are. -/
theorem State.Coherent.after (h : s.Coherent) (lines : List (String × ℤ)) : (s.after lines).Coherent := by
  induction lines generalizing s with
  | nil => exact h
  | cons line rest ih => exact ih (h.afterLine line.1 line.2)

/-- **The states of a scan are of two kinds.** After any lines with any numbers, failures passed over, no
block is open just when the depth is zero; a block that is open has a positive depth, and no comments are
pending. The file is the one the scan started with, and a package once found stays whatever lines follow.
The next line never yields both an element and a report; after it yields one of them a block is sought and
no comments are pending. It fails just when it closes a block exactly, under a number before that of the
declaration of the block. -/
theorem State.initial_after_coherent (filePath fileName : Text) (lines : List (String × ℤ)) (s : State)
    (hs : s = (State.initial filePath fileName).after lines) :
    (s.draft = none ↔ s.depth = 0) ∧
    (∀ d, s.draft = some d → 1 ≤ s.depth ∧ s.pending = []) ∧
    s.filePath = filePath ∧ s.fileName = fileName ∧
    (∀ package later, s.package = some package → (s.after later).package = some package) ∧
    ∀ line n,
      (∀ t, step s line n = .ok t →
        ¬ (t.element.isSome ∧ t.diagnostic.isSome) ∧
        (t.element.isSome ∨ t.diagnostic.isSome → t.state.inBlock = false ∧ t.state.pending = [])) ∧
      ((∃ e, step s line n = .error e) ↔
        ∃ d, s.draft = some d ∧ s.depth + braceBalance line.toList = 0 ∧ n < d.declarationLine) := by
  have hcoherent : s.Coherent := hs ▸ (State.Coherent.initial filePath fileName).after lines
  have hkeeps : (State.initial filePath fileName).Keeps s := hs ▸ State.after_keeps _ lines
  refine ⟨hcoherent.draft_eq_none_iff, fun d hd => ?_, hkeeps.filePath, hkeeps.fileName, ?_, ?_⟩
  · obtain ⟨hdepth, hpending, -⟩ := hcoherent.inside d hd
    exact ⟨hdepth, hpending⟩
  · intro package later hpackage
    exact (s.after_keeps later).package package hpackage
  · intro line n
    refine ⟨fun t hstep => ?_, ?_⟩
    · have hclean := step_clean hstep
      refine ⟨fun hboth => ?_, fun hyields => ?_⟩
      · rcases hclean.single with hnone | hnone
        · simp [hnone] at hboth
        · simp [hnone] at hboth
      · obtain ⟨hdraft, hpending⟩ := hclean.afresh hyields
        exact ⟨by rw [State.inBlock, hdraft]; rfl, hpending⟩
    · simp only [step_eq_error_iff hcoherent]
      constructor
      · rintro ⟨e, d, hdraft, hzero, hend, -⟩
        exact ⟨d, hdraft, hzero, hend⟩
      · rintro ⟨d, hdraft, hzero, hend⟩
        exact ⟨_, d, hdraft, hzero, hend, rfl⟩

/-- A block that was opened on line 5, after a comment and a package, and that line 4 failed to close. -/
def backwardLines : List (String × ℤ) :=
  [("package p;", 1), ("// a", 2), ("message A \x7b", 5), ("\x7d", 4)]

/-- The block is still open after the line that failed, which fails again, and a line behind the declaration
closes it. -/
theorem State.initial_after_coherent_of_backward_lines :
    ∃ s t, s = (State.initial "a.proto" "a.proto").after backwardLines ∧
      s.inBlock = true ∧ s.depth = 1 ∧ s.pending = [] ∧ (∃ e, step s "\x7d" 4 = .error e) ∧
      (∀ later, (s.after later).package = some "p") ∧
      step s "\x7d" 7 = .ok t ∧ t.element.isSome = true ∧ t.diagnostic = none ∧
      t.state.inBlock = false ∧ t.state.pending = [] := by
  obtain ⟨-, hinside, -, -, hpackage, hnext⟩ :=
    State.initial_after_coherent "a.proto" "a.proto" backwardLines _ rfl
  generalize hs : (State.initial "a.proto" "a.proto").after backwardLines = s at hinside hpackage hnext
  have hview : (s.draft.map fun d => d.declarationLine, s.depth, s.package) =
      (some 5, 1, some "p") := by
    subst hs
    decide +kernel
  simp only [Prod.mk.injEq, Option.map_eq_some_iff] at hview
  obtain ⟨⟨d, hdraft, hline⟩, hdepth, hp⟩ := hview
  have hbalance : braceBalance "\x7d".toList = -1 := by decide +kernel
  have hzero : s.depth + braceBalance "\x7d".toList = 0 := by rw [hdepth, hbalance]; rfl
  have hfails := (hnext "\x7d" 4).2.mpr ⟨d, hdraft, hzero, by rw [hline]; decide⟩
  -- behind the declaration the line closes the block
  obtain ⟨t, hstep, helement⟩ : ∃ t, step s "\x7d" 7 = .ok t ∧ t.element.isSome = true := by
    subst hs
    exact ⟨_, rfl, rfl⟩
  obtain ⟨hsingle, hafresh⟩ := (hnext "\x7d" 7).1 t hstep
  obtain ⟨hseeks, hpending⟩ := hafresh (.inl helement)
  refine ⟨s, t, rfl, ?_, hdepth, (hinside d hdraft).2, hfails, fun later => hpackage "p" later hp, hstep,
    helement, ?_, hseeks, hpending⟩
  · rw [State.inBlock, hdraft]
    rfl
  · rw [← Option.not_isSome_iff_eq_none]
    exact fun hreport => hsingle ⟨helement, hreport⟩

end Gleaner.Schema
