import Mathlib.Data.List.Basic
import Mathlib.Data.List.Induction
import Mathlib.Tactic.SplitIfs
import Gleaner.Log.Handler

/-!
# Handlers after many calls

Logging can be configured more than once. Each call gives all handlers the format, adds one for its log
file, and sees to it that every handler has the filter without which the format cannot be filled in. The
steps are taken in this order, and the second may fail. A call that fails leaves the format on the handlers
and the filters as they were.

So over a sequence of calls all handlers are alike. Up to the first call that goes through they have the
format and no filter, and show nothing; from then on they have the format and one filter each, whatever
fails later. The handlers themselves are those from the start, or else one for the console, and one for each
call that has opened a log file.

## Main definitions

* `Call`: what a call asks for, and the files that it meets
* `Logging.afterCalls`: the state after calls
* `Logging.Alike`: all handlers have the format, and equally many filters

## Main results

* `configure_cases`: what one call does to the handlers
* `Logging.alike_afterCall`, `Logging.alike_afterCalls`: formats and filters after one call, and after many
* `Logging.targets_afterCalls`: where the handlers write
* `handlers_after_calls`: the handlers after any calls, and what they show
* `formatted_without_filter`: a handler that is left with the format only
-/

namespace Gleaner.Log

/-! ## Calls -/

/-- A call that configures logging: what it asks for, and the files that it meets. -/
structure Call where
  level : Level
  logFile : Option Text
  fs : FileSystem

namespace Call

/-- The path of the log file that is asked for. An empty name asks for none. -/
def wanted? (c : Call) : Option Text :=
  (c.logFile.filter (!·.isEmpty)).map (Path.absolute c.fs.cwd)

/-- Why the log file cannot be opened, if one is asked for and it cannot. -/
def failure? (c : Call) : Option AccessError :=
  c.wanted?.bind fun path =>
    match c.fs.append path [] with
    | .error e => some e
    | .ok _ => none

/-- The call goes through. -/
def succeeds (c : Call) : Bool :=
  c.failure?.isNone

/-- The log file that the call has opened. -/
def opened? (c : Call) : Option Text :=
  if c.succeeds then c.wanted? else none

end Call

variable {l : Logging} {c : Call} {calls : List Call} {k : ℕ}

namespace Logging

/-- The state after a call. -/
def afterCall (l : Logging) (c : Call) : Logging :=
  (l.configure c.fs c.level c.logFile).logging

/-- The state after calls, one after the other. -/
def afterCalls (l : Logging) (calls : List Call) : Logging :=
  calls.foldl afterCall l

@[simp] theorem afterCalls_nil (l : Logging) : l.afterCalls [] = l := rfl

@[simp] theorem afterCalls_concat (l : Logging) (calls : List Call) (c : Call) :
    l.afterCalls (calls ++ [c]) = (l.afterCalls calls).afterCall c := by
  rw [afterCalls, afterCalls, List.foldl_concat]

end Logging

/-- **What one call does**: whether it fails is not a matter of the handlers, and if it does, it leaves them
with the format only. -/
theorem configure_cases (l : Logging) (c : Call) :
    (l.configure c.fs c.level c.logFile).failure = c.failure? ∧
      (l.afterCall c).handlers =
        if c.succeeds then
          (formatted l.handlers ++ c.opened?.toList.map fileHandler).map Handler.ensureFilter
        else formatted l.handlers := by
  unfold Logging.afterCall Logging.configure Call.opened? Call.succeeds Call.failure? Call.wanted?
  cases c.logFile.filter (!·.isEmpty) with
  | none => simp
  | some name =>
    simp only [Option.map_some, Option.bind_some]
    cases c.fs.append (Path.absolute c.fs.cwd name) [] with
    | error e => simp
    | ok fs => simp

/-! ## What a call does to the handlers -/

/-- All handlers have the format, and each has so many filters; and there is one. -/
structure Logging.Alike (l : Logging) (k : ℕ) : Prop where
  nonempty : l.handlers ≠ []
  structured : ∀ h ∈ l.handlers, h.structured = true
  filters : ∀ h ∈ l.handlers, h.filters = k

theorem formatted_ne_nil (handlers : List Handler) : formatted handlers ≠ [] := by
  cases handlers with
  | nil => exact List.cons_ne_nil _ _
  | cons h rest => exact List.cons_ne_nil _ _

theorem Logging.handlers_afterCall_ne_nil (l : Logging) (c : Call) : (l.afterCall c).handlers ≠ [] := by
  rw [(configure_cases l c).2]
  split_ifs
  · simp [formatted_ne_nil]
  · exact formatted_ne_nil _

/-- The format does not touch the filters; the handler for the console that is made where there is none has
no filter. -/
theorem mem_formatted {handlers : List Handler} (hfilters : ∀ h ∈ handlers, h.filters = k)
    (hnone : handlers = [] → k = 0) : ∀ h ∈ formatted handlers, h.structured = true ∧ h.filters = k := by
  cases handlers with
  | nil =>
    intro h hh
    obtain rfl := List.mem_singleton.mp hh
    exact ⟨rfl, (hnone rfl).symm⟩
  | cons first rest =>
    intro h hh
    obtain ⟨h, hmem, rfl⟩ := List.mem_map.mp (hh : h ∈ (first :: rest).map Handler.format)
    exact ⟨rfl, hfilters h hmem⟩

theorem Handler.ensureFilter_structured (h : Handler) : h.ensureFilter.structured = h.structured := by
  unfold Handler.ensureFilter
  split_ifs <;> rfl

theorem Handler.ensureFilter_target (h : Handler) : h.ensureFilter.target = h.target := by
  unfold Handler.ensureFilter
  split_ifs <;> rfl

/-- A handler without a filter gets one, and one that has a filter gets no other. -/
theorem Handler.ensureFilter_filters {h : Handler} (hle : h.filters ≤ 1) : h.ensureFilter.filters = 1 := by
  unfold Handler.ensureFilter
  split_ifs with hnone
  · rfl
  · omega

/-- **One call**: handlers that have equally many filters, at most one, become alike. If the call goes
through they have one filter each, and else as many as before. -/
theorem Logging.alike_afterCall (hfilters : ∀ h ∈ l.handlers, h.filters = k)
    (hnone : l.handlers = [] → k = 0) (hk : k ≤ 1) (c : Call) :
    (l.afterCall c).Alike (if c.succeeds then 1 else k) := by
  have hhandlers := (configure_cases l c).2
  have hsome := l.handlers_afterCall_ne_nil c
  have hformatted := mem_formatted hfilters hnone
  split_ifs at hhandlers ⊢ with hsucceeds
  · have hbase : ∀ h ∈ formatted l.handlers ++ c.opened?.toList.map fileHandler,
        h.structured = true ∧ h.filters ≤ 1 := by
      intro h hh
      rcases List.mem_append.mp hh with hold | hnew
      · exact ⟨(hformatted h hold).1, by rw [(hformatted h hold).2]; exact hk⟩
      · obtain ⟨path, -, rfl⟩ := List.mem_map.mp hnew
        exact ⟨rfl, Nat.zero_le 1⟩
    refine ⟨hsome, fun h hh => ?_, fun h hh => ?_⟩
    · obtain ⟨h, hmem, rfl⟩ := List.mem_map.mp (hhandlers ▸ hh)
      rw [h.ensureFilter_structured, (hbase h hmem).1]
    · obtain ⟨h, hmem, rfl⟩ := List.mem_map.mp (hhandlers ▸ hh)
      exact Handler.ensureFilter_filters (hbase h hmem).2
  · refine ⟨hsome, fun h hh => ?_, fun h hh => ?_⟩
    · exact (hformatted h (hhandlers ▸ hh)).1
    · exact (hformatted h (hhandlers ▸ hh)).2

/-- Where the handlers write: to the console if there are none yet. -/
def Logging.targets (l : Logging) : List Target :=
  if l.handlers = [] then [.console] else l.handlers.map (·.target)

theorem Logging.targets_eq (h : l.handlers ≠ []) : l.targets = l.handlers.map (·.target) :=
  if_neg h

/-- One call adds the log file that it has opened, and changes nothing else about where handlers write. -/
theorem Logging.targets_afterCall (l : Logging) (c : Call) :
    (l.afterCall c).targets = l.targets ++ c.opened?.toList.map .file := by
  have hformatted : (formatted l.handlers).map (·.target) = l.targets := by
    unfold Logging.targets
    cases l.handlers with
    | nil => rfl
    | cons h rest => simp [formatted, Handler.format]
  rw [targets_eq (l.handlers_afterCall_ne_nil c), (configure_cases l c).2]
  split_ifs with hsucceeds
  · rw [List.map_map, List.map_append]
    congr 1
    · rw [← hformatted]
      exact List.map_congr_left fun h _ => h.ensureFilter_target
    · rw [List.map_map]
      exact List.map_congr_left fun path _ => (fileHandler path).ensureFilter_target
  · rw [hformatted, Call.opened?, if_neg hsucceeds]
    simp

/-! ## Many calls -/

/-- **Many calls**: after at least one, from handlers without a filter, all handlers are alike. They have
one filter each if a call went through, and none otherwise. -/
theorem Logging.alike_afterCalls (hbare : ∀ h ∈ l.handlers, h.filters = 0) (hcalls : calls ≠ []) :
    (l.afterCalls calls).Alike (if calls.any Call.succeeds then 1 else 0) := by
  induction calls using List.reverseRecOn with
  | nil => exact absurd rfl hcalls
  | append_singleton calls c ih =>
    rw [afterCalls_concat, List.any_append]
    by_cases hfirst : calls = []
    · subst hfirst
      simpa using l.alike_afterCall hbare (fun _ => rfl) (Nat.zero_le 1) c
    · -- the handlers are alike by now, and the last call finds them so
      have hbefore := ih hfirst
      have hafter := alike_afterCall hbefore.filters (fun hnone => absurd hnone hbefore.nonempty)
        (by split_ifs <;> omega) c
      cases hc : c.succeeds <;> simpa [hc] using hafter

/-- Each call adds the log file that it has opened. -/
theorem Logging.targets_afterCalls (l : Logging) (calls : List Call) :
    (l.afterCalls calls).targets = l.targets ++ (calls.filterMap Call.opened?).map .file := by
  induction calls using List.reverseRecOn with
  | nil => simp
  | append_singleton calls c ih =>
    rw [afterCalls_concat, targets_afterCall, ih, List.filterMap_append, List.map_append, List.append_assoc]
    cases h : c.opened? <;> simp [h]

/-! ## What is shown -/

/-- Handlers with one filter each show every record that is heavy enough, with run and phase. -/
theorem Logging.Alike.emit_eq (h : l.Alike 1) (r : Record) :
    l.emit r = if r.reaches l.level then l.handlers.map fun h => (h.target, l.line r) else [] := by
  have hshown : l.handlers.filterMap (l.shown r) = l.handlers.map fun h => (h.target, l.line r) := by
    rw [← List.filterMap_eq_map]
    refine List.filterMap_congr fun handler hhandler => ?_
    rw [shown, h.structured handler hhandler, h.filters handler hhandler]
    rfl
  have hsome : l.handlers.isEmpty = false := by simpa using h.nonempty
  simp only [emit, hsome, hshown, Bool.false_eq_true, if_false]

/-- Handlers without a filter show nothing. -/
theorem Logging.Alike.emit_eq_nil (h : l.Alike 0) (r : Record) : l.emit r = [] := by
  have hshown : l.handlers.filterMap (l.shown r) = [] := by
    refine List.filterMap_eq_nil_iff.mpr fun handler hhandler => ?_
    rw [shown, h.structured handler hhandler, h.filters handler hhandler]
    rfl
  have hsome : l.handlers.isEmpty = false := by simpa using h.nonempty
  simp only [emit, hsome, hshown, Bool.false_eq_true, if_false, ite_self]

/-! ## The handlers after any calls -/

theorem Call.isSome_opened? (c : Call) : c.opened?.isSome = (c.succeeds && c.wanted?.isSome) := by
  unfold Call.opened?
  cases c.succeeds <;> simp

theorem Logging.length_targets (l : Logging) : l.targets.length = max 1 l.handlers.length := by
  unfold Logging.targets
  cases l.handlers with
  | nil => rfl
  | cons h rest =>
    simp only [List.cons_ne_nil, if_false, List.length_map, List.length_cons]
    omega

/-- **The handlers after calls** that start from handlers without a filter. All have the format; they have
one filter each if a call went through, and none otherwise, so that a handler with the format has its filter
exactly from the first call on that goes through. Where a call went through, records that are heavy enough
are shown on all handlers, with run and phase, and else nothing is shown. The handlers are those from the
start, or one for the console, and one more for each call that went through and asked for a log file. -/
theorem handlers_after_calls (l : Logging) (calls : List Call)
    (hbare : ∀ h ∈ l.handlers, h.filters = 0) (hcalls : calls ≠ []) :
    (∀ h ∈ (l.afterCalls calls).handlers,
      h.structured = true ∧ h.filters = if calls.any Call.succeeds then 1 else 0) ∧
    ((∀ h ∈ (l.afterCalls calls).handlers, h.structured = true → h.filters = 1) ↔
      ∃ c ∈ calls, c.succeeds = true) ∧
    (∀ r, (l.afterCalls calls).emit r =
      if calls.any Call.succeeds && r.reaches (l.afterCalls calls).level then
        (l.afterCalls calls).handlers.map fun h => (h.target, (l.afterCalls calls).line r)
      else []) ∧
    (l.afterCalls calls).handlers.map (·.target) =
      l.targets ++ (calls.filterMap Call.opened?).map .file ∧
    (l.afterCalls calls).handlers.length =
      max 1 l.handlers.length + calls.countP (fun c => c.succeeds && c.wanted?.isSome) ∧
    ∀ (before : Logging) (c : Call),
      (before.configure c.fs c.level c.logFile).failure = none ↔ c.succeeds = true := by
  have halike := Logging.alike_afterCalls hbare hcalls
  have htargets := l.targets_afterCalls calls
  rw [Logging.targets_eq halike.nonempty] at htargets
  refine ⟨fun h hh => ⟨halike.structured h hh, halike.filters h hh⟩, ?_, fun r => ?_, htargets, ?_, ?_⟩
  · rw [← List.any_eq_true]
    constructor
    · intro hone
      -- some handler is there to tell
      obtain ⟨h, rest, hhandlers⟩ := List.exists_cons_of_ne_nil halike.nonempty
      have hmem : h ∈ (l.afterCalls calls).handlers := hhandlers ▸ List.mem_cons_self
      have hfilters := halike.filters h hmem
      rw [hone h hmem (halike.structured h hmem)] at hfilters
      by_contra hnone
      rw [if_neg hnone] at hfilters
      cases hfilters
    · intro hsome h hh _
      rw [halike.filters h hh, if_pos hsome]
  · cases hsome : calls.any Call.succeeds with
    | true =>
      rw [hsome, if_pos rfl] at halike
      rw [halike.emit_eq, Bool.true_and]
    | false =>
      rw [hsome, if_neg Bool.false_ne_true] at halike
      rw [halike.emit_eq_nil, Bool.false_and, if_neg Bool.false_ne_true]
  · rw [← List.length_map (·.target), htargets, List.length_append, l.length_targets, List.length_map,
      List.length_filterMap_eq_countP]
    simp only [Call.isSome_opened?]
  · intro before c
    rw [(configure_cases before c).1, Call.succeeds, Option.isNone_iff_eq_none]

/-- A call whose log file is in a directory that is not there. -/
def misplacedCall (level : Level) : Call := ⟨level, some "missing/a.log", {}⟩

theorem misplacedCall_failure? (level : Level) :
    (misplacedCall level).failure? = some (.os ⟨.missing, "/missing/a.log"⟩) := by
  have hwanted : Option.map (Path.absolute "/")
      (Option.filter (!·.isEmpty) (some ("missing/a.log" : Text))) = some ("/missing/a.log" : Text) := by
    decide +kernel
  have hsound : pathFault? "/missing/a.log" = none := by decide +kernel
  have hpieces : Path.pieces (Path.append "/" "/missing/a.log") = [("" : Text), "missing", "a.log"] := by
    decide +kernel
  rw [Call.failure?, show (misplacedCall level).wanted? = _ from hwanted, Option.bind_some]
  simp [misplacedCall, FileSystem.append, FileSystem.modify, FileSystem.reach, hsound, FileSystem.locate,
    hpieces, locateFrom, Trail.here, Entries.get?, Except.mapError]

/-- A call whose log file can be made. -/
def placedCall : Call := ⟨.debug, some "a.log", {}⟩

theorem placedCall_opened? : placedCall.succeeds = true ∧ placedCall.opened? = some ("/a.log" : Text) := by
  have hpath : Path.absolute "/" "a.log" = "/a.log" := by decide +kernel
  have hsound : pathFault? "/a.log" = none := by decide +kernel
  have hpieces : Path.pieces (Path.append "/" "/a.log") = [("" : Text), "a.log"] := by decide +kernel
  simp [Call.opened?, Call.succeeds, Call.failure?, Call.wanted?, placedCall, hpath, FileSystem.append,
    FileSystem.modify, FileSystem.reach, hsound, FileSystem.locate, hpieces, locateFrom, Trail.here,
    Entries.get?, Except.mapError]

/-- A call that fails, one that goes through, and one more that fails, whose level has no name. -/
def mixedCalls : List Call :=
  [misplacedCall .info, placedCall, misplacedCall ⟨15⟩]

/-- After these calls there are two handlers with one filter each. -/
theorem handlers_after_calls_of_mixed :
    (∀ h ∈ (Logging.afterCalls {} mixedCalls).handlers, h.structured = true → h.filters = 1) ∧
      (Logging.afterCalls {} mixedCalls).handlers.map (·.target) = [.console, .file "/a.log"] := by
  have hbare : ∀ h ∈ ({} : Logging).handlers, h.filters = 0 := fun h hh => nomatch hh
  obtain ⟨-, hone, -, htargets, -⟩ := handlers_after_calls {} mixedCalls hbare (List.cons_ne_nil _ _)
  have hfails : ∀ level, (misplacedCall level).opened? = none := by
    intro level
    rw [Call.opened?, Call.succeeds, misplacedCall_failure?]
    rfl
  refine ⟨hone.mpr ⟨placedCall, by simp [mixedCalls], placedCall_opened?.1⟩, ?_⟩
  rw [htargets, mixedCalls, List.filterMap_cons_none (hfails .info),
    List.filterMap_cons_some placedCall_opened?.2, List.filterMap_cons_none (hfails ⟨15⟩)]
  rfl

/-- **A handler may be left with the format only**: a first call that fails gives the console handler the
format and no filter. -/
theorem formatted_without_filter :
    ¬ ∀ (l : Logging) (calls : List Call), (∀ h ∈ l.handlers, h.filters = 0) → calls ≠ [] →
      ∀ h ∈ (l.afterCalls calls).handlers, h.structured = true → h.filters = 1 := by
  intro halways
  have hleft : (Logging.afterCalls {} [misplacedCall .info]).handlers = [consoleHandler] := by
    have hcall := (configure_cases {} (misplacedCall .info)).2
    rw [Call.succeeds, misplacedCall_failure?] at hcall
    exact hcall
  have hone := halways {} [misplacedCall .info] (fun h hh => nomatch hh) (List.cons_ne_nil _ _)
    consoleHandler (hleft ▸ List.mem_singleton_self _) rfl
  exact absurd hone (by decide)

end Gleaner.Log
