import Mathlib.Data.List.Nodup
import Gleaner.Settings
import Gleaner.Proofs.Text.Trim

/-!
# Settings that are resolved again

The settings that a configuration resolves to can be written down as a configuration. If that one is
resolved in turn, the extensions come out as they went in: each has its dot and no blanks around it, no
two are the same, and so every one is added behind those before it. The same goes for the wish for
constructors.

It does not go for segments. Blanks are trimmed first and slashes after them, so that blanks inside the
slashes are still around a segment once the slashes are gone. Nothing trims them but another resolution.
Settings are resolved for good exactly if no segment has blanks around it.

## Main definitions

* `IsSegment`, `IsExtension`, `IsExtensionTable`: the form of segments and extensions in settings
* `Settings.toEntries`: settings, written as a configuration
* `Settings.Resolved`: settings such as a configuration resolves to

## Main results

* `segmentsOf_text_eq_iff`: which segments are read as they were written down
* `IsExtensionTable.extensionsFrom_written`: extensions always are
* `Settings.resolved_of_ofEntries`: the form of settings that come from a configuration
* `Settings.stays_resolved_iff_trimmed`: which settings stay as they are
-/

namespace Gleaner

open Gleaner.Text (Bare isBlank)

/-! ## Segments -/

section Segments

variable {s : Text} {segments : List Text}

/-- **The form of a segment in settings**: something is left of it, slashes are not written the other
way, and none is at its ends. -/
structure IsSegment (s : Text) : Prop where
  ne_empty : s ≠ ""
  backslash : .char '\\' ∉ s.toList
  bare : Bare (· = .char '/') s.toList

theorem strip_isInfix (p : CodePoint → Bool) (cs : List CodePoint) : strip p cs <:+: cs :=
  (List.rdropWhile_prefix _ (cs.dropWhile _)).isInfix.trans (List.dropWhile_suffix _).isInfix

theorem bare_strip (p : CodePoint → Bool) (cs : List CodePoint) : Bare p (strip p cs) :=
  Text.bare_dropEnd_dropWhile p cs

/-- What is normalised has the form of a segment, unless nothing is left of it. -/
theorem isSegment_normalSegment {raw : Value} (h : normalSegment raw ≠ "") :
    IsSegment (normalSegment raw) := by
  refine ⟨h, ?_, ?_⟩
  · intro hmem
    rw [normalSegment, Text.toList_ofList] at hmem
    obtain ⟨c, -, hc⟩ := List.mem_map.mp ((strip_isInfix _ _).subset hmem)
    split_ifs at hc with hback
    · cases hc
    · exact hback hc
  · rw [normalSegment, Text.toList_ofList]
    exact bare_strip _ _

theorem isSegment_of_mem_segmentsOf {items : List Value} (h : s ∈ segmentsOf items) : IsSegment s := by
  obtain ⟨hmem, hne⟩ := List.mem_filter.mp h
  obtain ⟨raw, -, rfl⟩ := List.mem_map.mp hmem
  exact isSegment_normalSegment (by simpa [← Text.isEmpty_iff] using hne)

/-- Without slashes written the other way, a text is trimmed only. -/
theorem normalSegment_text (h : .char '\\' ∉ s.toList) :
    normalSegment (.text s) = Text.ofList (stripSlashes (stripBlanks s.toList)) := by
  have hsame : ∀ c ∈ stripBlanks s.toList, (if c = .char '\\' then .char '/' else c) = c := by
    intro c hc
    refine if_neg ?_
    rintro rfl
    exact h ((strip_isInfix _ _).subset hc)
  rw [normalSegment, Value.plain, List.map_congr_left hsame, List.map_id']

/-- Segments that are written down are trimmed when they are read, first of blanks and then of slashes. -/
theorem segmentsOf_text (h : ∀ s ∈ segments, IsSegment s) :
    segmentsOf (segments.map .text) =
      (segments.map fun s => Text.ofList (stripSlashes (stripBlanks s.toList))).filter (!·.isEmpty) := by
  have hread : (segments.map .text).map normalSegment =
      segments.map fun s => Text.ofList (stripSlashes (stripBlanks s.toList)) := by
    rw [List.map_map]
    exact List.map_congr_left fun s hs => normalSegment_text (h s hs).backslash
  rw [segmentsOf, hread]

/-- **A segment stays as it is exactly if there are no blanks around it.** -/
theorem IsSegment.stripSlashes_eq_iff (h : IsSegment s) :
    Text.ofList (stripSlashes (stripBlanks s.toList)) = s ↔ stripBlanks s.toList = s.toList := by
  rw [← Text.toList_inj, Text.toList_ofList]
  constructor
  · intro heq
    -- what is trimmed twice is as long as the text, so nothing was trimmed the first time
    have hlength : s.toList.length ≤ (stripBlanks s.toList).length := by
      conv_lhs => rw [← heq]
      exact (strip_isInfix _ _).length_le
    exact (strip_isInfix _ _).sublist.eq_of_length_le hlength
  · intro heq
    rw [heq, stripSlashes, strip, h.bare.dropEnd_dropWhile]

/-- **Segments that are written down** are read as they were exactly if none has blanks around it. -/
theorem segmentsOf_text_eq_iff (h : ∀ s ∈ segments, IsSegment s) :
    segmentsOf (segments.map .text) = segments ↔ ∀ s ∈ segments, stripBlanks s.toList = s.toList := by
  rw [segmentsOf_text h]
  constructor
  · intro heq s hs
    -- no segment was dropped, or there would be fewer
    have hkept := List.filter_sublist.eq_of_length_le (by rw [heq, List.length_map])
    have hall : segments.map (fun s => Text.ofList (stripSlashes (stripBlanks s.toList))) =
        segments.map id := by
      rw [← hkept, heq, List.map_id]
    rw [← (h s hs).stripSlashes_eq_iff]
    exact List.map_inj_left.mp hall s hs
  · intro htrimmed
    have hall : segments.map (fun s => Text.ofList (stripSlashes (stripBlanks s.toList))) =
        segments.map id :=
      List.map_congr_left fun s hs => (h s hs).stripSlashes_eq_iff.mpr (htrimmed s hs)
    rw [hall, List.map_id, List.filter_eq_self]
    intro s hs
    simpa [← Text.isEmpty_iff] using (h s hs).ne_empty

end Segments

/-! ## Extensions -/

section Extensions

variable {s extension : Text} {cs : List CodePoint} {kind : SourceKind}
  {known rest table : List (Text × SourceKind)}

/-- **The form of an extension in settings**: it starts with a dot, and there are no blanks around it. -/
structure IsExtension (s : Text) : Prop where
  dot : s.toList.head? = some (.char '.')
  bare : Bare (·.isIn isBlank) s.toList

theorem dot_isPrefixOf_iff :
    [CodePoint.char '.'].isPrefixOf cs = true ↔ cs.head? = some (.char '.') := by
  cases cs with
  | nil => simp
  | cons c rest =>
    rw [List.isPrefixOf_cons_cons, List.isPrefixOf_nil_left, Bool.and_true, beq_iff_eq, List.head?_cons,
      Option.some.injEq, eq_comm]

/-- What is normalised has the form of an extension. -/
theorem isExtension_normalExtension (raw : Value) : IsExtension (normalExtension raw) := by
  have hbare : Bare (·.isIn isBlank) (stripBlanks raw.plain.toList) := bare_strip _ _
  simp only [normalExtension]
  split_ifs with hdot
  · refine ⟨?_, ?_⟩ <;> rw [Text.toList_ofList]
    · exact dot_isPrefixOf_iff.mp hdot
    · exact hbare
  · refine ⟨?_, ?_⟩ <;> rw [Text.toList_ofList]
    · rfl
    · exact hbare.cons (by decide)

/-- An extension that is written down is read as it was. -/
theorem IsExtension.normalExtension_eq (h : IsExtension s) : normalExtension (.text s) = s := by
  have hstrip : stripBlanks s.toList = s.toList := h.bare.dropEnd_dropWhile
  simp only [normalExtension, Value.plain, hstrip, dot_isPrefixOf_iff.mpr h.dot, if_true,
    Text.ofList_toList]

theorem kindOf?_name (kind : SourceKind) : kindOf? (.text kind.name) = some kind := by
  cases kind <;> decide +kernel

/-- **Extensions as settings have them**: each is of their form, and no two are the same. -/
structure IsExtensionTable (table : List (Text × SourceKind)) : Prop where
  form : ∀ extension ∈ table.map Prod.fst, IsExtension extension
  distinct : (table.map Prod.fst).Nodup

/-- Extensions, written as the entries of a configuration. -/
def extensionEntries (table : List (Text × SourceKind)) : List (Value × Value) :=
  table.map fun x => (.text x.1, .text x.2.name)

/-- An extension that is there keeps its place when it is set. -/
theorem map_fst_setExtension_of_mem (h : extension ∈ known.map Prod.fst) :
    (setExtension extension kind known).map Prod.fst = known.map Prod.fst := by
  induction known with
  | nil => cases h
  | cons first known ih =>
    obtain ⟨e, k⟩ := first
    by_cases he : e = extension
    · rw [setExtension, if_pos he, List.map_cons, List.map_cons]
    · have hmore : extension ∈ known.map Prod.fst := (List.mem_cons.mp h).resolve_left (Ne.symm he)
      rw [setExtension, if_neg he, List.map_cons, List.map_cons, ih hmore]

/-- An extension that is not there comes last when it is set. -/
theorem setExtension_of_notMem (h : extension ∉ known.map Prod.fst) :
    setExtension extension kind known = known ++ [(extension, kind)] := by
  induction known with
  | nil => rfl
  | cons first known ih =>
    obtain ⟨e, k⟩ := first
    rw [List.map_cons, List.mem_cons, not_or] at h
    rw [setExtension, if_neg (Ne.symm h.1), ih h.2, List.cons_append]

theorem isExtensionTable_nil : IsExtensionTable [] := by
  constructor
  · intro extension h
    cases h
  · exact List.nodup_nil

/-- One extension is set. -/
theorem IsExtensionTable.setExtension (h : IsExtensionTable known) (hform : IsExtension extension) :
    IsExtensionTable (setExtension extension kind known) := by
  by_cases hmem : extension ∈ known.map Prod.fst
  · have hkeys : (Gleaner.setExtension extension kind known).map Prod.fst = known.map Prod.fst :=
      map_fst_setExtension_of_mem hmem
    constructor
    · rw [hkeys]
      exact h.form
    · rw [hkeys]
      exact h.distinct
  · rw [setExtension_of_notMem hmem]
    constructor
    · rw [List.map_append, List.map_singleton, List.forall_mem_append, List.forall_mem_singleton]
      exact ⟨h.form, hform⟩
    · rw [List.map_append, List.map_singleton, ← List.concat_eq_append]
      exact h.distinct.concat hmem

/-- The extensions of entries are set one after the other. -/
theorem IsExtensionTable.extensionsFrom {entries : List (Value × Value)} (h : IsExtensionTable known)
    (hread : extensionsFrom known entries = .ok table) : IsExtensionTable table := by
  induction entries generalizing known with
  | nil =>
    cases hread
    exact h
  | cons entry entries ih =>
    obtain ⟨rawExtension, rawKind⟩ := entry
    rw [Gleaner.extensionsFrom] at hread
    split_ifs at hread
    cases hkind : kindOf? rawKind with
    | none =>
      rw [hkind] at hread
      cases hread
    | some kind =>
      rw [hkind] at hread
      exact ih (h.setExtension (isExtension_normalExtension rawExtension)) hread

/-- **Extensions that are written down** are read as they were, behind those already there. -/
theorem IsExtensionTable.extensionsFrom_written (h : IsExtensionTable (known ++ rest)) :
    Gleaner.extensionsFrom known (extensionEntries rest) = .ok (known ++ rest) := by
  induction rest generalizing known with
  | nil => rw [List.append_nil, extensionEntries, List.map_nil, Gleaner.extensionsFrom]
  | cons first rest ih =>
    obtain ⟨extension, kind⟩ := first
    have hform : IsExtension extension := h.form extension (by simp)
    have hnew : extension ∉ known.map Prod.fst := by
      have hdistinct := h.distinct
      rw [List.map_append, List.map_cons] at hdistinct
      intro hmem
      exact List.disjoint_of_nodup_append hdistinct hmem (List.mem_cons_self ..)
    have hmove : known ++ (extension, kind) :: rest = (known ++ [(extension, kind)]) ++ rest := by simp
    rw [hmove] at h ⊢
    simp only [extensionEntries, List.map_cons, Gleaner.extensionsFrom, Value.hasText, Bool.and_self,
      if_true, hform.normalExtension_eq, kindOf?_name, setExtension_of_notMem hnew]
    exact ih h

end Extensions

/-! ## Settings -/

/-- **Settings, written as a configuration.** -/
def Settings.toEntries (settings : Settings) : List (Value × Value) := [
  (.text "excluded_segments", .list (settings.excludedSegments.map .text)),
  (.text "extensions", .map (extensionEntries settings.extensions)),
  (.text "include_constructors", .bool settings.includeConstructors)]

/-- **Settings such as a configuration resolves to.** -/
structure Settings.Resolved (settings : Settings) : Prop where
  segments : ∀ s ∈ settings.excludedSegments, IsSegment s
  extensions : IsExtensionTable settings.extensions

section Settings

variable {entries : List (Value × Value)} {settings : Settings}

theorem Settings.ofEntries_eq_ok_iff :
    Settings.ofEntries entries = .ok settings ↔
      segmentsSetting entries = .ok settings.excludedSegments ∧
      extensionsSetting entries = .ok settings.extensions ∧
      constructorsSetting entries = settings.includeConstructors := by
  simp only [Settings.ofEntries]
  cases segmentsSetting entries with
  | error cause => simp [bind, Except.bind]
  | ok segments =>
    cases extensionsSetting entries with
    | error cause => simp [bind, Except.bind]
    | ok extensions =>
      cases settings
      simp [bind, Except.bind, pure, Except.pure]

/-- The defaults are what they would resolve to. -/
theorem resolved_default : ({} : Settings).Resolved := by
  constructor
  · intro s hs
    have hsame : segmentsOf (({} : Settings).excludedSegments.map .text) =
        ({} : Settings).excludedSegments := by decide +kernel
    rw [← hsame] at hs
    exact isSegment_of_mem_segmentsOf hs
  · have hsame : extensionsFrom [] (extensionEntries ({} : Settings).extensions) =
        .ok ({} : Settings).extensions := by decide +kernel
    exact isExtensionTable_nil.extensionsFrom hsame

/-- **The form of settings that come from a configuration.** -/
theorem Settings.resolved_of_ofEntries (h : Settings.ofEntries entries = .ok settings) :
    settings.Resolved := by
  obtain ⟨hsegments, hextensions, -⟩ := Settings.ofEntries_eq_ok_iff.mp h
  constructor
  · intro s hs
    unfold segmentsSetting at hsegments
    split at hsegments
    · rw [← Except.ok.inj hsegments] at hs
      exact resolved_default.segments s hs
    · split_ifs at hsegments
      rw [← Except.ok.inj hsegments] at hs
      exact isSegment_of_mem_segmentsOf hs
    · cases hsegments
  · unfold extensionsSetting at hextensions
    split at hextensions
    · rw [← Except.ok.inj hextensions]
      exact resolved_default.extensions
    · exact isExtensionTable_nil.extensionsFrom hextensions
    · cases hextensions

theorem haveText_map_text (texts : List Text) : Value.haveText (texts.map .text) = true := by
  induction texts with
  | nil => rfl
  | cons s texts ih => simp [Value.haveText, Value.hasText, ih]

/-- Of settings that are resolved again, only the segments may change. -/
theorem Settings.Resolved.ofEntries_toEntries (h : settings.Resolved) :
    Settings.ofEntries settings.toEntries =
      .ok { settings with excludedSegments := segmentsOf (settings.excludedSegments.map .text) } := by
  refine Settings.ofEntries_eq_ok_iff.mpr ⟨?_, ?_, ?_⟩
  · simp [segmentsSetting, toEntries, Value.lookup?, Value.sameKey, haveText_map_text]
  · have hwritten : extensionsFrom [] (extensionEntries settings.extensions) = .ok settings.extensions :=
      IsExtensionTable.extensionsFrom_written h.extensions
    simpa [extensionsSetting, toEntries, Value.lookup?, Value.sameKey] using hwritten
  · simp [constructorsSetting, toEntries, Value.lookup?, Value.sameKey, Value.truth]

/-- **Settings that are resolved again** stay as they are exactly if no segment has blanks around it. All
else stays in any case. Each segment has no slashes around it and none written the other way, and each
extension starts with a dot. -/
theorem Settings.stays_resolved_iff_trimmed (h : Settings.ofEntries entries = .ok settings) :
    (Settings.ofEntries settings.toEntries = .ok settings ↔
      ∀ s ∈ settings.excludedSegments, stripBlanks s.toList = s.toList) ∧
    Settings.ofEntries settings.toEntries = .ok { settings with
      excludedSegments := (settings.excludedSegments.map fun s =>
        Text.ofList (stripSlashes (stripBlanks s.toList))).filter (!·.isEmpty) } ∧
    settings.Resolved := by
  have hresolved := Settings.resolved_of_ofEntries h
  refine ⟨?_, ?_, hresolved⟩
  · rw [hresolved.ofEntries_toEntries, ← segmentsOf_text_eq_iff hresolved.segments]
    constructor
    · intro heq
      exact congrArg Settings.excludedSegments (Except.ok.inj heq)
    · intro heq
      rw [heq]
  · rw [hresolved.ofEntries_toEntries, segmentsOf_text hresolved.segments]

/-- A configuration with slashes around segments, and one extension in two spellings. -/
def vendorEntries : List (Value × Value) := [
  (.text "excluded_segments", .list [.text " /vendor/ ", .text "third_party\\gen", .text ""]),
  (.text "extensions", .map [(.text "jav", .text "JAVA"), (.text ".jav ", .text "schema")]),
  (.text "include_constructors", .int 1)]

/-- What it resolves to. -/
def vendorSettings : Settings where
  excludedSegments := ["vendor", "third_party/gen"]
  extensions := [(".jav", .schema)]
  includeConstructors := true

/-- Slashes around a segment, and blanks around these, are gone for good. -/
theorem Settings.stays_resolved_of_vendor :
    Settings.ofEntries vendorEntries = .ok vendorSettings ∧
      Settings.ofEntries vendorSettings.toEntries = .ok vendorSettings := by
  have h : Settings.ofEntries vendorEntries = .ok vendorSettings := by decide +kernel
  exact ⟨h, (Settings.stays_resolved_iff_trimmed h).1.mpr (by decide +kernel)⟩

/-- Blanks inside the slashes outlast a resolution, and the next one trims them. -/
theorem Settings.resolved_again_of_inner_blanks :
    Settings.ofEntries [(.text "excluded_segments", .list [.text "/ a /"])] =
        .ok { excludedSegments := [" a "] } ∧
      Settings.ofEntries ({ excludedSegments := [" a "] } : Settings).toEntries =
        .ok { excludedSegments := ["a"] } := by
  decide +kernel

end Settings

end Gleaner
