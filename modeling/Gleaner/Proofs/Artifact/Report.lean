import Gleaner.Proofs.Artifact.Attempt
import Gleaner.Proofs.Json.RoundTrip
import Gleaner.Proofs.Json.Writable
import Gleaner.Proofs.Text.Utf8

/-!
# The report of a run

A report is a map of texts and integers under string keys, written with sorted keys. Once it is written,
the file gives every field back under its key; the order is lost, and halves of pairs that meet in a text
become one character. A report is not written as a whole: where an integer has too many digits, the file
ends there, and the writer fails.

## Main definitions

* `Json.fieldAgain`: what a field is read as
* `reportPath`: where a report goes
* `reportOf?`: the entries that a file gives

## Main results

* `Json.exists_read_record`: a record that is written is read back up to the order of its fields
* `writeReport_spreads`: only the file of the report is touched
* `writeReport_of_ok`: a report that is written gives its fields back
-/

namespace Gleaner

open Gleaner.Utf8 (Bytes)

/-! ## Records with sorted keys -/

namespace Json

variable {style : Style} {depth level : ℕ} {v : Value}

/-- The values that a report has. -/
def IsField : Value → Prop
  | .text _ | .int _ => True
  | _ => False

/-- What a field is read as: halves of pairs that meet in a text become one character. -/
def fieldAgain : Value → Value
  | .text s => .text (.ofList (paired s.toList))
  | v => v

/-- A string is read as it is. -/
theorem fieldAgain_string (s : String) : fieldAgain (.text s) = .text s := by
  rw [fieldAgain, Text.toList_ofString, paired_map_char]
  rfl

/-- A field that is written can be read again. -/
theorem IsField.readsAs (h : IsField v) (hcharset : style.charset = .ascii)
    (hwrite : (write style level v).failure = none) : ReadsAs style depth v (fieldAgain v) := by
  cases v with
  | text s => exact readsAs_text depth (.inl hcharset)
  | int n =>
    rw [write_int, Draft.failure_ofExcept_eq_none_iff, exists_intText_iff] at hwrite
    exact readsBack_int style depth hwrite
  | _ => cases h

/-- Where a record is written, so is each of its fields. -/
theorem failure_write_of_mem {fields : List (String × Value)}
    (h : (write style level (.map (record fields))).failure = none) :
    ∀ f ∈ fields, (write style (level + 1) f.2).failure = none := by
  intro f hf
  obtain ⟨fields', hperm, -, hwrite⟩ := exists_write_record style level (List.ne_nil_of_mem hf)
  rw [hwrite, Draft.failure_append_eq_none_iff, Draft.failure_append_eq_none_iff,
    failure_writeEntries_eq_none_iff] at h
  have hmem : (Value.text f.1, f.2) ∈ record fields' := List.mem_map_of_mem (hperm.mem_iff.mpr hf)
  exact (h.1.2 _ hmem).2

/-- **A record that is written is read back up to the order of its fields.** -/
theorem exists_read_record {fields : List (String × Value)} (hcharset : style.charset = .ascii)
    (hfields : ∀ f ∈ fields, IsField f.2) (hnodup : (fields.map Prod.fst).Nodup)
    (h : (write style 0 (.map (record fields))).failure = none) :
    ∃ fields', fields'.Perm fields ∧
      read (String.ofList (Text.ofList (write style 0 (.map (record fields))).text).chars) =
        .ok (.map (record (reread fieldAgain fields'))) := by
  have hback : ∀ f ∈ fields, ReadsAs style 984 f.2 (fieldAgain f.2) :=
    fun f hf => (hfields f hf).readsAs hcharset (failure_write_of_mem h f hf)
  obtain ⟨fields', hperm, -, text, hwrite, hstarts, -, hread⟩ :=
    exists_readValue_record 0 fieldAgain hback hnodup
  refine ⟨fields', hperm, ?_⟩
  -- nothing comes after the record, and all the depth there is is left for it
  have hall := read_append_of_readValue hstarts (fun fuel hfuel => hread fuel [] hfuel)
    (rfl : skipGap [] = [])
  have hchars : (Text.ofList (Draft.done text).text).chars = text := by
    rw [← String.toList_ofList (l := text), Draft.done]
    exact Text.chars_ofString _
  rw [List.append_nil] at hall
  rw [hwrite, hchars]
  exact hall

/-- Under distinct keys, looking up finds the fields. -/
theorem lookup?_record_eq_some_iff {fields : List (String × Value)}
    (hnodup : (fields.map Prod.fst).Nodup) (key : String) (value : Value) :
    Value.lookup? key (record fields) = some value ↔ (key, value) ∈ fields := by
  rw [lookup?_record]
  induction fields with
  | nil => simp
  | cons field fields ih =>
    obtain ⟨name, v⟩ := field
    rw [List.map_cons, List.nodup_cons] at hnodup
    by_cases hname : name = key
    · subst hname
      have hother : (name, value) ∉ fields := fun hmem => hnodup.1 (List.mem_map.mpr ⟨_, hmem, rfl⟩)
      simp [hother, eq_comm]
    · simp [hname, Ne.symm hname, ih hnodup.2]

end Json

open Gleaner.Json (record IsField)

/-! ## Reports -/

variable {fs : FileSystem} {fields : List (String × Value)} {runId timestamp : String}
  {directory : Text}

/-- Where a report goes. -/
def reportPath (directory : Text) (runId : String) : Text :=
  Path.append directory (runId ++ ".json" : String)

/-- The entries that the bytes of a report give. -/
def reportOf? (bytes : Bytes) : Option (List (Value × Value)) :=
  match Utf8.decode bytes with
  | .error _ => none
  | .ok text =>
    match Json.read text with
    | .ok (.map entries) => some entries
    | _ => none

/-- The fields of a report, with those that it always has. -/
def withDefaults (runId timestamp : String) (fields : List (String × Value)) : List (String × Value) :=
  fields ++ [("run_id", .text runId)] ++ [("timestamp_utc", .text timestamp)]

/-- A report that is to have its own name and time. -/
structure ReportFields (fields : List (String × Value)) : Prop where
  scalar : ∀ f ∈ fields, IsField f.2
  distinct : (fields.map Prod.fst).Nodup
  unnamed : "run_id" ∉ fields.map Prod.fst
  untimed : "timestamp_utc" ∉ fields.map Prod.fst

theorem putDefault_record {key : String} (value : Value) (h : key ∉ fields.map Prod.fst) :
    putDefault key value (record fields) = record (fields ++ [(key, value)]) := by
  have hnone : Value.lookup? key (record fields) = none := by
    rw [Json.lookup?_record, Option.map_eq_none_iff, List.find?_eq_none]
    intro field hfield hkey
    exact h (List.mem_map.mpr ⟨field, hfield, by simpa using hkey⟩)
  rw [putDefault, hnone, Json.insertEntry_record value h]
  rfl

theorem ReportFields.entries_eq (h : ReportFields fields) :
    putDefault "timestamp_utc" (.text timestamp)
        (putDefault "run_id" (.text runId) (record fields)) =
      record (withDefaults runId timestamp fields) := by
  have htime : "timestamp_utc" ∉ (fields ++ [("run_id", Value.text runId)]).map Prod.fst := by
    simpa using h.untimed
  rw [putDefault_record _ h.unnamed, putDefault_record _ htime, withDefaults]

theorem ReportFields.isField_withDefaults (h : ReportFields fields) :
    ∀ f ∈ withDefaults runId timestamp fields, IsField f.2 := by
  intro f hf
  simp only [withDefaults, List.mem_append, List.mem_singleton] at hf
  rcases hf with (hf | rfl) | rfl
  · exact h.scalar f hf
  · trivial
  · trivial

theorem ReportFields.nodup_withDefaults (h : ReportFields fields) :
    ((withDefaults runId timestamp fields).map Prod.fst).Nodup := by
  have hkeys : (withDefaults runId timestamp fields).map Prod.fst =
      fields.map Prod.fst ++ ["run_id", "timestamp_utc"] := by simp [withDefaults]
  rw [hkeys, List.nodup_append]
  refine ⟨h.distinct, by decide, ?_⟩
  rintro key hkey other hother rfl
  rcases List.mem_pair.mp hother with rfl | rfl
  · exact h.unnamed hkey
  · exact h.untimed hkey

/-- **Only the file of the report is touched**, also where a part of it is all that is written. -/
theorem writeReport_spreads (fs : FileSystem) (report : List (Value × Value))
    (runId timestamp : String) (directory : Text) :
    fs.Spreads [fs.resolve (reportPath directory runId)]
      ((FileSystem.directoriesTo directory.length directory).map fs.resolve)
      (writeReport fs report runId timestamp directory).fs := by
  have hmake := (FileSystem.makeDirectories_spreads fs directory).mono
    (List.nil_subset [fs.resolve (reportPath directory runId)]) (List.Subset.refl _)
  unfold writeReport
  rcases hmade : fs.makeDirectories directory with ⟨next, _ | e⟩
  · rw [hmade] at hmake
    dsimp only
    split
    · exact hmake
    · next after hwrite =>
      have hafter := FileSystem.spreads_of_modify hwrite
      rw [hmake.resolve_eq] at hafter
      have hall := hmake.trans (hafter.mono (List.Subset.refl _) (List.nil_subset _))
      split <;> exact hall
  · rw [hmade] at hmake
    exact hmake

/-- A report that is written was written as a whole. -/
theorem draft_of_writeReport {report : List (Value × Value)} {path : Text}
    (h : (writeReport fs report runId timestamp directory).result = .ok path) :
    let draft := Json.write reportStyle 0 (.map (putDefault "timestamp_utc" (.text timestamp)
      (putDefault "run_id" (.text runId) report)))
    path = reportPath directory runId ∧ draft.failure = none ∧
      (writeReport fs report runId timestamp directory).fs.read path =
        .ok (Utf8.encode (String.ofList (Text.ofList draft.text).chars)) := by
  unfold writeReport at h ⊢
  rcases hmade : fs.makeDirectories directory with ⟨next, _ | e⟩
  · rw [hmade] at h
    dsimp only at h ⊢
    split at h
    · cases h
    · next after hwrite =>
      split at h
      · cases h
      · next hfailure =>
        cases h
        exact ⟨rfl, hfailure, FileSystem.read_of_write hwrite⟩
  · rw [hmade] at h
    cases h

/-- **A report that is written gives its fields back**, each under its key, and strings as they were. -/
theorem writeReport_of_ok (hfields : ReportFields fields) {path : Text}
    (h : (writeReport fs (record fields) runId timestamp directory).result = .ok path) :
    path = reportPath directory runId ∧
      ∃ bytes entries,
        (writeReport fs (record fields) runId timestamp directory).fs.read path = .ok bytes ∧
        reportOf? bytes = some entries ∧
        ∀ f ∈ withDefaults runId timestamp fields,
          Value.lookup? f.1 entries = some (Json.fieldAgain f.2) := by
  obtain ⟨hpath, hfailure, hread⟩ := draft_of_writeReport h
  rw [hfields.entries_eq] at hfailure hread
  have hcharset : reportStyle.charset = .ascii := rfl
  obtain ⟨fields', hperm, hentries⟩ := Json.exists_read_record hcharset hfields.isField_withDefaults
    hfields.nodup_withDefaults hfailure
  -- sorting moves fields, and reading changes values: the keys are the same
  have hnodup : ((Json.reread Json.fieldAgain fields').map Prod.fst).Nodup := by
    rw [Json.map_fst_reread]
    exact (hperm.map Prod.fst).nodup_iff.mpr hfields.nodup_withDefaults
  refine ⟨hpath, _, record (Json.reread Json.fieldAgain fields'), hread, ?_, fun f hf => ?_⟩
  · have hdecode := Utf8.decode_eq_ok_iff.mpr (rfl : Utf8.encode (String.ofList (Text.ofList
      (Json.write reportStyle 0 (.map (record (withDefaults runId timestamp fields)))).text).chars) = _)
    simp only [reportOf?, hdecode, hentries]
  · rw [Json.lookup?_record_eq_some_iff hnodup]
    exact List.mem_map_of_mem (hperm.mem_iff.mpr hf)

end Gleaner
