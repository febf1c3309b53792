import Gleaner.Artifact
import Gleaner.Proofs.FileSystem.Making
import Gleaner.Proofs.Text.Trim
import Gleaner.Proofs.Text.Utf8

/-!
# Attempts to write a file

A writer makes the directories it needs and then writes its file. Either step can fail. Then directories
may have been made, but no file is touched. Otherwise the file is there, and holds what was to be written.
Whether a file can be written is a matter of its path and of what is there, not of its content.

A text with a surrogate has no bytes. That is found out when the file is open: the element file is then
left empty, and the diagnostics end with the one before.

## Main definitions

* `Written.Attempts`: the contract of a writer
* `Openable`: where a file can be written
* `LogLeft`: what is left of diagnostics

## Main results

* `writeFresh_attempts`, `result_writeFresh_iff`: a file is written just where it can be
* `writeDiagnostics_logLeft`: what becomes of diagnostics
* `writeElements_of_encoding`, `writeElements_of_string`, `writeElements_of_surrogate`: what becomes of
  elements
* `writeFresh_spreads`: directories are made above the file only
-/

namespace Gleaner

open Gleaner.Utf8 (Bytes)

variable {α β : Type} {fs : FileSystem} {path : Text} {bytes : Bytes}

/-- **The contract of a writer.** It touches its own file and no other; after a success the file holds
the bytes, and after a failure no file was touched. -/
structure Written.Attempts (written : Written α) (fs : FileSystem) (path : Text) (bytes : Bytes) :
    Prop where
  grows : fs.Grows [fs.resolve path] written.fs
  holds : ∀ a, written.result = .ok a → written.fs.read path = .ok bytes
  fails : ∀ e, written.result = .error e → (∃ cause, e = .access cause) ∧ fs.Grows [] written.fs

theorem Written.fs_as (written : Written α) (b : β) : (written.as b).fs = written.fs :=
  rfl

theorem Written.fs_thenFails (written : Written Unit) (e : ArtifactError) :
    (written.thenFails e : Written α).fs = written.fs :=
  rfl

namespace Written.Attempts

/-- An attempt that succeeded. -/
theorem succeeded {after : FileSystem} (grows : fs.Grows [fs.resolve path] after)
    (read : after.read path = .ok bytes) (a : α) : Attempts ⟨.ok a, after⟩ fs path bytes := by
  refine ⟨grows, fun _ _ => read, ?_⟩
  rintro _ ⟨⟩

/-- An attempt that failed. -/
theorem failed {after : FileSystem} (grows : fs.Grows [] after) (cause : AccessError) :
    Attempts (α := α) ⟨.error (.access cause), after⟩ fs path bytes := by
  refine ⟨grows.mono (List.nil_subset _), ?_, ?_⟩
  · rintro _ ⟨⟩
  · rintro _ ⟨⟩
    exact ⟨⟨cause, rfl⟩, grows⟩

end Written.Attempts

theorem ensureParent_grows (fs : FileSystem) (path : Text) :
    fs.Grows [] (ensureParent fs path).1 :=
  FileSystem.makeDirectories_grows ..

/-- A file that is written after changes which touch nothing. -/
theorem attempts_of_write {next after : FileSystem} (h : fs.Grows [] next)
    (hwrite : next.write path bytes = .ok after) (a : α) :
    Written.Attempts ⟨.ok a, after⟩ fs path bytes := by
  -- the directories made do not change where the file is
  have hafter := FileSystem.grows_of_write hwrite
  rw [h.resolve_eq path] at hafter
  exact .succeeded ((h.mono (List.nil_subset _)).trans hafter) (FileSystem.read_of_write hwrite) a

theorem writeFresh_of_ok {next after : FileSystem} (hparent : ensureParent fs path = (next, none))
    (hwrite : next.write path bytes = .ok after) : writeFresh fs path bytes = ⟨.ok (), after⟩ := by
  unfold writeFresh
  rw [hparent]
  dsimp only
  rw [hwrite]

theorem writeFresh_attempts (fs : FileSystem) (path : Text) (bytes : Bytes) :
    (writeFresh fs path bytes).Attempts fs path bytes := by
  have hparent := ensureParent_grows fs path
  unfold writeFresh
  rcases hmade : ensureParent fs path with ⟨next, _ | e⟩
  · rw [hmade] at hparent
    cases hwrite : next.write path bytes with
    | error e =>
      simp only [hwrite]
      exact .failed hparent e
    | ok after =>
      simp only [hwrite]
      exact attempts_of_write hparent hwrite ()
  · rw [hmade] at hparent
    exact .failed hparent e

/-! ## Where a file can be written -/

/-- A path takes a file: it can be followed, and leads to a file or to a name that is free. -/
def FileSystem.TakesFile (fs : FileSystem) (path : Text) : Prop :=
  ∃ place, fs.reach true path = .ok place ∧ place.slashed = false ∧
    ∀ entry ∈ place.entry, entry.isFile = true

theorem FileSystem.exists_write_iff : (∃ after, fs.write path bytes = .ok after) ↔ fs.TakesFile path := by
  unfold FileSystem.write FileSystem.modify FileSystem.TakesFile
  cases fs.reach true path with
  | error e => simp
  | ok place =>
    rcases place with ⟨components, entry, slashed⟩
    cases slashed with
    | true => simp
    | false => rcases entry with _ | _ | _ | _ <;> simp [Entry.isFile]

/-- **Where a file can be written**: its directory can be made, and its path takes a file after that. -/
def Openable (fs : FileSystem) (path : Text) : Prop :=
  ∃ next, ensureParent fs path = (next, none) ∧ next.TakesFile path

/-- **A file is written just where it can be**, whatever its content. -/
theorem result_writeFresh_iff : (writeFresh fs path bytes).result = .ok () ↔ Openable fs path := by
  unfold writeFresh Openable
  rcases ensureParent fs path with ⟨next, _ | e⟩
  · simp only [Prod.mk.injEq, and_true, exists_eq_left', ← @FileSystem.exists_write_iff next path bytes]
    cases next.write path bytes <;> simp
  · simp

theorem Openable.read (h : Openable fs path) : (writeFresh fs path bytes).fs.read path = .ok bytes :=
  (writeFresh_attempts ..).holds () (result_writeFresh_iff.mpr h)

/-- Where a file cannot be written, none is touched. -/
theorem grows_of_not_openable (h : ¬ Openable fs path) (bytes : Bytes) :
    ∃ cause, (writeFresh fs path bytes).result = .error (.access cause) ∧
      fs.Grows [] (writeFresh fs path bytes).fs := by
  cases hresult : (writeFresh fs path bytes).result with
  | ok _ => exact absurd (result_writeFresh_iff.mp hresult) h
  | error e =>
    obtain ⟨⟨cause, rfl⟩, hgrows⟩ := (writeFresh_attempts fs path bytes).fails e hresult
    exact ⟨cause, rfl, hgrows⟩

/-- **A file can be written into the root**, unless something else has its name. -/
theorem writeFresh_root {name : Text} (hcwd : fs.cwd = "/") (hne : path.isEmpty = false)
    (hfault : pathFault? path = none) (hpieces : Path.pieces (Path.append "/" path) = [("" : Text), name])
    (hparent : Path.parent (Path.absolute "/" path) = "/") (hname : Path.IsName name)
    (hfree : fs.entries.get? name = none ∨ ∃ old, fs.entries.get? name = some (.file old))
    (bytes : Bytes) :
    writeFresh fs path bytes = ⟨.ok (), fs.putAt [name] (.file bytes)⟩ := by
  have hmade : ensureParent fs path = (fs, none) := by
    rw [ensureParent, hcwd, hparent, FileSystem.makeDirectories_root hcwd]
  refine writeFresh_of_ok hmade ?_
  have hlocate : fs.locate true path = .ok ⟨[name], fs.entries.get? name, false⟩ := by
    rcases hfree with hget | ⟨old, hget⟩ <;>
      simp [FileSystem.locate, hne, hcwd, hpieces, locateFrom, hname.1, hname.2.1, hname.2.2.1, Trail.here,
        hget, Trail.components]
  rw [FileSystem.write, FileSystem.modify, FileSystem.reach, hfault, hlocate]
  rcases hfree with hget | ⟨old, hget⟩ <;> simp [Except.mapError, hget]

theorem openable_root (name : Text) (hcwd : fs.cwd = "/") (hne : path.isEmpty = false)
    (hfault : pathFault? path = none) (hpieces : Path.pieces (Path.append "/" path) = [("" : Text), name])
    (hparent : Path.parent (Path.absolute "/" path) = "/") (hname : Path.IsName name)
    (hfree : fs.entries.get? name = none ∨ ∃ old, fs.entries.get? name = some (.file old)) :
    Openable fs path :=
  result_writeFresh_iff.mp (congrArg Written.result
    (writeFresh_root hcwd hne hfault hpieces hparent hname hfree []))

/-! ## Diagnostics -/

theorem fs_writeDiagnostics (fs : FileSystem) (lines : List Text) (path : Text) :
    (writeDiagnostics fs lines path).fs = (writeFresh fs path (logBytes lines).1).fs := by
  unfold writeDiagnostics
  dsimp only
  split
  · rw [Written.fs_thenFails]
  · rw [Written.fs_as]

theorem hasSurrogate_logLine {line : Text} : (logLine line).HasSurrogate ↔ line.HasSurrogate := by
  have hkept (offset) : CodePoint.surrogate offset ∈ Text.dropEnd (· = .char '\n') line.toList ↔
      CodePoint.surrogate offset ∈ line.toList := Text.mem_dropEnd_iff (by simp)
  simp [Text.HasSurrogate, logLine, hkept]

/-- A line without a surrogate has bytes. -/
theorem exists_encode_logLine {line : Text} (h : ¬ line.HasSurrogate) :
    ∃ bytes, (logLine line).encode = .ok bytes := by
  cases hencode : (logLine line).encode with
  | ok bytes => exact ⟨bytes, rfl⟩
  | error e => exact absurd (hasSurrogate_logLine.mp (Text.exists_encode_eq_error_iff.mp ⟨e, hencode⟩)) h

/-- A line with a surrogate has none. -/
theorem logBytes_cons_of_surrogate {line : Text} (h : line.HasSurrogate) (rest : List Text) :
    ∃ cause, logBytes (line :: rest) = ([], some cause) := by
  obtain ⟨cause, hencode⟩ := Text.exists_encode_eq_error_iff.mpr (hasSurrogate_logLine.mpr h)
  exact ⟨cause, by simp only [logBytes, hencode]⟩

/-- **Diagnostics are cut short** where one has no bytes; `kept` are those before the first such. -/
def CutShort (lines kept : List Text) : Prop :=
  (∀ line ∈ kept, ¬ line.HasSurrogate) ∧ ∃ line rest, lines = kept ++ line :: rest ∧ line.HasSurrogate

/-- The bytes of diagnostics that are cut short are those of the ones kept. -/
theorem CutShort.logBytes_fst {lines kept : List Text} (h : CutShort lines kept) :
    (logBytes lines).1 = (logBytes kept).1 := by
  obtain ⟨hkept, line, rest, rfl, hline⟩ := h
  induction kept with
  | nil =>
    obtain ⟨cause, hbytes⟩ := logBytes_cons_of_surrogate hline rest
    rw [List.nil_append, hbytes, logBytes]
  | cons first kept ih =>
    obtain ⟨hfirst, hkept⟩ := List.forall_mem_cons.mp hkept
    obtain ⟨bytes, hbytes⟩ := exists_encode_logLine hfirst
    simp only [List.cons_append, logBytes, hbytes, ih hkept]

/-- **All diagnostics have bytes**, or they are cut short. -/
theorem logBytes_cases (lines : List Text) :
    ((logBytes lines).2 = none ∧ ∀ line ∈ lines, ¬ line.HasSurrogate) ∨
      ∃ cause kept, (logBytes lines).2 = some cause ∧ CutShort lines kept := by
  induction lines with
  | nil => exact .inl ⟨rfl, List.forall_mem_nil _⟩
  | cons line rest ih =>
    by_cases hline : line.HasSurrogate
    · obtain ⟨cause, hbytes⟩ := logBytes_cons_of_surrogate hline rest
      exact .inr ⟨cause, [], by rw [hbytes], List.forall_mem_nil _, line, rest, rfl, hline⟩
    · obtain ⟨bytes, hbytes⟩ := exists_encode_logLine hline
      rcases ih with ⟨hnone, hrest⟩ | ⟨cause, kept, hcause, hkept, other, tail, rfl, hother⟩
      · exact .inl ⟨by simp only [logBytes, hbytes, hnone], List.forall_mem_cons.mpr ⟨hline, hrest⟩⟩
      · refine .inr ⟨cause, line :: kept, by simp only [logBytes, hbytes, hcause], ?_⟩
        exact ⟨List.forall_mem_cons.mpr ⟨hline, hkept⟩, other, tail, rfl, hother⟩

/-- **What becomes of diagnostics**, when all is done: the file is refused, or it holds all of them, or those
before one that has no bytes. -/
inductive LogLeft (before : FileSystem) (lines : List Text) (path : Text) (after : FileSystem) : Prop
  | refused (cause : AccessError)
      (result : (writeDiagnostics before lines path).result = .error (.access cause))
  | written (result : (writeDiagnostics before lines path).result = .ok lines.length)
      (sound : ∀ line ∈ lines, ¬ line.HasSurrogate) (read : after.read path = .ok (logBytes lines).1)
  | cut {kept : List Text} (cause : Unencodable)
      (result : (writeDiagnostics before lines path).result = .error (.unencodable cause))
      (short : CutShort lines kept) (read : after.read path = .ok (logBytes kept).1)

namespace LogLeft

variable {after : FileSystem} {lines : List Text}

theorem of_ok {n : ℕ} (h : LogLeft fs lines path after)
    (hok : (writeDiagnostics fs lines path).result = .ok n) :
    n = lines.length ∧ (∀ line ∈ lines, ¬ line.HasSurrogate) ∧
      after.read path = .ok (logBytes lines).1 := by
  cases h with
  | refused _ hresult => cases hok.symm.trans hresult
  | written hresult hsound hread => exact ⟨Except.ok.inj (hok.symm.trans hresult), hsound, hread⟩
  | cut _ hresult => cases hok.symm.trans hresult

theorem of_unencodable {cause : Unencodable} (h : LogLeft fs lines path after)
    (hcut : (writeDiagnostics fs lines path).result = .error (.unencodable cause)) :
    ∃ kept, CutShort lines kept ∧ after.read path = .ok (logBytes lines).1 := by
  cases h with
  | refused _ hresult => cases hcut.symm.trans hresult
  | written hresult => cases hcut.symm.trans hresult
  | cut _ _ hshort hread => exact ⟨_, hshort, by rw [hshort.logBytes_fst, hread]⟩

end LogLeft

/-- Where the file can be written, what counts is whether all diagnostics have bytes. -/
theorem Openable.writeDiagnostics (h : Openable fs path) (lines : List Text) :
    (writeDiagnostics fs lines path).result =
        ((logBytes lines).2.elim (.ok lines.length) fun cause => .error (.unencodable cause)) ∧
      (writeDiagnostics fs lines path).fs.read path = .ok (logBytes lines).1 := by
  have hresult : (writeFresh fs path (logBytes lines).1).result = .ok () := result_writeFresh_iff.mpr h
  rw [fs_writeDiagnostics]
  refine ⟨?_, h.read⟩
  unfold Gleaner.writeDiagnostics
  cases (logBytes lines).2 with
  | none => simp [Written.as, hresult, Except.map]
  | some cause => simp [Written.thenFails, hresult, Except.bind]

theorem writeDiagnostics_logLeft (fs : FileSystem) (lines : List Text) (path : Text) :
    LogLeft fs lines path (writeDiagnostics fs lines path).fs := by
  by_cases hopen : Openable fs path
  · obtain ⟨hresult, hread⟩ := hopen.writeDiagnostics lines
    rcases logBytes_cases lines with ⟨hnone, hsound⟩ | ⟨cause, kept, hcause, hshort⟩
    · exact .written (by rw [hresult, hnone, Option.elim_none]) hsound hread
    · rw [hshort.logBytes_fst] at hread
      exact .cut cause (by rw [hresult, hcause, Option.elim_some]) hshort hread
  · obtain ⟨cause, hrefused, -⟩ := grows_of_not_openable hopen (logBytes lines).1
    refine .refused cause ?_
    unfold writeDiagnostics
    cases (logBytes lines).2 with
    | none => simp [Written.as, hrefused, Except.map]
    | some e => simp [Written.thenFails, hrefused, Except.bind]

/-! ## Elements -/

/-- What is written of elements is one file, or nothing. -/
theorem writeElements_eq (fs : FileSystem) (elements : Value) (path : Text) :
    (writeElements fs elements path).fs = fs ∨
      ∃ bytes, (writeElements fs elements path).fs = (writeFresh fs path bytes).fs := by
  unfold writeElements
  split
  · exact .inl rfl
  · split
    · exact .inl rfl
    · split
      · exact .inr ⟨[], by rw [Written.fs_thenFails]⟩
      · next bytes _ => exact .inr ⟨bytes, by rw [Written.fs_as]⟩

section Elements

variable {elements : Value} {items : List Value}

/-- **What cannot be encoded is not written**, and nothing changes. -/
theorem writeElements_of_encoding {e : Json.WriteError} (hitems : elements.items = .ok items)
    (htext : elementText items = .error e) :
    writeElements fs elements path = ⟨.error (.encoding e), fs⟩ := by
  simp only [writeElements, hitems, htext]

/-- **A text that is a string is written** as the content of the file. -/
theorem writeElements_of_string {text : String} (hitems : elements.items = .ok items)
    (htext : elementText items = .ok text) :
    writeElements fs elements path = (writeFresh fs path (Utf8.encode text)).as items.length := by
  simp only [writeElements, hitems, htext, Text.encode_ofString]

/-- **A text with a surrogate leaves the file empty.** -/
theorem writeElements_of_surrogate {text : Text} (hitems : elements.items = .ok items)
    (htext : elementText items = .ok text) (h : text.HasSurrogate) :
    ∃ cause, writeElements fs elements path = (writeFresh fs path []).thenFails (.unencodable cause) := by
  obtain ⟨cause, hcause⟩ := Text.exists_encode_eq_error_iff.mpr h
  exact ⟨cause, by simp only [writeElements, hitems, htext, hcause]⟩

/-- **Elements that are written can be read**, and had a text that is a string. -/
theorem writeElements_read {n : ℕ} (hitems : elements.items = .ok items)
    (h : (writeElements fs elements path).result = .ok n) :
    ∃ text : String, elementText items = .ok text ∧
      (writeElements fs elements path).fs.read path = .ok (Utf8.encode text) := by
  cases htext : elementText items with
  | error e =>
    rw [writeElements_of_encoding hitems htext] at h
    cases h
  | ok text =>
    by_cases hsurrogate : text.HasSurrogate
    · -- the file is empty, and that is a failure
      obtain ⟨cause, hwritten⟩ : ∃ cause, writeElements fs elements path =
          (writeFresh fs path []).thenFails (.unencodable cause) :=
        writeElements_of_surrogate hitems htext hsurrogate
      rw [hwritten, Written.thenFails] at h
      cases hfresh : (writeFresh fs path []).result <;> simp [hfresh, Except.bind] at h
    · obtain ⟨string, rfl⟩ := Text.exists_eq_ofString_iff.mpr hsurrogate
      have hwritten : writeElements fs elements path =
        (writeFresh fs path (Utf8.encode string)).as items.length := writeElements_of_string hitems htext
      refine ⟨string, rfl, ?_⟩
      rw [hwritten, Written.as] at h
      rw [hwritten, Written.fs_as]
      cases hfresh : (writeFresh fs path (Utf8.encode string)).result with
      | error e => simp [hfresh, Except.map] at h
      | ok _ => exact (writeFresh_attempts ..).holds () hfresh

end Elements

/-! ## Where directories are made -/

theorem writeFresh_spreads (fs : FileSystem) (path : Text) (bytes : Bytes) :
    fs.Spreads [fs.resolve path] (fs.above path) (writeFresh fs path bytes).fs := by
  have hparent : fs.Spreads [fs.resolve path] (fs.above path) (ensureParent fs path).1 :=
    (FileSystem.makeDirectories_spreads fs _).mono (List.nil_subset _) (List.Subset.refl _)
  unfold writeFresh
  rcases hmade : ensureParent fs path with ⟨next, _ | e⟩
  · rw [hmade] at hparent
    dsimp only
    split
    · exact hparent
    · next after hwrite =>
      have hafter := FileSystem.spreads_of_modify hwrite
      rw [hparent.resolve_eq path] at hafter
      exact hparent.trans (hafter.mono (List.Subset.refl _) (List.nil_subset _))
  · rw [hmade] at hparent
    exact hparent

theorem writeDiagnostics_spreads (fs : FileSystem) (lines : List Text) (path : Text) :
    fs.Spreads [fs.resolve path] (fs.above path) (writeDiagnostics fs lines path).fs := by
  rw [fs_writeDiagnostics]
  exact writeFresh_spreads ..

theorem writeElements_spreads (fs : FileSystem) (elements : Value) (path : Text) :
    fs.Spreads [fs.resolve path] (fs.above path) (writeElements fs elements path).fs := by
  rcases writeElements_eq fs elements path with hsame | ⟨bytes, hsame⟩
  · rw [hsame]
    exact .refl fs _ _
  · rw [hsame]
    exact writeFresh_spreads fs path bytes

end Gleaner
