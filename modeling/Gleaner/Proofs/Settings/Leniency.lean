import Gleaner.Settings.Load
import Gleaner.Proofs.Text.Utf8

/-!
# Strict and lenient loading

Both modes read the same file by the same steps and differ in one respect: what strict mode refuses with
a problem, lenient mode logs and passes over. Lenient mode then takes the default settings as a whole;
nothing of a refused file survives. Failures that are not problems are `Unforeseen`: paths that cannot be
handed to the system, bytes that are no text, and texts on which the reader of the format itself gives up.
They stop both modes alike, whatever reader of YAML is at work.

## Main definitions

* `Unforeseen`: the failures that no mode forgives, by what is in the file

## Main results

* `readConfig_eq_error_iff`: reading fails with something else than a problem exactly if it is unforeseen
* `loadSettings_lenient`: what lenient mode gives, by what strict mode gives
-/

namespace Gleaner

variable {yaml : YamlReader} {fs : FileSystem} {path : Text} {e : LoadError}

/-- The failures that no mode forgives. -/
inductive Unforeseen (yaml : YamlReader) (fs : FileSystem) (path : Text) : LoadError → Prop
  | path {fault : PathFault} (refused : pathFault? (Path.collapse path) = some fault) :
      Unforeseen yaml fs path (.path fault)
  | undecodable {bytes : Utf8.Bytes} {cause : Utf8.Malformed}
      (sound : pathFault? (Path.collapse path) = none)
      (read : fs.readFile (Path.collapse path) = .ok bytes) (decode : Utf8.decode bytes = .error cause) :
      Unforeseen yaml fs path (.undecodable cause)
  | json {text : String} {cause : Json.ReadError} (suffix : isJsonPath path = true)
      (read : readConfigText fs path = .ok text) (parse : Json.read text = .error cause)
      (beyond : ∀ why position line column, cause ≠ .malformed why position line column) :
      Unforeseen yaml fs path (.json cause)
  | yaml {text name : String} {wording : Text} (suffix : isJsonPath path = false)
      (read : readConfigText fs path = .ok text) (parse : yaml text = .error (.raised name wording)) :
      Unforeseen yaml fs path (.yaml name wording)

theorem Unforeseen.ne_problem (h : Unforeseen yaml fs path e) (p : ConfigProblem) : e ≠ .problem p := by
  cases h <;> exact LoadError.noConfusion

/-! ## Reading -/

/-- A text is not had for a problem, or because the path is none, or the bytes are no text. -/
theorem readConfigText_eq_error (yaml : YamlReader) (h : readConfigText fs path = .error e) :
    (∃ p, e = .problem p) ∨ Unforeseen yaml fs path e := by
  unfold readConfigText at h
  split at h
  · next fault hfault =>
    cases h
    exact .inr (.path hfault)
  · next hsound =>
    split at h
    · exact .inl ⟨_, (Except.error.inj h).symm⟩
    · next bytes hread =>
      split at h
      · next cause hdecode =>
        cases h
        exact .inr (.undecodable hsound hread hdecode)
      · cases h

theorem parseJson_eq_error {text : String} (h : parseJson path text = .error e) :
    (∃ p, e = .problem p) ∨
      ∃ cause, Json.read text = .error cause ∧
        (∀ why position line column, cause ≠ .malformed why position line column) ∧
        e = .json cause := by
  unfold parseJson at h
  split at h
  · cases h
  · exact .inl ⟨_, (Except.error.inj h).symm⟩
  · next cause hbeyond hread => exact .inr ⟨cause, hread, hbeyond, (Except.error.inj h).symm⟩

theorem parseYaml_eq_error {text : String} (h : parseYaml yaml path text = .error e) :
    (∃ p, e = .problem p) ∨
      ∃ name wording, yaml text = .error (.raised name wording) ∧ e = .yaml name wording := by
  unfold parseYaml at h
  split at h
  · cases h
  · exact .inl ⟨_, (Except.error.inj h).symm⟩
  · next name wording hread => exact .inr ⟨name, wording, hread, (Except.error.inj h).symm⟩

theorem readConfig_of_readConfigText (h : readConfigText fs path = .error e) :
    readConfig yaml fs path = .error e := by
  simp only [readConfig, h, bind, Except.bind]

theorem readConfig_of_parse {text : String} (htext : readConfigText fs path = .ok text)
    (h : parseConfig yaml path text = .error e) :
    readConfig yaml fs path = .error e := by
  simp only [readConfig, htext, bind, Except.bind]
  simp only [h]

/-- A map is not had for a problem, or because the text or its value is not. -/
theorem readConfig_eq_error (h : readConfig yaml fs path = .error e) :
    (∃ p, e = .problem p) ∨ readConfigText fs path = .error e ∨
      ∃ text, readConfigText fs path = .ok text ∧
        parseConfig yaml path text = .error e := by
  cases htext : readConfigText fs path with
  | error e' =>
    rw [readConfig_of_readConfigText htext] at h
    exact .inr (.inl (congrArg _ (Except.error.inj h)))
  | ok text =>
    cases hparse : parseConfig yaml path text with
    | error e' =>
      rw [readConfig_of_parse htext hparse] at h
      exact .inr (.inr ⟨text, rfl, hparse.trans (congrArg _ (Except.error.inj h))⟩)
    | ok value =>
      simp only [readConfig, htext, bind, Except.bind] at h
      simp only [hparse] at h
      refine .inl ?_
      split at h
      · cases h
      · exact ⟨_, (Except.error.inj h).symm⟩
      · exact ⟨_, (Except.error.inj h).symm⟩

/-- **What fails without being a problem is unforeseen**, and the reverse. -/
theorem readConfig_eq_error_iff :
    readConfig yaml fs path = .error e ∧ (∀ p, e ≠ .problem p) ↔ Unforeseen yaml fs path e := by
  constructor
  · rintro ⟨h, hproblem⟩
    rcases readConfig_eq_error h with ⟨p, rfl⟩ | htext | ⟨text, htext, hparse⟩
    · exact absurd rfl (hproblem p)
    · rcases readConfigText_eq_error yaml htext with ⟨p, rfl⟩ | hunforeseen
      · exact absurd rfl (hproblem p)
      · exact hunforeseen
    · cases hsuffix : isJsonPath path with
      | true =>
        rw [parseConfig, hsuffix, if_pos rfl] at hparse
        rcases parseJson_eq_error hparse with ⟨p, rfl⟩ | ⟨cause, hread, hbeyond, rfl⟩
        · exact absurd rfl (hproblem p)
        · exact .json hsuffix htext hread hbeyond
      | false =>
        rw [parseConfig, hsuffix, if_neg Bool.false_ne_true] at hparse
        rcases parseYaml_eq_error hparse with ⟨p, rfl⟩ | ⟨name, wording, hread, rfl⟩
        · exact absurd rfl (hproblem p)
        · exact .yaml hsuffix htext hread
  · refine fun h => ⟨?_, h.ne_problem⟩
    cases h with
    | path hfault =>
      refine readConfig_of_readConfigText ?_
      simp only [readConfigText, hfault]
    | undecodable hsound hread hdecode =>
      refine readConfig_of_readConfigText ?_
      simp only [readConfigText, hsound, hread, hdecode]
    | json hsuffix htext hread hbeyond =>
      refine readConfig_of_parse htext ?_
      rw [parseConfig, hsuffix, if_pos rfl, parseJson, hread]
      -- a mistake in the text would be a problem, and this is none
      split
      · next hcause => cases hcause
      · next why position line column hcause =>
        exact absurd (Except.error.inj hcause) (hbeyond why position line column)
      · next hcause => rw [Except.error.inj hcause]
    | yaml hsuffix htext hread =>
      refine readConfig_of_parse htext ?_
      rw [parseConfig, hsuffix, if_neg Bool.false_ne_true, parseYaml, hread]

/-! ## The two modes -/

/-- No entries, no settings but the default ones. -/
theorem settleEntries_nil (path : Text) (strict : Bool) :
    (settleEntries strict path []).result = .ok {} := by
  rfl

/-- What a file that is refused for its shape gives in lenient mode. -/
theorem loadSettings_false_of_problem {p : ConfigProblem}
    (h : readConfig yaml fs path = .error (.problem p)) :
    (loadSettings yaml fs false (some path)).result = .ok {} ∧
      p.logRecord "core.startup_config" ∈ (loadSettings yaml fs false (some path)).records := by
  have hloaded : loadConfig yaml fs false path = ⟨.ok [], [p.logRecord "core.startup_config"]⟩ := by
    rw [loadConfig, h, forgive, if_neg Bool.false_ne_true]
  rw [loadSettings, hloaded]
  exact ⟨settleEntries_nil path false, List.mem_append_left _ (List.mem_singleton_self _)⟩

/-- What another failure gives, in any mode. -/
theorem loadSettings_of_unforeseen (h : Unforeseen yaml fs path e) (strict : Bool) :
    (loadSettings yaml fs strict (some path)).result = .error e := by
  obtain ⟨hread, hproblem⟩ := readConfig_eq_error_iff.mpr h
  have hloaded : (loadConfig yaml fs strict path) = ⟨.error e, []⟩ := by
    rw [loadConfig, hread]
    cases e with
    | problem p => exact absurd rfl (hproblem p)
    | path fault => rfl
    | undecodable cause => rfl
    | json cause => rfl
    | yaml name wording => rfl
  rw [loadSettings, hloaded, Loaded.andThen]

/-- What a map gives, in any mode. -/
theorem loadSettings_of_readConfig {entries : List (Value × Value)}
    (h : readConfig yaml fs path = .ok entries) (strict : Bool) :
    loadSettings yaml fs strict (some path) = settleEntries strict path entries := by
  have hloaded : loadConfig yaml fs strict path = ⟨.ok entries, []⟩ := by
    rw [loadConfig, h, forgive]
    exact fun p hp => by cases hp
  rw [loadSettings, hloaded]
  rfl

/-- At most one thing is wrong with a file. -/
theorem Unforeseen.eq_of_readConfig {result : Except LoadError (List (Value × Value))}
    (h : Unforeseen yaml fs path e) (hread : readConfig yaml fs path = result) : result = .error e :=
  hread.symm.trans (readConfig_eq_error_iff.mpr h).1

/-- What the two modes give for one file: the same settings, a problem and the default settings, or the
same unforeseen failure. -/
theorem loadSettings_cases (yaml : YamlReader) (fs : FileSystem) (path : Text) :
    (∃ s, (∀ strict, (loadSettings yaml fs strict (some path)).result = .ok s) ∧
        ∀ e, ¬ Unforeseen yaml fs path e) ∨
      (∃ p, (loadSettings yaml fs true (some path)).result = .error (.problem p) ∧
        (loadSettings yaml fs false (some path)).result = .ok {} ∧
        (∃ logger, p.logRecord logger ∈ (loadSettings yaml fs false (some path)).records) ∧
        ∀ e, ¬ Unforeseen yaml fs path e) ∨
      ∃ e, Unforeseen yaml fs path e ∧
        ∀ strict, (loadSettings yaml fs strict (some path)).result = .error e := by
  cases hread : readConfig yaml fs path with
  | error e =>
    by_cases hproblem : ∃ p, e = .problem p
    · obtain ⟨p, rfl⟩ := hproblem
      have hstrict : (loadSettings yaml fs true (some path)).result = .error (.problem p) := by
        rw [loadSettings, loadConfig, hread]
        rfl
      obtain ⟨hlenient, hlogged⟩ := loadSettings_false_of_problem hread
      refine .inr (.inl ⟨p, hstrict, hlenient, ⟨_, hlogged⟩, fun e h => ?_⟩)
      exact h.ne_problem p (Except.error.inj (h.eq_of_readConfig hread)).symm
    · have hunforeseen : Unforeseen yaml fs path e :=
        readConfig_eq_error_iff.mp ⟨hread, fun p hp => hproblem ⟨p, hp⟩⟩
      exact .inr (.inr ⟨e, hunforeseen, loadSettings_of_unforeseen hunforeseen⟩)
  | ok entries =>
    -- the file was read, so nothing is left that could fail unforeseen
    have hforeseen : ∀ e, ¬ Unforeseen yaml fs path e := fun e h => by
      cases h.eq_of_readConfig hread
    have hsettle := loadSettings_of_readConfig hread
    cases hsettings : Settings.ofEntries entries with
    | ok s =>
      refine .inl ⟨s, fun strict => ?_, hforeseen⟩
      rw [hsettle, settleEntries, hsettings]
    | error cause =>
      refine .inr (.inl ⟨.settings path cause, ?_, ?_, ⟨"extraction.config", ?_⟩, hforeseen⟩)
      · rw [hsettle, settleEntries, hsettings]
        rfl
      · rw [hsettle, settleEntries, hsettings]
        rfl
      · rw [hsettle, settleEntries, hsettings]
        exact List.mem_singleton_self _

/-- **Lenient mode, by strict mode.** What strict mode accepts, lenient mode takes as it is. What strict
mode refuses with a problem gives the default settings, and the problem is in the log. What fails
otherwise is unforeseen, and is the same in both modes. -/
theorem loadSettings_lenient (yaml : YamlReader) (fs : FileSystem) (path : Option Text) :
    (∀ s, (loadSettings yaml fs true path).result = .ok s →
        (loadSettings yaml fs false path).result = .ok s) ∧
      (∀ p, (loadSettings yaml fs true path).result = .error (.problem p) →
        (loadSettings yaml fs false path).result = .ok {} ∧
          ∃ logger, p.logRecord logger ∈ (loadSettings yaml fs false path).records) ∧
      (∀ e, (loadSettings yaml fs false path).result = .error e ↔
        (loadSettings yaml fs true path).result = .error e ∧ ∀ p, e ≠ .problem p) ∧
      (∀ e, (loadSettings yaml fs false path).result = .error e ↔
        ∃ file, path = some file ∧ Unforeseen yaml fs file e) := by
  cases path with
  | none => simp [loadSettings]
  | some file =>
    rcases loadSettings_cases yaml fs file with
      ⟨s, hboth, hforeseen⟩ | ⟨p, hstrict, hlenient, hlogged, hforeseen⟩ | ⟨e, hunforeseen, hboth⟩
    · simp [hboth, hforeseen]
    -- strict mode refuses: of the four parts, only the second has anything to say
    · rw [hstrict, hlenient]
      refine ⟨fun s h => ?_, fun q h => ?_, fun e => ?_, fun e => ?_⟩
      · cases h
      · cases h
        exact ⟨rfl, hlogged⟩
      · simp only [reduceCtorEq, false_iff, not_and]
        rintro ⟨⟩ h
        exact h p rfl
      · simp [hforeseen]
    · rw [hboth, hboth]
      refine ⟨fun s h => ?_, fun q h => ?_, fun e' => ?_, fun e' => ?_⟩
      · cases h
      · exact absurd (Except.error.inj h) (hunforeseen.ne_problem q)
      · refine ⟨fun h => ⟨h, ?_⟩, And.left⟩
        exact Except.error.inj h ▸ hunforeseen.ne_problem
      · constructor
        · rintro ⟨⟩
          exact ⟨file, rfl, hunforeseen⟩
        · rintro ⟨_, ⟨⟩, h⟩
          rw [← hboth true, loadSettings_of_unforeseen h]

/-- A reader that takes no text for YAML. -/
def noYaml : YamlReader :=
  fun _ => .error (.malformed "")

/-- One file, named `c.json`. -/
def configOnly (bytes : Utf8.Bytes) : FileSystem :=
  { entries := [("c.json", .file bytes)] }

theorem readFile_configOnly (bytes : Utf8.Bytes) :
    (configOnly bytes).readFile (Path.collapse "/c.json") = .ok bytes := by
  have hcollapse : Path.collapse "/c.json" = "/c.json" := by decide +kernel
  have hpieces : Path.pieces (Path.append "/" "/c.json") = [("" : Text), "c.json"] := by decide +kernel
  have hentry : (configOnly bytes).entry "/c.json" = .ok (.file bytes) := by
    simp [FileSystem.entry, FileSystem.locate, configOnly, hpieces, locateFrom, Trail.here,
      Trail.components, Entries.get?, bind, Except.bind]
  rw [hcollapse, FileSystem.readFile, FileSystem.read, hentry]
  rfl

theorem pathFault?_configOnly : pathFault? (Path.collapse "/c.json") = none := by
  decide +kernel

/-- A list is no map: strict mode refuses it. -/
theorem loadSettings_strict_of_list (yaml : YamlReader) :
    (loadSettings yaml (configOnly [0x5b, 0x5d]) true (some "/c.json")).result =
      .error (.problem (.payload "list")) := by
  have hread : readConfig yaml (configOnly [0x5b, 0x5d]) "/c.json" =
      .error (.problem (.payload "list")) := by
    have htext : readConfigText (configOnly [0x5b, 0x5d]) "/c.json" = .ok "[]" := by
      have hdecode : Utf8.decode [0x5b, 0x5d] = .ok "[]" := Utf8.decode_eq_ok_iff.mpr (by decide)
      simp only [readConfigText, pathFault?_configOnly, readFile_configOnly, hdecode]
      decide +kernel
    have hparse : parseConfig yaml "/c.json" "[]" = .ok (.list []) := by
      have hsuffix : isJsonPath "/c.json" = true := by decide +kernel
      have hvalue : Json.read "[]" = .ok (.list []) := by cbv
      rw [parseConfig, hsuffix, if_pos rfl, parseJson, hvalue]
    simp only [readConfig, htext, hparse, bind, Except.bind]
    rfl
  rw [loadSettings, loadConfig, hread]
  rfl

/-- What strict mode refuses is no settings at all for lenient mode. -/
theorem loadSettings_lenient_of_list :
    (loadSettings noYaml (configOnly [0x5b, 0x5d]) true (some "/c.json")).result =
        .error (.problem (.payload "list")) ∧
      (loadSettings noYaml (configOnly [0x5b, 0x5d]) false (some "/c.json")).result = .ok {} :=
  ⟨loadSettings_strict_of_list noYaml,
    ((loadSettings_lenient noYaml _ _).2.1 _ (loadSettings_strict_of_list noYaml)).1⟩

/-- A byte that is no text. -/
theorem unforeseen_of_undecodable (yaml : YamlReader) :
    Unforeseen yaml (configOnly [0xff]) "/c.json" (.undecodable ⟨0, [0xff], .invalidStart⟩) := by
  refine .undecodable pathFault?_configOnly (readFile_configOnly _) ?_
  simp [Utf8.decode, Utf8.chunks, Utf8.first, Utf8.lead?, Utf8.decodeChunks, Except.map]

/-- A byte that is no text stops lenient mode. -/
theorem loadSettings_false_of_undecodable :
    ¬ ∃ s, (loadSettings noYaml (configOnly [0xff]) false (some "/c.json")).result = .ok s := by
  rintro ⟨s, hs⟩
  cases (loadSettings_of_unforeseen (unforeseen_of_undecodable noYaml) false).symm.trans hs

end Gleaner
