import Gleaner.Settings.Load
import Gleaner.Proofs.Artifact.Attempt
import Gleaner.Proofs.Element.Record

/-!
# The element file

The elements of a run are written as one JSON array, and the file gives them back one by one. So two
lists of elements never give the same file. What cannot be encoded is found out before anything is
written; then the file system is left as it was.

A text with a surrogate is another matter. It is encoded, since a surrogate can stand between quotes, and
only then it turns out that the array has no bytes. By then the file is open: whatever it held is gone, and
nothing is written in its place.

## Main definitions

* `elementsOf?`: the elements that a file holds

## Main results

* `elementText_toValue`: elements have a text, and it is read back
* `elementText_eq_error_iff`, `hasSurrogate_elementText_iff`: which items have none, and whose text is no
  string
* `writeElements_of_unwritable`, `writeElements_of_sound`, `writeElements_of_broken`: the three ways a list
  can go
* `writeElements_faithful`: what is written, and what is not
-/

namespace Gleaner

open Gleaner.Utf8 (Bytes)
open Gleaner.Json (Plain Unwritable Broken)

variable {fs : FileSystem} {path : Text} {payload : Value} {items : List Value}

/-- The elements that the bytes of a file give: decoded, read, and each taken from its record. -/
def elementsOf? (bytes : Bytes) : Option (List (Element Text)) :=
  match Utf8.decode bytes with
  | .error _ => none
  | .ok text =>
    match Json.read text with
    | .ok (.list items) => items.mapM Element.ofValue?
    | _ => none

/-- Line ends that are uniform stay as they are. -/
theorem withLineFeeds_of_notMem {cs : List Char} (h : '\r' ∉ cs) : withLineFeeds cs = cs := by
  fun_induction withLineFeeds cs with
  | case1 => rfl
  | case2 rest ih => simp at h
  | case3 c rest _ ih =>
    rw [List.mem_cons, not_or] at h
    rw [if_neg (Ne.symm h.1), ih h.2]

/-! ## The text of elements -/

theorem plain_elements {elements : List (Element Text)} (h : ∀ e ∈ elements, e.ShortLines ∧ e.Sound) :
    Plain Json.maxDepth (.list (elements.map Element.toValue)) := by
  -- a list of maps, with one map in each
  change Plain (982 + 2 + 1) _
  refine .list fun v hv => ?_
  obtain ⟨e, he, rfl⟩ := List.mem_map.mp hv
  exact Element.plain_toValue (h e he).1 (h e he).2 982

/-- **Elements have a text, and it is read back** as the list of their records. -/
theorem elementText_toValue {elements : List (Element Text)}
    (h : ∀ e ∈ elements, e.ShortLines ∧ e.Sound) :
    ∃ text : String, elementText (elements.map Element.toValue) = .ok text ∧ '\r' ∉ text.toList ∧
      Json.read text = .ok (.list (elements.map Element.toValue)) := by
  have hstyle : elementStyle.sorted = false := rfl
  obtain ⟨text, hencode, hclean, hread⟩ := (plain_elements h).read_encode hstyle
  refine ⟨String.ofList (text ++ ['\n']), ?_, by simp [hclean], hread ['\n'] (.lineFeed []) rfl⟩
  rw [elementText, hencode, String.ofList_append, Text.ofString_append]
  rfl

/-- Items have no text exactly if one of them cannot be written. -/
theorem elementText_eq_error_iff :
    (∃ e, elementText items = .error e) ↔ ∃ v ∈ items, Unwritable v := by
  have herror : (∃ e, elementText items = .error e) ↔
      ∃ e, Json.encode elementStyle (.list items) = .error e := by
    unfold elementText
    cases Json.encode elementStyle (.list items) <;> simp [Except.map]
  rw [herror, Json.encode_eq_error_iff rfl]
  constructor
  · intro h
    cases h with
    | list hmem hinner => exact ⟨_, hmem, hinner⟩
  · rintro ⟨v, hv, hinner⟩
    exact .list hv hinner

theorem exists_elementText (h : ∀ v ∈ items, ¬ Unwritable v) : ∃ text, elementText items = .ok text := by
  cases htext : elementText items with
  | ok text => exact ⟨text, rfl⟩
  | error e =>
    obtain ⟨v, hv, hunwritable⟩ := elementText_eq_error_iff.mp ⟨e, htext⟩
    exact absurd hunwritable (h v hv)

/-- The text of items is no string exactly if one of them is broken. -/
theorem hasSurrogate_elementText_iff {text : Text} (h : elementText items = .ok text) :
    text.HasSurrogate ↔ ∃ v ∈ items, Broken v := by
  cases hencode : Json.encode elementStyle (.list items) with
  | error e =>
    rw [elementText, hencode] at h
    cases h
  | ok whole =>
    rw [elementText, hencode] at h
    cases h
    rw [Text.hasSurrogate_append, Json.hasSurrogate_encode_iff rfl rfl hencode]
    constructor
    · rintro (hbroken | hend)
      · cases hbroken with
        | list hmem hinner => exact ⟨_, hmem, hinner⟩
      · exact absurd hend (Text.not_hasSurrogate_ofString "\n")
    · rintro ⟨v, hv, hinner⟩
      exact .inl (.list hv hinner)

/-- Elements whose text is a string have short line numbers, and texts without surrogates. -/
theorem sound_of_elementText {elements : List (Element Text)} {text : String}
    (h : elementText (elements.map Element.toValue) = .ok text) :
    ∀ e ∈ elements, e.ShortLines ∧ e.Sound := by
  intro e he
  constructor
  · by_contra hlong
    obtain ⟨cause, hcause⟩ := elementText_eq_error_iff.mpr
      ⟨e.toValue, List.mem_map_of_mem he, e.unwritable_toValue_iff.mpr hlong⟩
    rw [h] at hcause
    cases hcause
  · by_contra hbroken
    refine Text.not_hasSurrogate_ofString text ((hasSurrogate_elementText_iff h).mpr ?_)
    exact ⟨e.toValue, List.mem_map_of_mem he, e.broken_toValue_iff.mpr hbroken⟩

theorem elementsOf?_of_elementText {elements : List (Element Text)} {text : String}
    (h : elementText (elements.map Element.toValue) = .ok text) :
    elementsOf? (Utf8.encode text) = some elements := by
  obtain ⟨text', htext', -, hread⟩ := elementText_toValue (sound_of_elementText h)
  obtain rfl : text = text' := Text.ofString_inj.mp (Except.ok.inj (h.symm.trans htext'))
  have hdecode : Utf8.decode (Utf8.encode text) = .ok text := Utf8.decode_eq_ok_iff.mpr rfl
  simp only [elementsOf?, hdecode, hread, Element.mapM_ofValue?_toValue]

/-! ## The file -/

/-- **What cannot be encoded is refused**, and nothing changes. -/
theorem writeElements_of_unwritable (hitems : payload.items = .ok items)
    (h : ∃ v ∈ items, Unwritable v) :
    ∃ cause, writeElements fs payload path = ⟨.error (.encoding cause), fs⟩ := by
  obtain ⟨cause, hcause⟩ := elementText_eq_error_iff.mpr h
  exact ⟨cause, writeElements_of_encoding hitems hcause⟩

/-- The file at a path holds these bytes if it can be written at all; where it cannot, no file is
touched. -/
def Stores (fs : FileSystem) (path : Text) (bytes : Bytes) (after : FileSystem) : Prop :=
  (Openable fs path → after.read path = .ok bytes) ∧ (¬ Openable fs path → fs.Grows [] after)

theorem writeFresh_stores (fs : FileSystem) (path : Text) (bytes : Bytes) :
    Stores fs path bytes (writeFresh fs path bytes).fs := by
  refine ⟨fun h => h.read, fun h => ?_⟩
  obtain ⟨-, -, hgrows⟩ := grows_of_not_openable h bytes
  exact hgrows

/-- **Texts without surrogates are written** as the content of the file. -/
theorem writeElements_of_sound (hitems : payload.items = .ok items)
    (hwritable : ∀ v ∈ items, ¬ Unwritable v) (hsound : ∀ v ∈ items, ¬ Broken v) :
    ∃ text : String, elementText items = .ok text ∧
      ((writeElements fs payload path).result = .ok items.length ↔ Openable fs path) ∧
      Stores fs path (Utf8.encode text) (writeElements fs payload path).fs := by
  obtain ⟨text, htext⟩ := exists_elementText hwritable
  obtain ⟨string, rfl⟩ : ∃ string : String, text = string := by
    rw [Text.exists_eq_ofString_iff, hasSurrogate_elementText_iff htext]
    rintro ⟨v, hv, hbroken⟩
    exact hsound v hv hbroken
  have hopens : (writeFresh fs path (Utf8.encode string)).result = .ok () ↔ Openable fs path :=
    result_writeFresh_iff
  refine ⟨string, htext, ?_, ?_⟩
  · rw [writeElements_of_string hitems htext, ← hopens, Written.as]
    cases (writeFresh fs path (Utf8.encode string)).result <;> simp [Except.map]
  · rw [writeElements_of_string hitems htext, Written.fs_as]
    exact writeFresh_stores ..

/-- **A surrogate leaves the file empty**, and the writer fails, wherever the file can be written. -/
theorem writeElements_of_broken (hitems : payload.items = .ok items)
    (hwritable : ∀ v ∈ items, ¬ Unwritable v) (hbroken : ∃ v ∈ items, Broken v) :
    (∃ e, (writeElements fs payload path).result = .error e ∧
        (Openable fs path → ∃ cause, e = .unencodable cause)) ∧
      Stores fs path [] (writeElements fs payload path).fs := by
  obtain ⟨text, htext⟩ := exists_elementText hwritable
  obtain ⟨cause, hwrite⟩ : ∃ cause, writeElements fs payload path =
      (writeFresh fs path []).thenFails (.unencodable cause) :=
    writeElements_of_surrogate hitems htext ((hasSurrogate_elementText_iff htext).mpr hbroken)
  rw [hwrite, Written.fs_thenFails]
  refine ⟨?_, writeFresh_stores ..⟩
  by_cases hopen : Openable fs path
  · exact ⟨.unencodable cause, by simp [Written.thenFails, result_writeFresh_iff.mpr hopen, Except.bind],
      fun _ => ⟨cause, rfl⟩⟩
  · obtain ⟨e, hresult, -⟩ := grows_of_not_openable hopen []
    exact ⟨.access e, by simp [Written.thenFails, hresult, Except.bind], fun h => absurd h hopen⟩

/-- **The element file.** Whatever cannot be encoded is refused, and nothing changes. What can be encoded
and has no surrogates is written as the content of the file, wherever a file can be written there. What has
a surrogate leaves the file empty, and the writer fails.

Elements are encoded unless the number of one of their lines is too long. Those without surrogates have a
text from which they are read back, in order and exactly, and different ones never give the same text. -/
theorem writeElements_faithful (fs : FileSystem) (path : Text) :
    (∀ (payload : Value) (items : List Value), payload.items = .ok items →
      ((∃ v ∈ items, Unwritable v) →
        ∃ cause, writeElements fs payload path = ⟨.error (.encoding cause), fs⟩) ∧
      ((∀ v ∈ items, ¬ Unwritable v) → (∀ v ∈ items, ¬ Broken v) →
        ∃ text : String, elementText items = .ok text ∧
          ((writeElements fs payload path).result = .ok items.length ↔ Openable fs path) ∧
          Stores fs path (Utf8.encode text) (writeElements fs payload path).fs) ∧
      ((∀ v ∈ items, ¬ Unwritable v) → (∃ v ∈ items, Broken v) →
        (∃ e, (writeElements fs payload path).result = .error e ∧
            (Openable fs path → ∃ cause, e = .unencodable cause)) ∧
          Stores fs path [] (writeElements fs payload path).fs)) ∧
    (∀ e : Element Text, (¬ e.ShortLines ↔ Unwritable e.toValue) ∧ (¬ e.Sound ↔ Broken e.toValue)) ∧
    (∀ elements : List (Element Text), (∀ e ∈ elements, e.ShortLines ∧ e.Sound) →
      ∃ text : String, elementText (elements.map Element.toValue) = .ok text ∧
        withLineFeeds text.toList = text.toList ∧
        Json.read text = .ok (.list (elements.map Element.toValue)) ∧
        elementsOf? (Utf8.encode text) = some elements) ∧
    ∀ (elements others : List (Element Text)) (text : String),
      elementText (elements.map Element.toValue) = .ok text →
      elementText (others.map Element.toValue) = .ok text → elements = others := by
  refine ⟨fun payload items hitems => ⟨writeElements_of_unwritable hitems,
    writeElements_of_sound hitems, writeElements_of_broken hitems⟩, fun e => ⟨?_, ?_⟩,
    fun elements hsound => ?_, fun elements others text h h' => ?_⟩
  · exact e.unwritable_toValue_iff.symm
  · exact e.broken_toValue_iff.symm
  · obtain ⟨text, htext, hclean, hread⟩ := elementText_toValue hsound
    exact ⟨text, htext, withLineFeeds_of_notMem hclean, hread, elementsOf?_of_elementText htext⟩
  · -- a text gives its elements back, so that it is the text of one list only
    have hsame := (elementsOf?_of_elementText h).symm.trans (elementsOf?_of_elementText h')
    exact Option.some.inj hsame

/-- An element with quotes, controls and a character beyond the first plane in it, without a signature,
and with documentation that is empty. -/
def markedElement : Element Text where
  name := "a\"\\\x01\n"
  kind := .method
  declarationLine := 2
  startLine := 1
  endLine := 3
  context := { filePath := "A.java", fileName := "A.java", snippet := "\r\n😀", package := some "" }
  documentation := some ""

theorem shortLines_of_lt {e : Element Text}
    (h : ∀ n ∈ [e.declarationLine, e.startLine, e.endLine], n.natAbs < 10) : e.ShortLines := by
  intro n hn
  exact (h n hn).trans_le (Nat.le_self_pow (by decide) 10)

theorem markedElement_sound : markedElement.ShortLines ∧ markedElement.Sound := by
  refine ⟨shortLines_of_lt (by decide), fun s hs => ?_⟩
  simp only [markedElement, Element.allTexts, Context.allTexts, Option.toList_some, Option.toList_none,
    List.cons_append, List.nil_append, List.mem_cons, List.not_mem_nil, or_false] at hs
  rcases hs with rfl | rfl | rfl | rfl | rfl | rfl <;> exact Text.not_hasSurrogate_ofString _

/-- A file with a name of its own can be written into a root that is empty. -/
theorem openable_marked : Openable {} "/o.json" :=
  openable_root "o.json" rfl (by decide) (by decide) (by decide +kernel) (by decide +kernel) (by decide)
    (.inl rfl)

/-- It is written, and comes back as it was; and a list with bytes in it is refused. -/
theorem writeElements_faithful_of_marked :
    (∀ e ∈ [markedElement], e.ShortLines ∧ e.Sound) ∧
      (writeElements {} (.list [markedElement.toValue]) "/o.json").result = .ok 1 ∧
      (∃ bytes, (writeElements {} (.list [markedElement.toValue]) "/o.json").fs.read "/o.json" =
          .ok bytes ∧ elementsOf? bytes = some [markedElement]) ∧
      Unwritable (.list [.text "a", .bytes []]) ∧
      ∃ cause, writeElements {} (.list [.list [.text "a", .bytes []]]) "/o.json" =
        ⟨.error (.encoding cause), {}⟩ := by
  have hsound : ∀ e ∈ [markedElement], e.ShortLines ∧ e.Sound := by
    simpa using markedElement_sound
  have hbytes : Unwritable (.list [.text "a", .bytes []]) := .list (by simp) (.bytes [])
  obtain ⟨hwrites, hparts, hreads, -⟩ := writeElements_faithful {} "/o.json"
  obtain ⟨-, hstored, -⟩ := hwrites (.list [markedElement.toValue]) _ rfl
  obtain ⟨text, htext, hresult, hstores⟩ := hstored
    (by simpa using mt (hparts markedElement).1.mpr (not_not.mpr markedElement_sound.1))
    (by simpa using mt (hparts markedElement).2.mpr (not_not.mpr markedElement_sound.2))
  -- the text that is stored is the one that is read back
  obtain ⟨text', htext', -, -, helements⟩ := hreads [markedElement] hsound
  obtain rfl : text = text' := Text.ofString_inj.mp (Except.ok.inj (htext.symm.trans htext'))
  exact ⟨hsound, hresult.mpr openable_marked, ⟨_, hstores.1 openable_marked, helements⟩, hbytes,
    (hwrites (.list [.list [.text "a", .bytes []]]) _ rfl).1 ⟨_, List.mem_singleton_self _, hbytes⟩⟩

/-- Half a pair, as a text. -/
def loneSurrogate : Text :=
  .ofList [.surrogate ⟨0x4ff, by decide⟩]

/-- An element whose name is half a pair. -/
def halfElement : Element Text where
  name := loneSurrogate
  kind := .method
  declarationLine := 1
  startLine := 1
  endLine := 1
  context := { filePath := "A.java", fileName := "A.java", snippet := "" }

/-- A file system with the output of a run before. -/
def withOutput : FileSystem where
  entries := [("out.json", .file (Utf8.encode "[]\n"))]

/-- **A surrogate costs the output of the run before**: the writer fails, and the file is empty. -/
theorem writeElements_empties :
    withOutput.read "/out.json" = .ok (Utf8.encode "[]\n") ∧
      (∃ cause, (writeElements withOutput (.list [halfElement.toValue]) "/out.json").result =
        .error (.unencodable cause)) ∧
      (writeElements withOutput (.list [halfElement.toValue]) "/out.json").fs.read "/out.json" =
        .ok [] := by
  have hpieces : Path.pieces (Path.append "/" "/out.json") = (["", "out.json"] : List Text) := by
    decide +kernel
  have hread : withOutput.read "/out.json" = .ok (Utf8.encode "[]\n") := by
    simp [FileSystem.read, FileSystem.entry, FileSystem.locate, withOutput, Text.isEmpty, hpieces,
      locateFrom, Trail.here, Trail.components, Entries.get?, bind, Except.bind]
  have hopen : Openable withOutput "/out.json" :=
    openable_root "out.json" rfl (by decide) (by decide) hpieces (by decide +kernel) (by decide)
      (.inr ⟨_, rfl⟩)
  -- what is wrong with the element is the surrogate, and nothing else
  have hshort : halfElement.ShortLines := shortLines_of_lt (by decide)
  have hbroken : ¬ halfElement.Sound :=
    fun h => h halfElement.name (by simp [Element.allTexts]) ⟨0x4ff, by simp [halfElement, loneSurrogate]⟩
  have hitems : (Value.list [halfElement.toValue]).items = .ok [halfElement.toValue] := rfl
  obtain ⟨⟨e, hresult, he⟩, hstores⟩ := @writeElements_of_broken withOutput "/out.json" _ _ hitems
    (by simpa using mt halfElement.unwritable_toValue_iff.mp (not_not.mpr hshort))
    ⟨_, List.mem_singleton_self _, halfElement.broken_toValue_iff.mpr hbroken⟩
  obtain ⟨cause, rfl⟩ := he hopen
  exact ⟨hread, ⟨cause, hresult⟩, hstores.1 hopen⟩

end Gleaner
