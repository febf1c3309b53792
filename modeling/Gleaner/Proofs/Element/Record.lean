import Gleaner.Element.Record
import Gleaner.Proofs.Json.RoundTrip
import Gleaner.Proofs.Json.Writable

/-!
# Elements from their records

A record has its fields under distinct names, and an absent field has no name in it. So the fields can be
looked up again, and an element is given back by its record: what is absent stays absent, and what is
empty stays empty.

## Main definitions

* `Element.ofValue?`: the element of a record
* `Element.ShortLines`: the numbers of the lines have not too many digits
* `Element.Sound`: the texts have no surrogates

## Main results

* `Element.ofValue?_toValue`: an element is given back by its record
* `Element.plain_toValue`: the record of an element is read back as it was written
* `Element.unwritable_toValue_iff`: a line number that is too long keeps a record from being written
* `Element.broken_toValue_iff`: a surrogate gets into the record
-/

namespace Gleaner

open Gleaner.Json (record Plain Unwritable Broken)

/-! ## Looking fields up -/

/-- The text under a name. -/
def textField? (name : String) (entries : List (Value × Value)) : Option Text :=
  match Value.lookup? name entries with
  | some (.text s) => some s
  | _ => none

/-- The integer under a name. -/
def intField? (name : String) (entries : List (Value × Value)) : Option Int :=
  match Value.lookup? name entries with
  | some (.int n) => some n
  | _ => none

/-- The context that a map describes. -/
def Context.ofValue? : Value → Option (Context Text)
  | .map entries => do
    return {
      filePath := ← textField? "file_path" entries
      fileName := ← textField? "file_name" entries
      snippet := ← textField? "snippet" entries
      package := textField? "module" entries
      enclosingType := textField? "enclosing_type_name" entries }
  | _ => none

/-- The element that a map describes. -/
def Element.ofValue? : Value → Option (Element Text)
  | .map entries => do
    return {
      name := ← textField? "name" entries
      kind := ← ElementKind.ofName? (← textField? "kind" entries)
      declarationLine := ← intField? "declaration_line" entries
      startLine := ← intField? "start_line" entries
      endLine := ← intField? "end_line" entries
      context := ← Context.ofValue? (← Value.lookup? "context" entries)
      signature := textField? "signature" entries
      documentation := textField? "documentation" entries }
  | _ => none

theorem ElementKind.ofName?_name (kind : ElementKind) : ElementKind.ofName? kind.name = some kind := by
  cases kind <;> decide

/-- The fields of a context. -/
def Context.fields (c : Context Text) : List (String × Value) :=
  [("file_path", .text c.filePath), ("file_name", .text c.fileName), ("snippet", .text c.snippet)]
    ++ c.package.toList.map (fun s => ("module", .text s))
    ++ c.enclosingType.toList.map (fun s => ("enclosing_type_name", .text s))

/-- The fields of an element. -/
def Element.fields (e : Element Text) : List (String × Value) :=
  [("name", .text e.name), ("kind", .text e.kind.name)]
    ++ e.signature.toList.map (fun s => ("signature", .text s))
    ++ e.documentation.toList.map (fun s => ("documentation", .text s))
    ++ [("declaration_line", .int e.declarationLine), ("start_line", .int e.startLine),
      ("end_line", .int e.endLine), ("context", .map (record e.context.fields))]

theorem optionalField_eq (name : String) (value : Option Text) :
    optionalField name value = record (value.toList.map fun s => (name, .text s)) := by
  cases value <;> rfl

theorem Context.entries_eq (c : Context Text) : c.entries = record c.fields := by
  simp [Context.entries, Context.fields, requiredField, optionalField_eq, record]

theorem Element.entries_eq (e : Element Text) : e.entries = record e.fields := by
  simp [Element.entries, Element.fields, requiredField, optionalField_eq, record, Context.entries_eq]

theorem Context.ofValue?_map_record (c : Context Text) :
    Context.ofValue? (.map (record c.fields)) = some c := by
  rcases c with ⟨_, _, _, _ | _, _ | _⟩ <;>
    simp [Context.ofValue?, Context.fields, textField?, Json.lookup?_record]

/-- **An element is given back by its record.** -/
theorem Element.ofValue?_toValue (e : Element Text) : Element.ofValue? e.toValue = some e := by
  rw [Element.toValue, Element.entries_eq]
  rcases e with ⟨_, _, _, _, _, _, _ | _, _ | _⟩ <;>
    simp [Element.ofValue?, Element.fields, textField?, intField?, Json.lookup?_record,
      ElementKind.ofName?_name, Context.ofValue?_map_record]

/-- A list of elements is given back by the list of their records. -/
theorem Element.mapM_ofValue?_toValue (elements : List (Element Text)) :
    (elements.map Element.toValue).mapM Element.ofValue? = some elements := by
  induction elements with
  | nil => rfl
  | cons e elements ih => simp [Element.ofValue?_toValue, ih]

/-! ## Reading records back -/

/-- The names in a record are some of those that a record can have, in their order. -/
theorem Context.nodup_fields (c : Context Text) : (c.fields.map Prod.fst).Nodup := by
  rcases c with ⟨_, _, _, _ | _, _ | _⟩ <;> simp [Context.fields]

theorem Element.nodup_fields (e : Element Text) : (e.fields.map Prod.fst).Nodup := by
  rcases e with ⟨_, _, _, _, _, _, _ | _, _ | _⟩ <;> simp [Element.fields]

/-- The texts of a context. -/
def Context.allTexts (c : Context Text) : List Text :=
  [c.filePath, c.fileName, c.snippet] ++ c.package.toList ++ c.enclosingType.toList

/-- The texts of an element. -/
def Element.allTexts (e : Element Text) : List Text :=
  [e.name] ++ e.signature.toList ++ e.documentation.toList ++ e.context.allTexts

/-- The texts of an element have no surrogates. -/
def Element.Sound (e : Element Text) : Prop :=
  ∀ s ∈ e.allTexts, ¬ s.HasSurrogate

/-- A text without surrogates is plain. -/
theorem plain_text_of_not {s : Text} (h : ¬ s.HasSurrogate) (depth : ℕ) : Plain depth (.text s) := by
  obtain ⟨a, rfl⟩ := Text.exists_eq_ofString_iff.mpr h
  exact .text depth a

theorem Context.plain_map {c : Context Text} (h : ∀ s ∈ c.allTexts, ¬ s.HasSurrogate) (depth : ℕ) :
    Plain (depth + 1) (.map (record c.fields)) := by
  refine .map c.nodup_fields fun f hf => ?_
  obtain ⟨s, hmem, hs⟩ : ∃ s ∈ c.allTexts, f.2 = .text s := by
    simp only [Context.fields, List.mem_append, List.mem_cons, List.not_mem_nil, or_false,
      List.mem_map] at hf
    rcases hf with ((rfl | rfl | rfl) | ⟨s, hs, rfl⟩) | ⟨s, hs, rfl⟩ <;>
      exact ⟨_, by simp_all [Context.allTexts], rfl⟩
  rw [hs]
  exact plain_text_of_not (h s hmem) depth

/-- The value of a field: a text, the number of a line, or the context. -/
theorem Element.mem_fields {e : Element Text} {f : String × Value} (h : f ∈ e.fields) :
    (∃ s ∈ (e.kind.name : Text) :: e.allTexts, f.2 = .text s) ∨
      (∃ n ∈ [e.declarationLine, e.startLine, e.endLine], f.2 = .int n) ∨
      f.2 = .map (record e.context.fields) := by
  simp only [Element.fields, List.mem_append, List.mem_cons, List.not_mem_nil, or_false,
    List.mem_map] at h
  rcases h with (((rfl | rfl) | ⟨s, hs, rfl⟩) | ⟨s, hs, rfl⟩) | (rfl | rfl | rfl | rfl)
  · exact .inl ⟨_, by simp [Element.allTexts], rfl⟩
  · exact .inl ⟨_, by simp, rfl⟩
  · exact .inl ⟨s, by simp_all [Element.allTexts], rfl⟩
  · exact .inl ⟨s, by simp_all [Element.allTexts], rfl⟩
  · exact .inr (.inl ⟨_, by simp, rfl⟩)
  · exact .inr (.inl ⟨_, by simp, rfl⟩)
  · exact .inr (.inl ⟨_, by simp, rfl⟩)
  · exact .inr (.inr rfl)

/-- The numbers of the lines have not too many digits. -/
def Element.ShortLines (e : Element Text) : Prop :=
  ∀ n ∈ [e.declarationLine, e.startLine, e.endLine], n.natAbs < 10 ^ maxDigits

/-- **The record of an element is plain** if its line numbers are short and its texts have no surrogates. -/
theorem Element.plain_toValue {e : Element Text} (h : e.ShortLines) (hsound : e.Sound) (depth : ℕ) :
    Plain (depth + 2) e.toValue := by
  rw [Element.toValue, Element.entries_eq]
  refine .map e.nodup_fields fun f hf => ?_
  rcases e.mem_fields hf with ⟨s, hmem, hs⟩ | ⟨n, hn, hs⟩ | hs
  · rw [hs]
    refine plain_text_of_not ?_ _
    rcases List.mem_cons.mp hmem with rfl | hmem
    · exact Text.not_hasSurrogate_ofString _
    · exact hsound s hmem
  · rw [hs]
    exact .int _ (h n hn)
  · rw [hs]
    exact Context.plain_map (fun s hmem => hsound s (List.mem_append_right _ hmem)) depth

/-! ## Records that cannot be written -/

/-- Under string keys, only the values of a record can keep it from being written. -/
theorem unwritable_map_record {fields : List (String × Value)} :
    Unwritable (.map (record fields)) ↔ ∃ f ∈ fields, Unwritable f.2 := by
  simp only [Json.unwritable_map_iff, record, List.mem_map, exists_exists_and_eq_and, Json.IsKey,
    not_true_eq_false, false_or]

theorem Context.not_unwritable_map (c : Context Text) : ¬ Unwritable (.map (record c.fields)) := by
  rw [unwritable_map_record]
  rcases c with ⟨_, _, _, _ | _, _ | _⟩ <;> simp [Context.fields]

/-- **A line number that is too long keeps a record from being written**, and nothing else does. -/
theorem Element.unwritable_toValue_iff (e : Element Text) : Unwritable e.toValue ↔ ¬ e.ShortLines := by
  have hlong : ¬ e.ShortLines ↔ ∃ n ∈ [e.declarationLine, e.startLine, e.endLine],
      10 ^ maxDigits ≤ n.natAbs := by
    simp only [Element.ShortLines, not_forall, exists_prop, Nat.not_lt]
  rw [hlong, Element.toValue, Element.entries_eq, unwritable_map_record]
  rcases e with ⟨_, _, _, _, _, _, _ | _, _ | _⟩ <;>
    simp [Element.fields, Context.not_unwritable_map]

/-! ## Surrogates in records -/

/-- Under string keys, only the values of a record can have surrogates. -/
theorem broken_map_record {fields : List (String × Value)} :
    Broken (.map (record fields)) ↔ ∃ f ∈ fields, Broken f.2 := by
  simp only [Json.broken_map_iff, record, List.mem_map, exists_exists_and_eq_and, Value.text.injEq,
    exists_eq_left', Text.not_hasSurrogate_ofString, false_or]

theorem Context.broken_map_iff (c : Context Text) :
    Broken (.map (record c.fields)) ↔ ∃ s ∈ c.allTexts, s.HasSurrogate := by
  rw [broken_map_record]
  rcases c with ⟨_, _, _, _ | _, _ | _⟩ <;> simp [Context.fields, Context.allTexts]

/-- **A surrogate gets into the record** of an element, and nothing else brings one there. -/
theorem Element.broken_toValue_iff (e : Element Text) : Broken e.toValue ↔ ¬ e.Sound := by
  have htexts : ¬ e.Sound ↔ ∃ s ∈ e.allTexts, s.HasSurrogate := by
    simp [Element.Sound]
  rw [htexts, Element.toValue, Element.entries_eq, broken_map_record]
  rcases e with ⟨_, _, _, _, _, _, _ | _, _ | _⟩ <;>
    simp [Element.fields, Element.allTexts, Context.broken_map_iff]

end Gleaner
