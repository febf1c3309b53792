import Gleaner.Proofs.Json.Number
import Gleaner.Proofs.Text.Utf8

/-!
# What cannot be written

A value has no written form if somewhere in it there is something JSON has no form for: bytes, a date, a
set, an integer of too many digits, or a key that is neither a text nor a scalar. Where keys are not
sorted, nothing else makes writing fail.

A text with a surrogate does have a written form: the surrogate stands there as it is, if it is not to be
escaped. But the form is then no string, and has no bytes.

## Main definitions

* `IsKey`: the keys that have a written form
* `Unwritable`: a value with something in it that cannot be written, and the way to it
* `Broken`: a value with a surrogate in it, and the way to it

## Main results

* `induction_inner`: induction on values
* `failure_write_ne_none_iff`: writing fails exactly on unwritable values
* `encode_eq_error_iff`: the same for whole texts
* `hasSurrogate_encode_iff`: a written form has a surrogate exactly if the value is broken
-/

namespace Gleaner.Json

variable {style : Style} {level : ℕ} {v : Value}

/-- The keys that have a written form. -/
def IsKey : Value → Prop
  | .null | .bool _ | .float _ | .text _ => True
  | .int n => n.natAbs < 10 ^ maxDigits
  | _ => False

/-- **A value with something in it that cannot be written.** -/
inductive Unwritable : Value → Prop
  | int {n : Int} (long : 10 ^ maxDigits ≤ n.natAbs) : Unwritable (.int n)
  | bytes (b : Utf8.Bytes) : Unwritable (.bytes b)
  | date (d : Date) : Unwritable (.date d)
  | dateTime (t : DateTime) : Unwritable (.dateTime t)
  | set (items : List Value) : Unwritable (.set items)
  | list {items : List Value} {v : Value} (mem : v ∈ items) (inner : Unwritable v) :
      Unwritable (.list items)
  | tuple {items : List Value} {v : Value} (mem : v ∈ items) (inner : Unwritable v) :
      Unwritable (.tuple items)
  | key {entries : List (Value × Value)} {entry : Value × Value} (mem : entry ∈ entries)
      (key : ¬ IsKey entry.1) : Unwritable (.map entries)
  | value {entries : List (Value × Value)} {entry : Value × Value} (mem : entry ∈ entries)
      (inner : Unwritable entry.2) : Unwritable (.map entries)

@[simp] theorem not_unwritable_text (s : Text) : ¬ Unwritable (.text s) := by
  rintro ⟨⟩

@[simp] theorem unwritable_int_iff {n : Int} : Unwritable (.int n) ↔ 10 ^ maxDigits ≤ n.natAbs :=
  ⟨fun h => by cases h; assumption, .int⟩

theorem unwritable_list_iff {items : List Value} :
    Unwritable (.list items) ↔ ∃ v ∈ items, Unwritable v := by
  constructor
  · rintro ⟨⟩
    exact ⟨_, ‹_›, ‹_›⟩
  · rintro ⟨v, hv, hinner⟩
    exact .list hv hinner

theorem unwritable_tuple_iff {items : List Value} :
    Unwritable (.tuple items) ↔ ∃ v ∈ items, Unwritable v := by
  constructor
  · rintro ⟨⟩
    exact ⟨_, ‹_›, ‹_›⟩
  · rintro ⟨v, hv, hinner⟩
    exact .tuple hv hinner

theorem unwritable_map_iff {entries : List (Value × Value)} :
    Unwritable (.map entries) ↔ ∃ entry ∈ entries, ¬ IsKey entry.1 ∨ Unwritable entry.2 := by
  constructor
  · intro h
    cases h with
    | key hentry hkey => exact ⟨_, hentry, .inl hkey⟩
    | value hentry hinner => exact ⟨_, hentry, .inr hinner⟩
  · rintro ⟨entry, hentry, hkey | hinner⟩
    · exact .key hentry hkey
    · exact .value hentry hinner

/-! ## Values inside values -/

/-- The values right inside a value. -/
def inner : Value → List Value
  | .list items | .tuple items => items
  | .map entries => entries.map Prod.snd
  | _ => []

theorem sizeOf_lt_of_mem_inner {w : Value} (h : w ∈ inner v) : sizeOf w < sizeOf v := by
  cases v with
  | list items | tuple items =>
    have := List.sizeOf_lt_of_mem (show w ∈ items from h)
    simp
    omega
  | map entries =>
    obtain ⟨⟨key, value⟩, hentry, rfl⟩ := List.mem_map.mp h
    have := List.sizeOf_lt_of_mem hentry
    simp at this ⊢
    omega
  | _ => exact absurd h List.not_mem_nil

/-- **Induction on values**, from what is inside them. -/
theorem induction_inner {motive : Value → Prop} (step : ∀ v, (∀ w ∈ inner v, motive w) → motive v)
    (v : Value) : motive v :=
  step v fun w hw =>
    have := sizeOf_lt_of_mem_inner hw
    induction_inner step w
termination_by sizeOf v

/-! ## Where a draft fails -/

theorem Draft.failure_append (a b : Draft) : (a ++ b).failure = a.failure.or b.failure := by
  change (Draft.append a b).failure = _
  unfold Draft.append
  cases h : a.failure <;> simp [h]

theorem Draft.failure_append_eq_none_iff (a b : Draft) :
    (a ++ b).failure = none ↔ a.failure = none ∧ b.failure = none := by
  rw [Draft.failure_append, Option.or_eq_none_iff]

@[simp] theorem Draft.failure_points (text : List CodePoint) : (Draft.points text).failure = none :=
  rfl

@[simp] theorem Draft.failure_done (text : List Char) : (Draft.done text).failure = none :=
  rfl

theorem Draft.failure_ofExcept_eq_none_iff (text : Except WriteError (List Char)) :
    (Draft.ofExcept text).failure = none ↔ ∃ t, text = .ok t := by
  cases text <;> simp [Draft.ofExcept, Draft.failed]

/-! ## Scalars and keys -/

theorem exists_intText_iff (n : Int) : (∃ text, intText n = .ok text) ↔ n.natAbs < 10 ^ maxDigits := by
  rw [intText_eq]
  split_ifs with h <;> simp [h]

theorem exists_keyText_iff (key : Value) : (∃ text, keyText key = .ok text) ↔ IsKey key := by
  cases key with
  | int n =>
    rw [IsKey, ← exists_intText_iff, keyText, scalarText?, Option.getD_some]
    · cases intText n <;> simp [Except.map]
    · simp
  | _ => simp [keyText, scalarText?, IsKey, Except.map]

theorem failure_writeItem (divider : List Char) (v : Value) :
    (writeItem divider v (write style level v)).failure = (write style level v).failure := by
  unfold writeItem
  split
  · next e he => cases v <;> simp_all [scalarText?, write, Draft.ofExcept, Draft.failed]
  · rw [Draft.failure_append, Draft.failure_done, Option.none_or]

theorem failure_writeEntry_eq_none_iff (divider : List Char) (key : Value) (value : Draft) :
    (writeEntry style divider key value).failure = none ↔ IsKey key ∧ value.failure = none := by
  rw [← exists_keyText_iff, writeEntry]
  cases keyText key with
  | error e => simp [Draft.failed]
  | ok text => simp [Draft.failure_append_eq_none_iff]

/-! ## Lists and maps -/

theorem failure_writeItems_eq_none_iff (divider : List Char) (items : List Value) :
    (writeItems level divider (writeAll style level items)).failure = none ↔
      ∀ v ∈ items, (write style level v).failure = none := by
  induction items generalizing divider with
  | nil => simp [writeAll, writeItems]
  | cons v items ih =>
    rw [writeAll, writeItems, Draft.failure_append_eq_none_iff, failure_writeItem, ih,
      List.forall_mem_cons]

theorem failure_writeEntries_eq_none_iff (divider : List Char) (entries : List (Value × Value)) :
    (writeEntries style level divider (writeValues style level entries)).failure = none ↔
      ∀ entry ∈ entries, IsKey entry.1 ∧ (write style level entry.2).failure = none := by
  induction entries generalizing divider with
  | nil => simp [writeValues, writeEntries]
  | cons entry entries ih =>
    rw [writeValues, writeEntries, Draft.failure_append_eq_none_iff, failure_writeEntry_eq_none_iff,
      ih, List.forall_mem_cons]

theorem failure_write_list_eq_none_iff (items : List Value) :
    (write style level (.list items)).failure = none ↔
      ∀ v ∈ items, (write style (level + 1) v).failure = none := by
  cases items with
  | nil => simp [write]
  | cons v items =>
    rw [write, writeList, Draft.failure_append_eq_none_iff, failure_writeItems_eq_none_iff]
    simp

theorem failure_write_tuple_eq_none_iff (items : List Value) :
    (write style level (.tuple items)).failure = none ↔
      ∀ v ∈ items, (write style (level + 1) v).failure = none := by
  rw [← failure_write_list_eq_none_iff]
  cases items <;> simp [write]

theorem failure_write_map_eq_none_iff (hstyle : style.sorted = false) (entries : List (Value × Value)) :
    (write style level (.map entries)).failure = none ↔
      ∀ entry ∈ entries, IsKey entry.1 ∧ (write style (level + 1) entry.2).failure = none := by
  cases entries with
  | nil => simp [write]
  | cons entry entries =>
    rw [write, writeMap]
    simp only [hstyle, Bool.false_eq_true, if_false, Draft.failure_append_eq_none_iff,
      Draft.failure_done, failure_writeEntries_eq_none_iff]
    simp

/-! ## Values -/

/-- **Writing fails exactly on unwritable values.** -/
theorem failure_write_ne_none_iff (level : ℕ) (hstyle : style.sorted = false) :
    (write style level v).failure ≠ none ↔ Unwritable v := by
  induction v using induction_inner generalizing level with
  | step v ih =>
    cases v with
    | int n =>
      rw [write_int, Ne, Draft.failure_ofExcept_eq_none_iff, exists_intText_iff, unwritable_int_iff,
        Nat.not_lt]
    | list items =>
      rw [Ne, failure_write_list_eq_none_iff, unwritable_list_iff]
      push Not
      exact exists_congr fun w => and_congr_right fun hw => ih w hw _
    | tuple items =>
      rw [Ne, failure_write_tuple_eq_none_iff, unwritable_tuple_iff]
      push Not
      exact exists_congr fun w => and_congr_right fun hw => ih w hw _
    | map entries =>
      rw [Ne, failure_write_map_eq_none_iff hstyle, unwritable_map_iff]
      push Not
      refine exists_congr fun entry => and_congr_right fun hentry => ?_
      rw [ih _ (List.mem_map_of_mem hentry), imp_iff_not_or]
    -- scalars have nothing inside: they are written, or not, as they are
    | null | bool | float | text =>
      exact iff_of_false (by simp [write, scalarText?, Draft.ofExcept]) (by rintro ⟨⟩)
    | bytes b => exact iff_of_true (by simp [write, scalarText?, Draft.ofExcept, Draft.failed]) (.bytes b)
    | date d => exact iff_of_true (by simp [write, scalarText?, Draft.ofExcept, Draft.failed]) (.date d)
    | dateTime t =>
      exact iff_of_true (by simp [write, scalarText?, Draft.ofExcept, Draft.failed]) (.dateTime t)
    | set items =>
      exact iff_of_true (by simp [write, scalarText?, Draft.ofExcept, Draft.failed]) (.set items)

theorem encode_eq_error_iff (hstyle : style.sorted = false) :
    (∃ e, encode style v = .error e) ↔ Unwritable v := by
  rw [← failure_write_ne_none_iff 0 hstyle, encode]
  rcases write style 0 v with ⟨text, _ | e⟩ <;> simp

/-! ## Surrogates -/

/-- **A value with a surrogate in one of its texts**, be it a key. -/
inductive Broken : Value → Prop
  | text {s : Text} (here : s.HasSurrogate) : Broken (.text s)
  | list {items : List Value} {v : Value} (mem : v ∈ items) (inner : Broken v) : Broken (.list items)
  | tuple {items : List Value} {v : Value} (mem : v ∈ items) (inner : Broken v) : Broken (.tuple items)
  | key {entries : List (Value × Value)} {entry : Value × Value} {s : Text} (mem : entry ∈ entries)
      (text : entry.1 = .text s) (here : s.HasSurrogate) : Broken (.map entries)
  | value {entries : List (Value × Value)} {entry : Value × Value} (mem : entry ∈ entries)
      (inner : Broken entry.2) : Broken (.map entries)

@[simp] theorem broken_text_iff {s : Text} : Broken (.text s) ↔ s.HasSurrogate :=
  ⟨fun h => by cases h; assumption, .text⟩

@[simp] theorem not_broken_int (n : Int) : ¬ Broken (.int n) := by
  rintro ⟨⟩

theorem broken_list_iff {items : List Value} : Broken (.list items) ↔ ∃ v ∈ items, Broken v := by
  constructor
  · rintro ⟨⟩
    exact ⟨_, ‹_›, ‹_›⟩
  · rintro ⟨v, hv, hinner⟩
    exact .list hv hinner

theorem broken_tuple_iff {items : List Value} : Broken (.tuple items) ↔ ∃ v ∈ items, Broken v := by
  constructor
  · rintro ⟨⟩
    exact ⟨_, ‹_›, ‹_›⟩
  · rintro ⟨v, hv, hinner⟩
    exact .tuple hv hinner

theorem broken_map_iff {entries : List (Value × Value)} :
    Broken (.map entries) ↔
      ∃ entry ∈ entries, (∃ s, entry.1 = .text s ∧ s.HasSurrogate) ∨ Broken entry.2 := by
  constructor
  · intro h
    cases h with
    | key hentry htext hhas => exact ⟨_, hentry, .inl ⟨_, htext, hhas⟩⟩
    | value hentry hinner => exact ⟨_, hentry, .inr hinner⟩
  · rintro ⟨entry, hentry, ⟨s, htext, hhas⟩ | hinner⟩
    · exact .key hentry htext hhas
    · exact .value hentry hinner

namespace Draft

/-- Some code point of a draft is a surrogate. -/
def HasSurrogate (d : Draft) : Prop :=
  (Text.ofList d.text).HasSurrogate

theorem hasSurrogate_append {a b : Draft} (h : a.failure = none) :
    (a ++ b).HasSurrogate ↔ a.HasSurrogate ∨ b.HasSurrogate := by
  have happend : (a ++ b).text = a.text ++ b.text := by
    change (Draft.append a b).text = _
    rw [Draft.append, h]
  simp [HasSurrogate, Text.HasSurrogate, happend, exists_or]

@[simp] theorem not_hasSurrogate_done (text : List Char) : ¬ (done text).HasSurrogate := by
  simp [HasSurrogate, Text.HasSurrogate, done, points]

@[simp] theorem not_hasSurrogate_empty : ¬ ({} : Draft).HasSurrogate := by
  simp [HasSurrogate, Text.HasSurrogate]

end Draft

/-- Where surrogates are not escaped, a quoted text has just those of the text. -/
theorem hasSurrogate_quote (hcharset : style.charset = .unicode) (cs : List CodePoint) :
    (Draft.points (quote style.charset cs)).HasSurrogate ↔ (Text.ofList cs).HasSurrogate := by
  have hpoint (point : CodePoint) (offset : Fin 0x800) :
      .surrogate offset ∈ escapePoint .unicode point ↔ point = .surrogate offset := by
    cases point with
    | char c => simp [escapePoint]
    | surrogate other => simp [escapePoint, eq_comm]
  simp [Draft.HasSurrogate, Text.HasSurrogate, Draft.points, quote, hcharset, hpoint]

/-- Of the keys, only texts can have surrogates. -/
theorem hasSurrogate_keyText {key : Value} {text : List CodePoint} (h : keyText key = .ok text) :
    (Text.ofList text).HasSurrogate ↔ ∃ s, key = .text s ∧ s.HasSurrogate := by
  by_cases hkey : ∃ s, key = .text s
  · obtain ⟨s, rfl⟩ := hkey
    cases h
    simp
  · -- any other key is written with characters only
    rw [keyText] at h
    · cases hscalar : (scalarText? key).getD (.error (.key key.typeName)) with
      | error e =>
        rw [hscalar] at h
        cases h
      | ok cs =>
        rw [hscalar] at h
        cases h
        refine iff_of_false (by simp [Text.HasSurrogate]) ?_
        rintro ⟨s, hs, -⟩
        exact hkey ⟨s, hs⟩
    · exact fun s hs => hkey ⟨s, hs⟩

theorem hasSurrogate_writeItem (divider : List Char) (v : Value)
    (h : (write style level v).failure = none) :
    (writeItem divider v (write style level v)).HasSurrogate ↔ (write style level v).HasSurrogate := by
  unfold writeItem
  split
  · next e he => cases v <;> simp_all [scalarText?, write, Draft.ofExcept, Draft.failed]
  · simp [Draft.hasSurrogate_append (Draft.failure_done divider)]

theorem hasSurrogate_writeItems (divider : List Char) {items : List Value}
    (h : ∀ v ∈ items, (write style level v).failure = none) :
    (writeItems level divider (writeAll style level items)).HasSurrogate ↔
      ∃ v ∈ items, (write style level v).HasSurrogate := by
  induction items generalizing divider with
  | nil => simp [writeAll, writeItems]
  | cons v items ih =>
    rw [List.forall_mem_cons] at h
    rw [writeAll, writeItems, Draft.hasSurrogate_append ((failure_writeItem divider v).trans h.1),
      hasSurrogate_writeItem divider v h.1, ih _ h.2, List.exists_mem_cons_iff]

theorem hasSurrogate_writeEntry (hcharset : style.charset = .unicode) (divider : List Char) {key : Value}
    (hkey : IsKey key) (value : Draft) :
    (writeEntry style divider key value).HasSurrogate ↔
      (∃ s, key = .text s ∧ s.HasSurrogate) ∨ value.HasSurrogate := by
  obtain ⟨text, htext⟩ := (exists_keyText_iff key).mpr hkey
  rw [writeEntry, htext]
  dsimp only
  rw [Draft.hasSurrogate_append rfl, Draft.hasSurrogate_append rfl, Draft.hasSurrogate_append rfl,
    hasSurrogate_quote hcharset, hasSurrogate_keyText htext]
  simp

theorem hasSurrogate_writeEntries (hcharset : style.charset = .unicode) (divider : List Char)
    {entries : List (Value × Value)}
    (h : ∀ entry ∈ entries, IsKey entry.1 ∧ (write style level entry.2).failure = none) :
    (writeEntries style level divider (writeValues style level entries)).HasSurrogate ↔
      ∃ entry ∈ entries,
        (∃ s, entry.1 = .text s ∧ s.HasSurrogate) ∨ (write style level entry.2).HasSurrogate := by
  induction entries generalizing divider with
  | nil => simp [writeValues, writeEntries]
  | cons entry entries ih =>
    rw [List.forall_mem_cons] at h
    rw [writeValues, writeEntries,
      Draft.hasSurrogate_append ((failure_writeEntry_eq_none_iff ..).mpr h.1),
      hasSurrogate_writeEntry hcharset divider h.1.1, ih _ h.2, List.exists_mem_cons_iff]

theorem hasSurrogate_write_list {items : List Value}
    (h : ∀ v ∈ items, (write style (level + 1) v).failure = none) :
    (write style level (.list items)).HasSurrogate ↔
      ∃ v ∈ items, (write style (level + 1) v).HasSurrogate := by
  cases items with
  | nil => simp [write]
  | cons v items =>
    rw [write, writeList, Draft.hasSurrogate_append ((failure_writeItems_eq_none_iff ..).mpr h),
      hasSurrogate_writeItems _ h]
    simp

theorem hasSurrogate_write_tuple {items : List Value}
    (h : ∀ v ∈ items, (write style (level + 1) v).failure = none) :
    (write style level (.tuple items)).HasSurrogate ↔
      ∃ v ∈ items, (write style (level + 1) v).HasSurrogate := by
  rw [← hasSurrogate_write_list h]
  cases items <;> simp [write]

theorem hasSurrogate_write_map (hcharset : style.charset = .unicode) (hstyle : style.sorted = false)
    {entries : List (Value × Value)}
    (h : ∀ entry ∈ entries, IsKey entry.1 ∧ (write style (level + 1) entry.2).failure = none) :
    (write style level (.map entries)).HasSurrogate ↔
      ∃ entry ∈ entries,
        (∃ s, entry.1 = .text s ∧ s.HasSurrogate) ∨ (write style (level + 1) entry.2).HasSurrogate := by
  cases entries with
  | nil => simp [write]
  | cons entry entries =>
    have hbody : (Draft.done ('\x7b' :: newLine (level + 1)) ++ writeEntries style (level + 1) []
        (writeValues style (level + 1) (entry :: entries))).failure = none := by
      rw [Draft.failure_append_eq_none_iff]
      exact ⟨rfl, (failure_writeEntries_eq_none_iff ..).mpr h⟩
    rw [write, writeMap]
    simp only [hstyle, Bool.false_eq_true, if_false]
    rw [Draft.hasSurrogate_append hbody, Draft.hasSurrogate_append rfl,
      hasSurrogate_writeEntries hcharset _ h]
    simp

/-- A written form has a surrogate exactly if the value is broken. -/
theorem hasSurrogate_write_iff (hcharset : style.charset = .unicode) (hstyle : style.sorted = false)
    (v : Value) (level : ℕ) (h : (write style level v).failure = none) :
    (write style level v).HasSurrogate ↔ Broken v := by
  induction v using induction_inner generalizing level with
  | step v ih =>
    cases v with
    | text s => rw [write, hasSurrogate_quote hcharset, Text.ofList_toList, broken_text_iff]
    | list items =>
      rw [failure_write_list_eq_none_iff] at h
      rw [hasSurrogate_write_list h, broken_list_iff]
      exact exists_congr fun w => and_congr_right fun hw => ih w hw _ (h w hw)
    | tuple items =>
      rw [failure_write_tuple_eq_none_iff] at h
      rw [hasSurrogate_write_tuple h, broken_tuple_iff]
      exact exists_congr fun w => and_congr_right fun hw => ih w hw _ (h w hw)
    | map entries =>
      rw [failure_write_map_eq_none_iff hstyle] at h
      rw [hasSurrogate_write_map hcharset hstyle h, broken_map_iff]
      refine exists_congr fun entry => and_congr_right fun hentry => or_congr_right ?_
      exact ih _ (List.mem_map_of_mem hentry) _ (h entry hentry).2
    | _ =>
      -- what is left is written as a string, or not at all
      rw [write, Draft.failure_ofExcept_eq_none_iff] at h
      · obtain ⟨text, htext⟩ := h
        rw [write, htext]
        · exact iff_of_false (Draft.not_hasSurrogate_done text) (by rintro ⟨⟩)
        all_goals simp
      all_goals simp

/-- **The text of a value has a surrogate exactly if the value is broken.** -/
theorem hasSurrogate_encode_iff (hcharset : style.charset = .unicode) (hstyle : style.sorted = false)
    {text : Text} (h : encode style v = .ok text) : text.HasSurrogate ↔ Broken v := by
  rcases hwrite : write style 0 v with ⟨points, _ | e⟩
  · rw [encode, hwrite] at h
    cases h
    rw [← hasSurrogate_write_iff hcharset hstyle v 0 (by rw [hwrite]), hwrite]
    rfl
  · rw [encode, hwrite] at h
    cases h

end Gleaner.Json
