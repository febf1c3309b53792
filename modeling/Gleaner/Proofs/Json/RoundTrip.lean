import Gleaner.Proofs.Data.Order
import Gleaner.Proofs.Json.Number
import Gleaner.Proofs.Json.Quote

/-!
# What is written is read back

Values made of strings, integers of not too many digits, lists, and maps under distinct string keys are
*plain*. A plain value has a written form, and reading that form gives the value back, whatever may
follow it. Both directions go value by value: `ReadsAs` says what a value owes to the list or map it
stands in, and a list or map whose parts keep it keeps it too. A text with surrogates may be read as another
text, which is why the contract names what is read.

Three things are carried along. A written value starts with a character that is no blank and closes no
list, so the reader finds it after the indentation. It holds no carriage return, so it stays the same
where line ends are made uniform. And each level of the reader spends at least one character, so the
length of the text is enough fuel.

## Main definitions

* `record`: the entries of a map under string keys
* `Plain`: the values that are read back, by how deep they are nested
* `ReadsAs`, `ReadsBack`: the contract of a written value

## Main results

* `readItems_writeItems`, `readEntries_writeEntries`: the items of a list, the entries of a map
* `Plain.readsBack`: plain values keep the contract
* `Plain.read_encode`: the whole text of a plain value gives it back
-/

namespace Gleaner.Json

variable {style : Style} {level depth fuel : ℕ} {v : Value} {items : List Value} {rest : List Char}

/-! ## Drafts without a failure -/

theorem Draft.points_append (a b : List CodePoint) :
    Draft.points a ++ Draft.points b = Draft.points (a ++ b) :=
  rfl

theorem Draft.done_append (a b : List Char) : Draft.done a ++ Draft.done b = Draft.done (a ++ b) := by
  rw [Draft.done, Draft.done, Draft.points_append, ← List.map_append, ← Draft.done]

theorem Draft.empty_eq : ({} : Draft) = .done [] :=
  rfl

/-- A value that is written is no scalar that fails. -/
theorem writeItem_of_write (divider : List Char) {text : List Char}
    (h : write style level v = .done text) :
    writeItem divider v (write style level v) = .done (divider ++ text) := by
  unfold writeItem
  split
  · next e he =>
    cases v <;> simp_all [scalarText?, write, Draft.ofExcept, Draft.done, Draft.points, Draft.failed]
  · rw [h, Draft.done_append]

/-! ## Blanks -/

theorem skipGap_newLine (level : ℕ) (cs : List Char) : skipGap (newLine level ++ cs) = skipGap cs := by
  refine List.dropWhile_append_of_pos fun c hc => ?_
  rcases List.mem_cons.mp hc with rfl | hc
  · rfl
  · rw [List.eq_of_mem_replicate hc]
    rfl

theorem skipGap_cons {c : Char} (h : isGap c = false) (cs : List Char) :
    skipGap (c :: cs) = c :: cs := by
  simp [skipGap, h]

theorem Ends.newLine (level : ℕ) (rest : List Char) : Ends (Json.newLine level ++ rest) :=
  .lineFeed _

theorem carriageReturn_notMem_newLine (level : ℕ) : '\r' ∉ newLine level := by
  simp [newLine]

/-- A text that starts like a value: not with a blank, a closing bracket or a byte order mark. -/
def Starts (text : List Char) : Prop :=
  ∃ c more, text = c :: more ∧ isGap c = false ∧ c ≠ ']' ∧ c ≠ '\ufeff'

theorem Starts.append {text : List Char} (h : Starts text) (rest : List Char) :
    Starts (text ++ rest) := by
  obtain ⟨c, more, rfl, hgap, hother⟩ := h
  exact ⟨c, more ++ rest, rfl, hgap, hother⟩

theorem Starts.skipGap_eq {text : List Char} (h : Starts text) : skipGap text = text := by
  obtain ⟨c, more, rfl, hgap, -⟩ := h
  exact skipGap_cons hgap more

/-! ## The contract -/

/-- **The contract of a written value.** It is written at every level, and what is written starts like a
value, holds no carriage return, and is read as another value. -/
def ReadsAs (style : Style) (depth : ℕ) (v w : Value) : Prop :=
  ∀ level, ∃ text, write style level v = .done text ∧ Starts text ∧ '\r' ∉ text ∧
    ∀ fuel rest, text.length ≤ fuel → Ends rest → readValue fuel depth (text ++ rest) = .ok (w, rest)

/-- A value that is read as what it is. -/
abbrev ReadsBack (style : Style) (depth : ℕ) (v : Value) : Prop :=
  ReadsAs style depth v v

/-! ### Scalars -/

theorem carriageReturn_notMem_hexText (width n : ℕ) : '\r' ∉ Text.hexText width n := by
  have hdigit : ∀ m < 16, '\r' ≠ Text.hexDigit m := by decide
  induction width generalizing n with
  | zero => simp [Text.hexText]
  | succ width ih =>
    simp [Text.hexText, ih, hdigit _ (Nat.mod_lt n (by decide))]

theorem carriageReturn_notMem_escape (charset : Charset) (c : Char) : '\r' ∉ escape charset c := by
  unfold escape
  split
  · next letter hletter =>
    unfold shortEscape? at hletter
    split_ifs at hletter <;> cases hletter <;> decide
  · next hnone =>
    split_ifs
    · -- A carriage return has a letter of its own.
      rintro hmem
      cases List.mem_singleton.mp hmem
      cases hnone
    · unfold unicodeEscape unitEscape
      split_ifs <;> simp [carriageReturn_notMem_hexText]

theorem carriageReturn_notMem_quotedChars (charset : Charset) (text : List CodePoint) :
    '\r' ∉ quotedChars charset text := by
  have hpoint (c : CodePoint) : '\r' ∉ escaped charset c := by
    cases c with
    | char c => exact carriageReturn_notMem_escape charset c
    | surrogate offset => simp [escaped, unitEscape, carriageReturn_notMem_hexText]
  simp [quotedChars, hpoint]

/-- A text is read back up to halves of pairs that meet, if its surrogates can be written. -/
theorem readsAs_text {style : Style} (depth : ℕ) {s : Text}
    (h : style.charset = .ascii ∨ ∀ offset, CodePoint.surrogate offset ∉ s.toList) :
    ReadsAs style depth (.text s) (.text (.ofList (paired s.toList))) := by
  intro level
  refine ⟨quotedChars style.charset s.toList, by rw [write, quote_eq h, Draft.done],
    ⟨'"', _, rfl, rfl, by decide, by decide⟩, carriageReturn_notMem_quotedChars _ _, ?_⟩
  intro fuel rest hfuel _
  obtain ⟨fuel, rfl⟩ : ∃ n, fuel = n + 1 := Nat.exists_eq_add_one.mpr (by
    simp only [quotedChars, List.cons_append, List.length_cons] at hfuel
    omega)
  have hread := readString_flatMap style.charset (quotedChars style.charset s.toList ++ rest) []
    s.toList rest
  simp only [quotedChars, List.cons_append, List.append_assoc, List.nil_append] at hread ⊢
  rw [readValue, hread]
  simp [Except.map]

theorem readsBack_string (style : Style) (depth : ℕ) (s : String) : ReadsBack style depth (.text s) := by
  have hread : ReadsAs style depth (.text s) _ := readsAs_text depth (.inr fun offset => by simp)
  rwa [Text.toList_ofString, paired_map_char, ← Text.toList_ofString, Text.ofList_toList] at hread

/-- What an integer starts with. -/
theorem exists_head_toString (n : Int) :
    ∃ c more, (toString n).toList = c :: more ∧ (isDigit c = true ∨ c = '-') := by
  obtain ⟨c, digits, hdigit, hcons | hcons⟩ := exists_digit_toString n
  · exact ⟨c, digits, hcons, .inl hdigit⟩
  · exact ⟨'-', c :: digits, hcons, .inr rfl⟩

theorem carriageReturn_notMem_toString (n : Int) : '\r' ∉ (toString n).toList := by
  rw [toList_toString_int, List.mem_append, not_or]
  refine ⟨by split_ifs <;> decide, fun hmem => ?_⟩
  cases isDigit_of_mem_toDigits hmem

theorem readValue_scalar {c : Char} {more : List Char} (hquote : c ≠ '"') (hlist : c ≠ '[')
    (hmap : c ≠ '\x7b') : readValue (fuel + 1) depth (c :: more) = readScalar (c :: more) := by
  simp [readValue, hquote, hlist, hmap]

theorem readsBack_int {n : Int} (style : Style) (depth : ℕ) (h : n.natAbs < 10 ^ maxDigits) :
    ReadsBack style depth (.int n) := by
  obtain ⟨c, more, hcons, hhead⟩ := exists_head_toString n
  -- a number starts with a digit or a minus, and so with nothing that starts another value
  have hne (d : Char) (hdigit : isDigit d = false) (hminus : d ≠ '-') : c ≠ d := by
    rintro rfl
    rcases hhead with hhead | hhead
    · exact absurd (hdigit.symm.trans hhead) Bool.false_ne_true
    · exact hminus hhead
  intro level
  refine ⟨(toString n).toList, ?_, ⟨c, more, hcons, ?_, ?_, ?_⟩,
    carriageReturn_notMem_toString n, ?_⟩
  · rw [write_int, intText_eq, if_pos h]
    rfl
  · simp [isGap, hne ' ' rfl (by decide), hne '\t' rfl (by decide), hne '\n' rfl (by decide),
      hne '\r' rfl (by decide)]
  · exact hne ']' rfl (by decide)
  · exact hne '\ufeff' rfl (by decide)
  · intro fuel rest hfuel hends
    obtain ⟨fuel, rfl⟩ : ∃ n, fuel = n + 1 := Nat.exists_eq_add_one.mpr (by
      rw [hcons, List.length_cons] at hfuel
      omega)
    have hscalar := readScalar_int hends h
    rw [hcons, List.cons_append] at hscalar ⊢
    rw [readValue_scalar (hne _ rfl (by decide)) (hne _ rfl (by decide)) (hne _ rfl (by decide)),
      hscalar]

/-! ### Lists -/

/-- **The items of a list are written one after the other and read back**, from the first on to the
closing bracket. Those read before are in `done`. -/
theorem readItems_writeItems (style : Style) (level depth : ℕ) (divider : List Char) (v : Value)
    (items : List Value) (hitems : ∀ w ∈ v :: items, ReadsBack style depth w) :
    ∃ text, writeItems level divider (writeAll style level (v :: items)) = .done (divider ++ text) ∧
      Starts text ∧ '\r' ∉ text ∧
      ∀ fuel done rest outer, (text ++ newLine outer).length < fuel →
        readItems fuel depth done (text ++ (newLine outer ++ ']' :: rest)) =
          .ok (.list (done.reverse ++ v :: items), rest) := by
  induction items generalizing divider v with
  | nil =>
    -- the last item is followed by the line of the bracket
    obtain ⟨text, hwrite, hstarts, hclean, hread⟩ := hitems v (List.mem_cons_self ..) level
    refine ⟨text, ?_, hstarts, hclean, ?_⟩
    · rw [writeAll, writeAll, writeItems, writeItems, writeItem_of_write divider hwrite,
        Draft.empty_eq, Draft.done_append, List.append_nil]
    · intro fuel done rest outer hfuel
      obtain ⟨fuel, rfl⟩ : ∃ n, fuel = n + 1 := Nat.exists_eq_add_one.mpr (by omega)
      rw [List.length_append] at hfuel
      rw [readItems, hread _ _ (by omega) (Ends.newLine outer _)]
      simp only
      rw [skipGap_newLine, skipGap_cons rfl]
      simp
  | cons w items ih =>
    -- any other is followed by a comma, and the rest is read with it in `done`
    obtain ⟨text, hwrite, hstarts, hclean, hread⟩ := hitems v (List.mem_cons_self ..) level
    obtain ⟨more, hmore, hmoreStarts, hmoreClean, hmoreRead⟩ :=
      ih (',' :: newLine level) w fun x hx => hitems x (List.mem_cons_of_mem _ hx)
    refine ⟨text ++ (',' :: newLine level ++ more), ?_, hstarts.append _, ?_, ?_⟩
    · rw [writeAll, writeItems, writeItem_of_write divider hwrite, hmore, Draft.done_append,
        List.append_assoc]
    · simp [hclean, hmoreClean, carriageReturn_notMem_newLine]
    · intro fuel done rest outer hfuel
      obtain ⟨fuel, rfl⟩ : ∃ n, fuel = n + 1 := Nat.exists_eq_add_one.mpr (by omega)
      simp only [List.length_append, List.length_cons] at hfuel
      rw [readItems, List.append_assoc, List.cons_append, List.cons_append,
        hread _ _ (by omega) (Ends.comma _)]
      simp only
      rw [skipGap_cons rfl]
      simp only
      rw [List.append_assoc, skipGap_newLine, (hmoreStarts.append _).skipGap_eq,
        hmoreRead _ _ _ _ (by rw [List.length_append]; omega)]
      simp

theorem readsBack_list (hitems : ∀ w ∈ items, ReadsBack style depth w) :
    ReadsBack style (depth + 1) (.list items) := by
  intro level
  cases items with
  | nil =>
    refine ⟨['[', ']'], by rw [write], ⟨'[', [']'], rfl, rfl, by decide, by decide⟩, by decide, ?_⟩
    intro fuel rest hfuel _
    obtain ⟨fuel, rfl⟩ : ∃ n, fuel = n + 1 := Nat.exists_eq_add_one.mpr (by simp at hfuel; omega)
    simp [readValue, skipGap_cons (c := ']') rfl]
  | cons v items =>
    obtain ⟨text, hwrite, hstarts, hclean, hread⟩ :=
      readItems_writeItems style (level + 1) depth ('[' :: newLine (level + 1)) v items hitems
    refine ⟨'[' :: newLine (level + 1) ++ text ++ (newLine level ++ [']']), ?_,
      ⟨'[', _, rfl, rfl, by decide, by decide⟩, ?_, ?_⟩
    · rw [write, writeList, hwrite, Draft.done_append]
    · simp [hclean, carriageReturn_notMem_newLine]
    · intro fuel rest hfuel _
      obtain ⟨fuel, rfl⟩ : ∃ n, fuel = n + 1 := Nat.exists_eq_add_one.mpr (by simp at hfuel; omega)
      simp only [List.length_append, List.length_cons, List.length_nil] at hfuel
      have hstart := hstarts.append (newLine level ++ ']' :: rest)
      have hitems := hread fuel [] rest level (by rw [List.length_append]; omega)
      have hskip : skipGap (newLine (level + 1) ++ (text ++ (newLine level ++ ']' :: rest))) =
          text ++ (newLine level ++ ']' :: rest) := by
        rw [skipGap_newLine, hstart.skipGap_eq]
      simp only [List.append_assoc, List.cons_append, List.nil_append, readValue, hskip]
      -- The first item does not start with a closing bracket.
      obtain ⟨c, more, hcons, -, hclosing, -⟩ := hstart
      rw [hcons] at hitems ⊢
      simpa [hclosing] using hitems

/-! ### Maps -/

/-- The entries of a map under string keys. -/
def record (fields : List (String × Value)) : List (Value × Value) :=
  fields.map fun field => (.text field.1, field.2)

theorem lookup?_record (key : String) (fields : List (String × Value)) :
    Value.lookup? key (record fields) = (fields.find? fun field => field.1 = key).map Prod.snd := by
  induction fields with
  | nil => rfl
  | cons field fields ih =>
    by_cases h : field.1 = key
    · simp [Value.lookup?, record, Value.sameKey, h]
    · simpa [Value.lookup?, record, Value.sameKey, h] using ih

/-- A new key goes to the end. -/
theorem insertEntry_record {fields : List (String × Value)} {key : String} (value : Value)
    (h : key ∉ fields.map Prod.fst) :
    Value.insertEntry (.text key) value (record fields) = record (fields ++ [(key, value)]) := by
  induction fields with
  | nil => rfl
  | cons field fields ih =>
    rw [List.map_cons, List.mem_cons, not_or] at h
    have hne : Value.sameKey (.text field.1) (.text key) = false := by
      simpa [Value.sameKey] using fun hsame => h.1 hsame.symm
    have hrest := ih h.2
    simp only [record, List.map_cons, List.cons_append, Value.insertEntry] at hrest ⊢
    rw [hne, if_neg Bool.false_ne_true, hrest]

/-- The text of one entry. -/
def entryText (charset : Charset) (key : String) (text : List Char) : List Char :=
  quotedChars charset (key : Text).toList ++ ':' :: ' ' :: text

theorem writeEntry_of_write (divider : List Char) (key : String) {text : List Char}
    (h : write style level v = .done text) :
    writeEntry style divider (.text key) (write style level v) =
      .done (divider ++ entryText style.charset key text) := by
  have hkey : Draft.points (quote style.charset (key : Text).toList) =
      .done (quotedChars style.charset (key : Text).toList) := by rw [quote_ofString, Draft.done]
  rw [writeEntry, keyText]
  simp only [hkey, h, Draft.done_append, entryText, List.append_assoc, List.cons_append, List.nil_append]

theorem carriageReturn_notMem_entryText (charset : Charset) (key : String) {text : List Char}
    (h : '\r' ∉ text) : '\r' ∉ entryText charset key text := by
  simp [entryText, carriageReturn_notMem_quotedChars, h]

/-- One entry is read in one step; a brace after it closes the map, and a comma leads to the next entry. -/
theorem readEntries_entryText (charset : Charset) (key : String) {text after : List Char}
    {done : List (Value × Value)} (hstarts : Starts text)
    (hread : readValue fuel depth (text ++ after) = .ok (v, after)) :
    (∀ rest, skipGap after = '\x7d' :: rest →
        readEntries (fuel + 1) depth done (entryText charset key text ++ after) =
          .ok (.map (Value.insertEntry (.text key) v done), rest)) ∧
      ∀ rest, skipGap after = ',' :: rest →
        readEntries (fuel + 1) depth done (entryText charset key text ++ after) =
          readEntries fuel depth (Value.insertEntry (.text key) v done) (skipGap rest) := by
  have hkey := readString_flatMap charset (entryText charset key text ++ after) [] (key : Text).toList
    (':' :: ' ' :: (text ++ after))
  rw [Text.toList_ofString, paired_map_char, ← Text.toList_ofString] at hkey
  have hcolon : skipGap (':' :: ' ' :: (text ++ after)) = ':' :: ' ' :: (text ++ after) :=
    skipGap_cons rfl _
  have hvalue : skipGap (' ' :: (text ++ after)) = text ++ after := (hstarts.append after).skipGap_eq
  simp only [entryText, quotedChars, List.cons_append, List.append_assoc, List.nil_append] at hkey ⊢
  constructor
  · intro rest hafter
    simp only [readEntries, hkey, hcolon, hvalue, hread, hafter, List.reverse_nil, List.nil_append,
      Text.ofList_toList]
  · intro rest hafter
    simp only [readEntries, hkey, hcolon, hvalue, hread, hafter, List.reverse_nil, List.nil_append,
      Text.ofList_toList]

theorem notMem_map_fst_of_nodup {done fields : List (String × Value)} {field : String × Value}
    (h : ((done ++ field :: fields).map Prod.fst).Nodup) : field.1 ∉ done.map Prod.fst := by
  rw [List.map_append, List.map_cons] at h
  exact fun hmem => (List.nodup_append.mp h).2.2 _ hmem _ (List.mem_cons_self ..) rfl

/-- Fields whose values are read as others. -/
def reread (again : Value → Value) (fields : List (String × Value)) : List (String × Value) :=
  fields.map (Prod.map id again)

@[simp] theorem map_fst_reread (again : Value → Value) (fields : List (String × Value)) :
    (reread again fields).map Prod.fst = fields.map Prod.fst := by
  simp [reread]

/-- **The entries of a map are written one after the other and read back**, from the first on to the
closing brace, each as the value that it is read as. Those read before are in `done`, and no key comes
twice. -/
theorem readEntries_writeEntries (style : Style) (level depth : ℕ) (divider : List Char)
    (again : Value → Value) (field : String × Value) (fields : List (String × Value))
    (hfields : ∀ f ∈ field :: fields, ReadsAs style depth f.2 (again f.2)) :
    ∃ text, writeEntries style level divider (writeValues style level (record (field :: fields))) =
        .done (divider ++ text) ∧
      (∃ more, text = '"' :: more) ∧ '\r' ∉ text ∧
      ∀ fuel done rest outer, (text ++ newLine outer).length < fuel →
        ((done ++ field :: fields).map Prod.fst).Nodup →
        readEntries fuel depth (record done) (text ++ (newLine outer ++ '\x7d' :: rest)) =
          .ok (.map (record (done ++ reread again (field :: fields))), rest) := by
  induction fields generalizing divider field with
  | nil =>
    -- the last entry is followed by the line of the brace
    obtain ⟨text, hwrite, hstarts, hclean, hread⟩ := hfields field (List.mem_cons_self ..) level
    refine ⟨entryText style.charset field.1 text, ?_, ⟨_, rfl⟩,
      carriageReturn_notMem_entryText _ _ hclean, ?_⟩
    · rw [record, List.map_cons, List.map_nil, writeValues, writeValues, writeEntries, writeEntries,
        writeEntry_of_write divider field.1 hwrite, Draft.empty_eq, Draft.done_append, List.append_nil]
    · intro fuel done rest outer hfuel hnodup
      obtain ⟨fuel, rfl⟩ : ∃ n, fuel = n + 1 := Nat.exists_eq_add_one.mpr (by omega)
      simp only [entryText, List.length_append, List.length_cons] at hfuel
      have hnew := notMem_map_fst_of_nodup hnodup
      have hclosed : skipGap (newLine outer ++ '\x7d' :: rest) = '\x7d' :: rest := by
        rw [skipGap_newLine, skipGap_cons rfl]
      rw [(readEntries_entryText style.charset field.1 hstarts
        (hread _ _ (by omega) (Ends.newLine outer _))).1 rest hclosed,
        insertEntry_record (again field.2) hnew]
      rfl
  | cons other fields ih =>
    -- any other is followed by a comma; its key is new, so `done` grows at its end
    obtain ⟨text, hwrite, hstarts, hclean, hread⟩ := hfields field (List.mem_cons_self ..) level
    obtain ⟨more, hmore, ⟨tail, rfl⟩, hmoreClean, hmoreRead⟩ :=
      ih (',' :: newLine level) other fun x hx => hfields x (List.mem_cons_of_mem _ hx)
    refine ⟨entryText style.charset field.1 text ++ (',' :: newLine level ++ '"' :: tail), ?_,
      ⟨_, rfl⟩, ?_, ?_⟩
    · have hrest : record (field :: other :: fields) =
          (.text field.1, field.2) :: record (other :: fields) := rfl
      rw [hrest, writeValues, writeEntries, writeEntry_of_write divider field.1 hwrite, hmore,
        Draft.done_append, List.append_assoc]
    · rw [List.mem_append, not_or]
      refine ⟨carriageReturn_notMem_entryText _ _ hclean, ?_⟩
      simpa [carriageReturn_notMem_newLine] using hmoreClean
    · intro fuel done rest outer hfuel hnodup
      obtain ⟨fuel, rfl⟩ : ∃ n, fuel = n + 1 := Nat.exists_eq_add_one.mpr (by omega)
      simp only [entryText, List.length_append, List.length_cons] at hfuel
      have hnew := notMem_map_fst_of_nodup hnodup
      rw [List.append_assoc, List.cons_append, List.cons_append,
        (readEntries_entryText style.charset field.1 hstarts
          (hread _ _ (by omega) (Ends.comma _))).2 _ (skipGap_cons rfl _)]
      have hlater := hmoreRead fuel (done ++ [(field.1, again field.2)]) rest outer
        (by simp only [List.length_append, List.length_cons]; omega) (by simpa using hnodup)
      rw [insertEntry_record (again field.2) hnew, List.append_assoc, skipGap_newLine, List.cons_append,
        skipGap_cons rfl]
      simpa [reread, Prod.map] using hlater

/-- The text of a map that has entries. -/
theorem exists_mapText (style : Style) (level depth : ℕ) (again : Value → Value) (field : String × Value)
    (fields : List (String × Value))
    (hfields : ∀ f ∈ field :: fields, ReadsAs style depth f.2 (again f.2))
    (hnodup : ((field :: fields).map Prod.fst).Nodup) :
    ∃ text, Draft.done ('\x7b' :: newLine (level + 1)) ++
          writeEntries style (level + 1) [] (writeValues style (level + 1) (record (field :: fields))) ++
          Draft.done (newLine level ++ ['\x7d']) = .done text ∧
      Starts text ∧ '\r' ∉ text ∧
      ∀ fuel rest, text.length ≤ fuel →
        readValue fuel (depth + 1) (text ++ rest) =
          .ok (.map (record (reread again (field :: fields))), rest) := by
  obtain ⟨text, hwrite, ⟨more, rfl⟩, hclean, hread⟩ :=
    readEntries_writeEntries style (level + 1) depth [] again field fields hfields
  refine ⟨'\x7b' :: newLine (level + 1) ++ '"' :: more ++ (newLine level ++ ['\x7d']), ?_,
    ⟨'\x7b', _, rfl, rfl, by decide, by decide⟩, ?_, ?_⟩
  · rw [hwrite, List.nil_append, Draft.done_append, Draft.done_append]
  · simpa [carriageReturn_notMem_newLine] using hclean
  · intro fuel rest hfuel
    obtain ⟨fuel, rfl⟩ : ∃ n, fuel = n + 1 := Nat.exists_eq_add_one.mpr (by simp at hfuel; omega)
    simp only [List.length_append, List.length_cons, List.length_nil] at hfuel
    have hentries := hread fuel [] rest level
      (by simp only [List.length_append, List.length_cons]; omega) hnodup
    have hskip : skipGap (newLine (level + 1) ++ ('"' :: (more ++ (newLine level ++ '\x7d' :: rest)))) =
        '"' :: (more ++ (newLine level ++ '\x7d' :: rest)) := by
      rw [skipGap_newLine, skipGap_cons rfl]
    simp only [List.append_assoc, List.cons_append, List.nil_append, readValue, hskip] at hentries ⊢
    exact hentries

theorem writeValues_record (style : Style) (level : ℕ) (fields : List (String × Value)) :
    writeValues style level (record fields) =
      fields.map fun field => (.text field.1, write style level field.2) := by
  induction fields with
  | nil => rw [record, List.map_nil, writeValues, List.map_nil]
  | cons field fields ih => rw [List.map_cons, ← ih]; rfl

/-- Sorting what is written of a record rearranges its fields. -/
theorem exists_sortEntries_record (style : Style) (level : ℕ) (fields : List (String × Value)) :
    ∃ fields', fields'.Perm fields ∧
      Value.sortEntries (writeValues style level (record fields)) =
        .ok (writeValues style level (record fields')) := by
  have hkeys : ∀ entry ∈ writeValues style level (record fields), ∃ key, entry.1 = .text key := by
    rw [writeValues_record]
    intro entry hentry
    obtain ⟨field, -, rfl⟩ := List.mem_map.mp hentry
    exact ⟨field.1, rfl⟩
  obtain ⟨sorted, hsorted, hperm⟩ := Value.sortEntries_perm hkeys
  rw [writeValues_record] at hperm
  -- what rearranges the images of the fields comes from what rearranges the fields
  obtain ⟨fields', rfl, hfields'⟩ := (congrFun₂ (List.eq_map_comp_perm _) sorted fields).mpr hperm
  exact ⟨fields', hfields', by rw [hsorted, writeValues_record]⟩

/-- A record is written field by field, in the order the style asks for. -/
theorem exists_write_record (style : Style) (level : ℕ) {fields : List (String × Value)}
    (hne : fields ≠ []) :
    ∃ fields', fields'.Perm fields ∧ (style.sorted = false → fields' = fields) ∧
      write style level (.map (record fields)) =
        .done ('\x7b' :: newLine (level + 1)) ++
          writeEntries style (level + 1) [] (writeValues style (level + 1) (record fields')) ++
          .done (newLine level ++ ['\x7d']) := by
  have hwrite : write style level (.map (record fields)) =
      writeMap style level (writeValues style (level + 1) (record fields)) := by
    cases fields with
    | nil => exact absurd rfl hne
    | cons field fields => exact write.eq_7 ..
  cases hsorted : style.sorted with
  | false =>
    refine ⟨fields, .refl _, fun _ => rfl, ?_⟩
    rw [hwrite, writeMap]
    simp [hsorted]
  | true =>
    obtain ⟨fields', hperm, hsort⟩ := exists_sortEntries_record style (level + 1) fields
    refine ⟨fields', hperm, fun h => ?_, ?_⟩
    · cases h
    · rw [hwrite, writeMap]
      simp [hsorted, hsort]

/-- **A record is read back up to the order of its fields**, and in its own order where the style keeps
it, each field as the value that it is read as. -/
theorem exists_readValue_record (level : ℕ) (again : Value → Value) {fields : List (String × Value)}
    (hfields : ∀ f ∈ fields, ReadsAs style depth f.2 (again f.2)) (hnodup : (fields.map Prod.fst).Nodup) :
    ∃ fields', fields'.Perm fields ∧ (style.sorted = false → fields' = fields) ∧
      ∃ text, write style level (.map (record fields)) = .done text ∧ Starts text ∧ '\r' ∉ text ∧
        ∀ fuel rest, text.length ≤ fuel →
          readValue fuel (depth + 1) (text ++ rest) = .ok (.map (record (reread again fields')), rest) := by
  rcases eq_or_ne fields [] with rfl | hne
  · refine ⟨[], .refl _, fun _ => rfl, ['\x7b', '\x7d'], by rw [record, List.map_nil, write],
      ⟨'\x7b', ['\x7d'], rfl, rfl, by decide, by decide⟩, by decide, ?_⟩
    intro fuel rest hfuel
    obtain ⟨fuel, rfl⟩ : ∃ n, fuel = n + 1 := Nat.exists_eq_add_one.mpr (by simp at hfuel; omega)
    rw [List.cons_append, List.cons_append, List.nil_append]
    simp [readValue, skipGap_cons, isGap, record, reread]
  · obtain ⟨fields', hperm, hkeep, hwrite⟩ := exists_write_record style level hne
    refine ⟨fields', hperm, hkeep, ?_⟩
    rw [hwrite]
    cases fields' with
    | nil => exact absurd hperm.nil_eq.symm hne
    | cons field others =>
      exact exists_mapText style level depth again field others
        (fun f hf => hfields f (hperm.subset hf)) ((hperm.map _).nodup_iff.mpr hnodup)

theorem readsBack_map {fields : List (String × Value)} (hstyle : style.sorted = false)
    (hfields : ∀ f ∈ fields, ReadsBack style depth f.2) (hnodup : (fields.map Prod.fst).Nodup) :
    ReadsBack style (depth + 1) (.map (record fields)) := by
  intro level
  obtain ⟨fields', -, hkeep, text, hwrite, hstarts, hclean, hread⟩ :=
    exists_readValue_record level id hfields hnodup
  rw [hkeep hstyle, show reread id fields = fields by simp [reread]] at hread
  exact ⟨text, hwrite, hstarts, hclean, fun fuel rest hfuel _ => hread fuel rest hfuel⟩

/-! ## Plain values -/

/-- **The values that are read back**: strings, integers of not too many digits, lists, and maps under
distinct string keys, nested at most so deep. -/
inductive Plain : (depth : ℕ) → Value → Prop
  | text (depth : ℕ) (s : String) : Plain depth (.text s)
  | int (depth : ℕ) {n : Int} (short : n.natAbs < 10 ^ maxDigits) : Plain depth (.int n)
  | list {depth : ℕ} {items : List Value} (inner : ∀ v ∈ items, Plain depth v) :
      Plain (depth + 1) (.list items)
  | map {depth : ℕ} {fields : List (String × Value)} (distinct : (fields.map Prod.fst).Nodup)
      (inner : ∀ f ∈ fields, Plain depth f.2) : Plain (depth + 1) (.map (record fields))

/-- **Plain values keep the contract.** -/
theorem Plain.readsBack (hstyle : style.sorted = false) (h : Plain depth v) :
    ReadsBack style depth v := by
  -- By the structure of the value: its parts keep the contract one level further down.
  induction h with
  | text depth s => exact readsBack_string style depth s
  | int depth short => exact readsBack_int style depth short
  | list inner ih => exact readsBack_list ih
  | map distinct inner ih => exact readsBack_map hstyle ih distinct

/-- A whole text is read as the value at its front, where nothing but blanks comes after. -/
theorem read_append_of_readValue {text tail : List Char} (hstarts : Starts text)
    (hread : ∀ fuel, text.length ≤ fuel → readValue fuel maxDepth (text ++ tail) = .ok (v, tail))
    (hblank : skipGap tail = []) : read (String.ofList (text ++ tail)) = .ok v := by
  have hstart := hstarts.append tail
  have hvalue := hread (2 * (text ++ tail).length + 2) (by rw [List.length_append]; omega)
  have hall : readAll (text ++ tail) = .ok v := by
    unfold readAll
    split
    · next more hmark =>
      obtain ⟨c, more', hcons, -, -, hother⟩ := hstart
      exact absurd (List.cons.inj (hcons.symm.trans hmark)).1 hother
    · rw [hstart.skipGap_eq, hvalue]
      simp [hblank]
  rw [read, String.toList_ofList, hall]
  rfl

/-- **The whole text of a plain value gives it back**, also with a line end after it. -/
theorem Plain.read_encode (hstyle : style.sorted = false) (h : Plain maxDepth v) :
    ∃ text, encode style v = .ok (String.ofList text) ∧ '\r' ∉ text ∧
      ∀ tail, Ends tail → skipGap tail = [] → read (String.ofList (text ++ tail)) = .ok v := by
  obtain ⟨text, hwrite, hstarts, hclean, hread⟩ := h.readsBack hstyle 0
  refine ⟨text, ?_, hclean, fun tail hends hblank => ?_⟩
  · rw [encode, hwrite, Text.ofString, String.toList_ofList]
    rfl
  exact read_append_of_readValue hstarts (fun fuel hfuel => hread fuel tail hfuel hends) hblank

end Gleaner.Json
