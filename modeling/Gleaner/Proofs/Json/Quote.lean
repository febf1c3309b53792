import Gleaner.Json.Quote
import Gleaner.Json.Read
import Gleaner.Proofs.Text.Utf8

/-!
# Quoted text is read back

A character is written inside quotes in one of three ways: as it is, as a letter after a backslash, or as
one or two hexadecimal units. The reader undoes each of them in one step, so it goes over a quoted text
character by character and gives the text back.

A unit is only read where something follows it. Inside quotes something always does, if only the closing
quote.

A surrogate is a unit by itself, and two of them one after the other can look like a character that was
written as a pair. So a text is read back up to that: where the halves of a pair meet, they become one
character.

## Main definitions

* `paired`: code points in which the halves of pairs are put together
* `escaped`: the characters of a code point inside quotes

## Main results

* `readString_escape`: one character, however it is written
* `readString_flatMap`: a whole text
* `quote_eq`: the quoted text that is made of characters
-/

namespace Gleaner.Json

open Gleaner.Utf16

variable {start rest left : List Char} {done : List CodePoint} {c d letter : Char} {charset : Charset}
  {unit : ℕ}

/-! ## Units -/

theorem hexValue?_hexDigit : ∀ n < 16, hexValue? (Text.hexDigit n) = some n := by
  decide

theorem hexText_four (n : ℕ) :
    Text.hexText 4 n = [Text.hexDigit (n / 16 / 16 / 16 % 16), Text.hexDigit (n / 16 / 16 % 16),
      Text.hexDigit (n / 16 % 16), Text.hexDigit (n % 16)] := by
  simp [Text.hexText]

theorem readUnit?_hexText (h : unit < 0x10000) (c : Char) (rest : List Char) :
    readUnit? (Text.hexText 4 unit ++ c :: rest) = some (unit, c :: rest) := by
  have hdigit (n : ℕ) : hexValue? (Text.hexDigit (n % 16)) = some (n % 16) :=
    hexValue?_hexDigit _ (Nat.mod_lt _ (by decide))
  have hsum : ((unit / 16 / 16 / 16 % 16 * 16 + unit / 16 / 16 % 16) * 16 + unit / 16 % 16) * 16 +
      unit % 16 = unit := by omega
  simp [hexText_four, readUnit?, hdigit, hsum]

/-! ## Escapes -/

theorem unescape?_of_shortEscape? (h : shortEscape? c = some letter) :
    unescape? letter = some c ∧ letter ≠ 'u' := by
  unfold shortEscape? at h
  split_ifs at h with h₁ h₂ h₃ h₄ h₅ h₆ h₇ <;> cases h <;> subst_vars <;> decide

theorem readEscape_letter (h : shortEscape? c = some letter) :
    readEscape start (letter :: rest) = .ok (c, rest) := by
  obtain ⟨hletter, hunit⟩ := unescape?_of_shortEscape? h
  simp [readEscape, hunit, hletter]

/-- A character of the first plane is one unit, which is no half of a pair. -/
theorem readEscape_unit (h : c.toNat < 0x10000) :
    readEscape start ('u' :: Text.hexText 4 c.toNat ++ d :: rest) = .ok (c, d :: rest) := by
  have hvalid := Utf8.isValidChar_toNat c
  have hhigh : isHigh c.toNat = false := by
    simp only [isHigh, Bool.and_eq_false_iff, decide_eq_false_iff_not]
    omega
  have hunit : unitPoint c.toNat = .char c := by
    rw [unitPoint, dif_neg (by omega), Char.ofNat_toNat]
  simp [readEscape, readUnit?_hexText h, hhigh, hunit]

theorem readEscape_units {high low : ℕ} (hhigh : isHigh high = true) (hlow : isLow low = true) :
    readEscape start ('u' :: Text.hexText 4 high ++ unitEscape low ++ d :: rest) =
      .ok (pairChar high low, d :: rest) := by
  have hhigh_lt : high < 0x10000 := by
    simp only [isHigh, Bool.and_eq_true, decide_eq_true_eq] at hhigh
    omega
  have hlow_lt : low < 0x10000 := by
    simp only [isLow, Bool.and_eq_true, decide_eq_true_eq] at hlow
    omega
  have hfirst := readUnit?_hexText hhigh_lt '\\' ('u' :: Text.hexText 4 low ++ d :: rest)
  have hsecond := readUnit?_hexText hlow_lt d rest
  simp only [unitEscape, List.cons_append, List.append_assoc] at hfirst ⊢
  simp [readEscape, hfirst, hhigh, readLow, hsecond, hlow]

/-- Any other character is a pair, and the pair gives it back. -/
theorem pairChar_of_le (h : 0x10000 ≤ c.toNat) :
    pairChar (0xd800 + (c.toNat - 0x10000) / 0x400) (0xdc00 + (c.toNat - 0x10000) % 0x400) = c := by
  have hsum : 0x10000 + (0xd800 + (c.toNat - 0x10000) / 0x400 - 0xd800) * 0x400 +
      (0xdc00 + (c.toNat - 0x10000) % 0x400 - 0xdc00) = c.toNat := by omega
  rw [pairChar, hsum, Char.ofNat_toNat]

theorem isHigh_div (c : Char) : isHigh (0xd800 + (c.toNat - 0x10000) / 0x400) = true := by
  have hvalid := Utf8.isValidChar_toNat c
  simp only [isHigh, Bool.and_eq_true, decide_eq_true_eq]
  omega

theorem isLow_mod (n : ℕ) : isLow (0xdc00 + n % 0x400) = true := by
  simp only [isLow, Bool.and_eq_true, decide_eq_true_eq]
  omega

/-! ## Strings -/

theorem readString_closing :
    readString start done ('"' :: rest) = .ok (Text.ofList done.reverse, rest) := by
  rw [readString, if_pos rfl]

theorem readString_escaped {point : CodePoint} (h : readEscape start rest = .ok (point, left)) :
    readString start done ('\\' :: rest) = readString start (point :: done) left := by
  rw [readString, if_neg (by decide), if_pos rfl]
  split
  · next e he => cases h.symm.trans he
  · next point' left' he =>
    cases h.symm.trans he
    rfl

theorem readString_plain (hquote : c ≠ '"') (hslash : c ≠ '\\') (hcontrol : 0x20 ≤ c.toNat) :
    readString start done (c :: rest) = readString start (c :: done) rest := by
  rw [readString, if_neg hquote, if_neg hslash, if_neg (Nat.not_lt.mpr hcontrol)]

theorem le_toNat_of_keeps (h : charset.keeps c = true) : 0x20 ≤ c.toNat := by
  cases charset <;> simp_all [Charset.keeps]

/-- **One character is read back**, however it is written. -/
theorem readString_escape (charset : Charset) (c : Char) :
    readString start done (escape charset c ++ d :: rest) = readString start (c :: done) (d :: rest) := by
  unfold escape
  split
  · next letter hletter => exact readString_escaped (readEscape_letter hletter)
  · next hnone =>
    split_ifs with hkeeps
    · refine readString_plain ?_ ?_ (le_toNat_of_keeps hkeeps)
      · rintro rfl
        cases hnone
      · rintro rfl
        cases hnone
    · unfold unicodeEscape
      split_ifs with hplane
      · exact readString_escaped (readEscape_unit hplane)
      · refine readString_escaped ((readEscape_units (isHigh_div c) (isLow_mod _)).trans ?_)
        rw [pairChar_of_le (Nat.le_of_not_lt hplane)]

/-! ## Surrogates -/

/-- Code points in which the halves of pairs are put together. -/
def paired : List CodePoint → List CodePoint
  | .surrogate high :: .surrogate low :: rest =>
    if isHigh (0xd800 + high) && isLow (0xd800 + low) then
      .char (pairChar (0xd800 + high) (0xd800 + low)) :: paired rest
    else .surrogate high :: paired (.surrogate low :: rest)
  | c :: rest => c :: paired rest
  | [] => []

/-- Characters are no halves of pairs. -/
theorem paired_map_char (cs : List Char) : paired (cs.map .char) = cs.map .char := by
  induction cs with
  | nil => rfl
  | cons c rest ih => rw [List.map_cons, paired, ih]; simp

/-- The characters of a code point inside quotes. -/
def escaped (charset : Charset) : CodePoint → List Char
  | .char c => escape charset c
  | .surrogate offset => unitEscape (0xd800 + offset)

theorem readLow_unitEscape (hunit : unit < 0x10000) (hlow : isLow unit = false) :
    readLow (unitEscape unit ++ d :: rest) = .ok (none, unitEscape unit ++ d :: rest) := by
  simp [unitEscape, readLow, readUnit?_hexText hunit, hlow]

theorem isLow_toNat (c : Char) : isLow c.toNat = false := by
  have hvalid := Utf8.isValidChar_toNat c
  simp only [isLow, Bool.and_eq_false_iff, decide_eq_false_iff_not]
  omega

theorem isLow_of_isHigh (h : isHigh unit = true) : isLow unit = false := by
  simp only [isHigh, Bool.and_eq_true, decide_eq_true_eq] at h
  simp only [isLow, Bool.and_eq_false_iff, decide_eq_false_iff_not]
  omega

/-- A character is never taken for the second half of a pair. -/
theorem readLow_escape (charset : Charset) (c : Char) :
    readLow (escape charset c ++ d :: rest) = .ok (none, escape charset c ++ d :: rest) := by
  unfold escape
  split
  · next letter hletter =>
    have hunit := (unescape?_of_shortEscape? hletter).2
    simp [readLow, hunit]
  · next hnone =>
    split_ifs
    · have hslash : c ≠ '\\' := by
        rintro rfl
        cases hnone
      simp [readLow, hslash]
    · unfold unicodeEscape
      split_ifs with hplane
      · exact readLow_unitEscape hplane (isLow_toNat c)
      · have hhigh := isHigh_div c
        have hvalid := Utf8.isValidChar_toNat c
        -- the first unit is no second half, and the escape of the second follows it
        have hfirst : ∀ more, readLow (unitEscape (0xd800 + (c.toNat - 0x10000) / 0x400) ++ '\\' :: more) =
            .ok (none, unitEscape (0xd800 + (c.toNat - 0x10000) / 0x400) ++ '\\' :: more) :=
          fun more => readLow_unitEscape (by omega) (isLow_of_isHigh hhigh)
        simpa [unitEscape] using
          hfirst ('u' :: Text.hexText 4 (0xdc00 + (c.toNat - 0x10000) % 0x400) ++ d :: rest)

/-- Half a pair alone is read back as a surrogate. -/
theorem readString_surrogate (offset : Fin 0x800)
    (halone : isHigh (0xd800 + offset) = true → readLow (d :: rest) = .ok (none, d :: rest)) :
    readString start done (unitEscape (0xd800 + offset) ++ d :: rest) =
      readString start (.surrogate offset :: done) (d :: rest) := by
  have hunit := readUnit?_hexText (by omega : 0xd800 + offset.val < 0x10000) d rest
  have hpoint : unitPoint (0xd800 + offset) = .surrogate offset := by
    rw [unitPoint, dif_pos (by omega)]
    simp
  refine readString_escaped ?_
  cases hhigh : isHigh (0xd800 + offset) with
  | false => simp [readEscape, hunit, hhigh, hpoint]
  | true => simp [readEscape, hunit, hhigh, hpoint, halone hhigh]

theorem readString_pair {high low : ℕ} (hhigh : isHigh high = true) (hlow : isLow low = true) :
    readString start done (unitEscape high ++ (unitEscape low ++ d :: rest)) =
      readString start (.char (pairChar high low) :: done) (d :: rest) := by
  have hpair : readEscape start _ = .ok (.char (pairChar high low), d :: rest) :=
    readEscape_units hhigh hlow
  rw [List.append_assoc] at hpair
  exact readString_escaped hpair

/-- **A quoted text is read back**, up to halves of pairs that meet. The code points before it are in
`done`. -/
theorem readString_flatMap (charset : Charset) (start : List Char) (done text : List CodePoint)
    (rest : List Char) :
    readString start done (text.flatMap (escaped charset) ++ '"' :: rest) =
      .ok (.ofList (done.reverse ++ paired text), rest) := by
  -- What follows a code point is not empty: it holds at least the closing quote.
  have hmore (text : List CodePoint) : ∃ d more,
      text.flatMap (escaped charset) ++ '"' :: rest = d :: more :=
    List.exists_cons_of_ne_nil (by simp)
  fun_induction paired text generalizing done with
  | case1 high low text hpair ih =>
    rw [Bool.and_eq_true] at hpair
    obtain ⟨d, more, hcons⟩ := hmore text
    simp only [List.flatMap_cons, List.append_assoc, escaped]
    rw [hcons, readString_pair hpair.1 hpair.2, ← hcons, ih]
    simp
  | case2 high low text hpair ih =>
    obtain ⟨d, more, hcons⟩ := hmore (.surrogate low :: text)
    obtain ⟨d', more', hcons'⟩ := hmore text
    rw [List.flatMap_cons, List.append_assoc, hcons, escaped, readString_surrogate, ← hcons, ih]
    · simp
    · -- the second is no second half, since the two are no pair
      intro hhigh
      have hlow : isLow (0xd800 + low) = false := by simpa [hhigh] using hpair
      rw [← hcons, List.flatMap_cons, List.append_assoc, hcons', escaped]
      exact readLow_unitEscape (by omega) hlow
  | case3 c text hsingle ih =>
    obtain ⟨d, more, hcons⟩ := hmore text
    rw [List.flatMap_cons, List.append_assoc, hcons]
    cases c with
    | char c =>
      rw [escaped, readString_escape, ← hcons, ih]
      simp
    | surrogate offset =>
      rw [escaped, readString_surrogate, ← hcons, ih]
      · simp
      · -- a character follows, or the closing quote
        intro _
        rw [← hcons]
        cases text with
        | nil => rfl
        | cons next text =>
          obtain ⟨d', more', hcons'⟩ := hmore text
          cases next with
          | char c =>
            rw [List.flatMap_cons, List.append_assoc, hcons']
            exact readLow_escape charset c
          | surrogate low => exact (hsingle offset low text rfl rfl).elim
  | case4 => simp [readString_closing]

/-! ## Quoted texts -/

/-- The characters of a text in quotes. -/
def quotedChars (charset : Charset) (text : List CodePoint) : List Char :=
  '"' :: text.flatMap (escaped charset) ++ ['"']

theorem escapePoint_eq {point : CodePoint} (h : charset = .ascii ∨ ∀ offset, point ≠ .surrogate offset) :
    escapePoint charset point = (escaped charset point).map .char := by
  cases point with
  | char c => rfl
  | surrogate offset =>
    rcases h with rfl | h
    · rfl
    · exact absurd rfl (h offset)

/-- **A quoted text is made of characters**, if all surrogates are escaped or there are none. -/
theorem quote_eq {text : List CodePoint}
    (h : charset = .ascii ∨ ∀ offset, CodePoint.surrogate offset ∉ text) :
    quote charset text = (quotedChars charset text).map .char := by
  have hpoints : text.flatMap (escapePoint charset) =
      (text.flatMap (escaped charset)).map CodePoint.char := by
    rw [List.map_flatMap]
    refine List.flatMap_congr fun point hpoint => escapePoint_eq (h.imp_right fun hnone offset => ?_)
    rintro rfl
    exact hnone offset hpoint
  simp [quote, quotedChars, hpoints]

theorem quote_ofString (charset : Charset) (s : String) :
    quote charset (s : Text).toList = (quotedChars charset (s : Text).toList).map .char :=
  quote_eq (.inr fun offset => by simp)

end Gleaner.Json
