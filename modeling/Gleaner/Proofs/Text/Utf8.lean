import Mathlib.Data.List.Basic
import Mathlib.Tactic.SplitIfs
import Gleaner.Text.Utf8

/-!
# Reading UTF-8 is the way back from writing it

Bytes are read as a text just when they are what the text is written as. The reader goes by the range
of the first byte and narrows the range of the second one; the writer goes by the size of the code
point. That the two agree comes down to one character: there are four lengths, and in each of them the
narrowed range is what keeps overlong forms, surrogates and too large code points out.

Two facts follow for texts that are cut and counted as bytes. A cut between two characters cuts both
the text and its bytes, and a line feed is written as the byte `0x0a`, which no other character has.

A text is written just when it has no surrogate, that is, when it is a string.

## Main results

* `first_encodeChar`, `encodeChar_of_first`: one character, both ways
* `decode_eq_ok_iff`: reading succeeds just on what was written
* `count_lineFeed_encode`: line feeds can be counted in the bytes
* `Text.encode_eq_ok_iff`, `Text.exists_encode_eq_error_iff`: which texts are written
-/

namespace Gleaner.Utf8

variable {b b₁ b₂ b₃ : UInt8} {bytes rest : Bytes} {c : Char} {bits n k low high : ℕ}

/-! ## One character -/

/-- A byte that starts a character is in one of four ranges, by the number of bytes that follow. -/
theorem lead?_cases (b : ℕ) :
    lead? b = none ∨ b < 0x80 ∨ (0xc2 ≤ b ∧ b < 0xe0) ∨ (0xe0 ≤ b ∧ b < 0xf0) ∨
      (0xf0 ≤ b ∧ b < 0xf5) := by
  unfold lead?
  grind

theorem lead?_one {b : ℕ} (h : b < 0x80) : lead? b = some ⟨b, 0, 0x80, 0xbf⟩ := by
  rw [lead?, if_pos h]

theorem lead?_two {b : ℕ} (hlow : 0xc2 ≤ b) (hhigh : b < 0xe0) :
    lead? b = some ⟨b - 0xc0, 1, 0x80, 0xbf⟩ := by
  rw [lead?, if_neg (by omega), if_neg (by omega), if_pos hhigh]

theorem lead?_three {b : ℕ} (hlow : 0xe0 ≤ b) (hhigh : b < 0xf0) :
    lead? b =
      some ⟨b - 0xe0, 2, if b = 0xe0 then 0xa0 else 0x80, if b = 0xed then 0x9f else 0xbf⟩ := by
  unfold lead?
  grind

theorem lead?_four {b : ℕ} (hlow : 0xf0 ≤ b) (hhigh : b < 0xf5) :
    lead? b =
      some ⟨b - 0xf0, 3, if b = 0xf0 then 0x90 else 0x80, if b = 0xf4 then 0x8f else 0xbf⟩ := by
  unfold lead?
  grind

/-- If a byte more was read, it was in range. -/
theorem exists_of_continued_succ (h : continued bits (n + 1) low high bytes = (.ok c, k)) :
    ∃ b rest j, bytes = b :: rest ∧ low ≤ b.toNat ∧ b.toNat ≤ high ∧
      continued (bits * 64 + (b.toNat - 0x80)) n 0x80 0xbf rest = (.ok c, j) ∧ k = j + 1 := by
  cases bytes with
  | nil => cases h
  | cons b rest =>
    rw [continued] at h
    split_ifs at h with hrange
    · simp only [Bool.and_eq_true, decide_eq_true_eq] at hrange
      obtain ⟨hresult, rfl⟩ := Prod.mk.inj h
      exact ⟨b, rest, _, rfl, hrange.1, hrange.2, Prod.ext hresult rfl, rfl⟩
    · cases (Prod.mk.inj h).1

theorem toNat_ofNat_of_lt (h : n < 0x100) : (UInt8.ofNat n).toNat = n := by
  rw [UInt8.toNat_ofNat', Nat.mod_eq_of_lt h]

theorem isValidChar_toNat (c : Char) :
    c.toNat < 0xd800 ∨ 0xdfff < c.toNat ∧ c.toNat < 0x110000 :=
  c.valid

/-- The first byte of a character settles how its other bytes are read. -/
theorem first_of_lead? (hlead : lead? b.toNat = some ⟨bits, n, low, high⟩) (bytes : Bytes) :
    first b bytes = continued bits n low high bytes := by
  rw [first, hlead]

theorem first_ofNat {b : ℕ} (hb : b < 0x100) (hlead : lead? b = some ⟨bits, n, low, high⟩)
    (bytes : Bytes) : first (UInt8.ofNat b) bytes = continued bits n low high bytes := by
  apply first_of_lead?
  rw [toNat_ofNat_of_lt hb, hlead]

/-- One byte more of a character that was written. -/
theorem continued_ofNat {b : ℕ} (hlow : low ≤ b) (hhigh : b ≤ high) (hbyte : high < 0x100)
    (h : continued (bits * 64 + (b - 0x80)) n 0x80 0xbf rest = (.ok c, k)) :
    continued bits (n + 1) low high (UInt8.ofNat b :: rest) = (.ok c, k + 1) := by
  have hb : (UInt8.ofNat b).toNat = b := toNat_ofNat_of_lt (by omega)
  rw [continued, hb, if_pos (by simp [hlow, hhigh]), h]

/-- The last byte of a character that was written. -/
theorem continued_last (rest : Bytes) (h : bits = c.toNat) :
    continued bits 0 low high rest = (.ok c, 0) := by
  rw [continued, h, Char.ofNat_toNat]

/-- The bytes of a character, by the size of its code point. -/
theorem encodeChar_eq (c : Char) :
    String.utf8EncodeChar c =
      if c.toNat ≤ 0x7f then [UInt8.ofNat c.toNat]
      else if c.toNat ≤ 0x7ff then
        [UInt8.ofNat (c.toNat / 64 % 32 + 0xc0), UInt8.ofNat (c.toNat % 64 + 0x80)]
      else if c.toNat ≤ 0xffff then
        [UInt8.ofNat (c.toNat / 4096 % 16 + 0xe0), UInt8.ofNat (c.toNat / 64 % 64 + 0x80),
          UInt8.ofNat (c.toNat % 64 + 0x80)]
      else
        [UInt8.ofNat (c.toNat / 262144 % 8 + 0xf0), UInt8.ofNat (c.toNat / 4096 % 64 + 0x80),
          UInt8.ofNat (c.toNat / 64 % 64 + 0x80), UInt8.ofNat (c.toNat % 64 + 0x80)] :=
  rfl

/-- **A character that was written is read.** The cases are the four lengths; in each of them the code
point is put together again from its digits to base 64. -/
theorem first_encodeChar (c : Char) (rest : Bytes) :
    ∃ b tail, String.utf8EncodeChar c = b :: tail ∧
      first b (tail ++ rest) = (.ok c, tail.length) := by
  have hvalid := isValidChar_toNat c
  rw [encodeChar_eq]
  split_ifs with hone htwo hthree
  · refine ⟨_, [], rfl, ?_⟩
    rw [first_ofNat (by omega) (lead?_one (by omega))]
    exact continued_last rest rfl
  · refine ⟨_, [_], rfl, ?_⟩
    rw [first_ofNat (by omega) (lead?_two (by omega) (by omega))]
    apply continued_ofNat (by omega) (by omega) (by omega)
    exact continued_last _ (by omega)
  · refine ⟨_, [_, _], rfl, ?_⟩
    rw [first_ofNat (by omega) (lead?_three (by omega) (by omega))]
    -- the second byte is in the narrowed range, as the code point is neither small nor a surrogate
    apply continued_ofNat (by split_ifs <;> omega) (by split_ifs <;> omega) (by split_ifs <;> omega)
    apply continued_ofNat (by omega) (by omega) (by omega)
    exact continued_last _ (by omega)
  · refine ⟨_, [_, _, _], rfl, ?_⟩
    rw [first_ofNat (by omega) (lead?_four (by omega) (by omega))]
    apply continued_ofNat (by split_ifs <;> omega) (by split_ifs <;> omega) (by split_ifs <;> omega)
    apply continued_ofNat (by omega) (by omega) (by omega)
    apply continued_ofNat (by omega) (by omega) (by omega)
    exact continued_last _ (by omega)

theorem ofNat_eq_of_toNat (h : n = b.toNat) : UInt8.ofNat n = b := by
  rw [h, UInt8.ofNat_toNat]

/-- A number that is a code point is the one of its character. -/
theorem toNat_char (h : n < 0xd800 ∨ 0xdfff < n ∧ n < 0x110000) : (Char.ofNat n).toNat = n := by
  have hvalid : n.isValidChar := h
  rw [Char.ofNat, dif_pos hvalid]
  rfl

theorem eq_of_continued_zero (h : continued bits 0 low high bytes = (.ok c, k)) :
    c = Char.ofNat bits ∧ k = 0 := by
  rw [continued] at h
  obtain ⟨hc, hk⟩ := Prod.mk.inj h
  exact ⟨(Except.ok.inj hc).symm, hk.symm⟩

/-- A character of one byte is written as the byte it was read from. -/
theorem encodeChar_one (hb : b.toNat < 0x80) : String.utf8EncodeChar (Char.ofNat b.toNat) = [b] := by
  rw [encodeChar_eq, toNat_char (by omega), if_pos (by omega), ofNat_eq_of_toNat rfl]

theorem encodeChar_two (hlow : 0xc2 ≤ b.toNat) (hhigh : b.toNat < 0xe0)
    (hlow₁ : 0x80 ≤ b₁.toNat) (hhigh₁ : b₁.toNat ≤ 0xbf) :
    String.utf8EncodeChar (Char.ofNat ((b.toNat - 0xc0) * 64 + (b₁.toNat - 0x80))) = [b, b₁] := by
  rw [encodeChar_eq, toNat_char (by omega), if_neg (by omega), if_pos (by omega),
    ofNat_eq_of_toNat (b := b) (by omega), ofNat_eq_of_toNat (b := b₁) (by omega)]

/-- Three bytes: the narrowed range of the second one leaves out small code points and surrogates. -/
theorem encodeChar_three (hlow : 0xe0 ≤ b.toNat) (hhigh : b.toNat < 0xf0)
    (hlow₁ : (if b.toNat = 0xe0 then 0xa0 else 0x80) ≤ b₁.toNat)
    (hhigh₁ : b₁.toNat ≤ if b.toNat = 0xed then 0x9f else 0xbf)
    (hlow₂ : 0x80 ≤ b₂.toNat) (hhigh₂ : b₂.toNat ≤ 0xbf) :
    String.utf8EncodeChar (Char.ofNat
      (((b.toNat - 0xe0) * 64 + (b₁.toNat - 0x80)) * 64 + (b₂.toNat - 0x80))) = [b, b₁, b₂] := by
  have hsecond : (b.toNat = 0xe0 → 0xa0 ≤ b₁.toNat) ∧ 0x80 ≤ b₁.toNat ∧
      (b.toNat = 0xed → b₁.toNat ≤ 0x9f) ∧ b₁.toNat ≤ 0xbf := by
    split_ifs at hlow₁ hhigh₁ <;> omega
  clear hlow₁ hhigh₁
  rw [encodeChar_eq, toNat_char (by omega), if_neg (by omega), if_neg (by omega), if_pos (by omega),
    ofNat_eq_of_toNat (b := b) (by omega), ofNat_eq_of_toNat (b := b₁) (by omega),
    ofNat_eq_of_toNat (b := b₂) (by omega)]

/-- Four bytes: the narrowed range of the second one leaves out small and too large code points. -/
theorem encodeChar_four (hlow : 0xf0 ≤ b.toNat) (hhigh : b.toNat < 0xf5)
    (hlow₁ : (if b.toNat = 0xf0 then 0x90 else 0x80) ≤ b₁.toNat)
    (hhigh₁ : b₁.toNat ≤ if b.toNat = 0xf4 then 0x8f else 0xbf)
    (hlow₂ : 0x80 ≤ b₂.toNat) (hhigh₂ : b₂.toNat ≤ 0xbf)
    (hlow₃ : 0x80 ≤ b₃.toNat) (hhigh₃ : b₃.toNat ≤ 0xbf) :
    String.utf8EncodeChar (Char.ofNat ((((b.toNat - 0xf0) * 64 + (b₁.toNat - 0x80)) * 64 +
      (b₂.toNat - 0x80)) * 64 + (b₃.toNat - 0x80))) = [b, b₁, b₂, b₃] := by
  have hsecond : (b.toNat = 0xf0 → 0x90 ≤ b₁.toNat) ∧ 0x80 ≤ b₁.toNat ∧
      (b.toNat = 0xf4 → b₁.toNat ≤ 0x8f) ∧ b₁.toNat ≤ 0xbf := by
    split_ifs at hlow₁ hhigh₁ <;> omega
  clear hlow₁ hhigh₁
  rw [encodeChar_eq, toNat_char (by omega), if_neg (by omega), if_neg (by omega), if_neg (by omega),
    ofNat_eq_of_toNat (b := b) (by omega), ofNat_eq_of_toNat (b := b₁) (by omega),
    ofNat_eq_of_toNat (b := b₂) (by omega), ofNat_eq_of_toNat (b := b₃) (by omega)]

/-- **A character that was read is written so.** The cases are the ranges of the first byte. -/
theorem encodeChar_of_first (h : first b bytes = (.ok c, k)) :
    ∃ tail rest, bytes = tail ++ rest ∧ k = tail.length ∧ String.utf8EncodeChar c = b :: tail := by
  rcases lead?_cases b.toNat with hlead | hone | ⟨hlow, hhigh⟩ | ⟨hlow, hhigh⟩ | ⟨hlow, hhigh⟩
  · rw [first, hlead] at h
    cases (Prod.mk.inj h).1
  · rw [first_of_lead? (lead?_one hone)] at h
    obtain ⟨hc, hk⟩ := eq_of_continued_zero h
    exact ⟨[], bytes, rfl, hk, by rw [hc, encodeChar_one hone]⟩
  · rw [first_of_lead? (lead?_two hlow hhigh)] at h
    obtain ⟨b₁, rest₁, k₁, rfl, hlow₁, hhigh₁, h₁, rfl⟩ := exists_of_continued_succ h
    obtain ⟨hc, hk⟩ := eq_of_continued_zero h₁
    refine ⟨[b₁], rest₁, rfl, by rw [hk]; rfl, ?_⟩
    rw [hc, encodeChar_two hlow hhigh hlow₁ hhigh₁]
  · rw [first_of_lead? (lead?_three hlow hhigh)] at h
    obtain ⟨b₁, rest₁, k₁, rfl, hlow₁, hhigh₁, h₁, rfl⟩ := exists_of_continued_succ h
    obtain ⟨b₂, rest₂, k₂, rfl, hlow₂, hhigh₂, h₂, rfl⟩ := exists_of_continued_succ h₁
    obtain ⟨hc, hk⟩ := eq_of_continued_zero h₂
    refine ⟨[b₁, b₂], rest₂, rfl, by rw [hk]; rfl, ?_⟩
    rw [hc, encodeChar_three hlow hhigh hlow₁ hhigh₁ hlow₂ hhigh₂]
  · rw [first_of_lead? (lead?_four hlow hhigh)] at h
    obtain ⟨b₁, rest₁, k₁, rfl, hlow₁, hhigh₁, h₁, rfl⟩ := exists_of_continued_succ h
    obtain ⟨b₂, rest₂, k₂, rfl, hlow₂, hhigh₂, h₂, rfl⟩ := exists_of_continued_succ h₁
    obtain ⟨b₃, rest₃, k₃, rfl, hlow₃, hhigh₃, h₃, rfl⟩ := exists_of_continued_succ h₂
    obtain ⟨hc, hk⟩ := eq_of_continued_zero h₃
    refine ⟨[b₁, b₂, b₃], rest₃, rfl, by rw [hk]; rfl, ?_⟩
    rw [hc, encodeChar_four hlow hhigh hlow₁ hhigh₁ hlow₂ hhigh₂ hlow₃ hhigh₃]

/-! ## Texts -/

/-- A character that was written comes back as one chunk. -/
theorem chunks_encodeChar (c : Char) (rest : Bytes) :
    chunks (String.utf8EncodeChar c ++ rest) = ⟨.ok c, String.utf8EncodeChar c⟩ :: chunks rest := by
  obtain ⟨b, tail, hc, hfirst⟩ := first_encodeChar c rest
  rw [hc, List.cons_append, chunks, hfirst]
  simp only [List.take_left, List.drop_left]

theorem decodeChunks_flatMap (cs : List Char) (position : ℕ) :
    decodeChunks position (chunks (cs.flatMap String.utf8EncodeChar)) = .ok cs := by
  induction cs generalizing position with
  | nil =>
    rw [List.flatMap_nil, chunks]
    rfl
  | cons c rest ih =>
    rw [List.flatMap_cons, chunks_encodeChar]
    simp only [decodeChunks, ih, Except.map]

/-- Characters that were read are written as the bytes they were read from. -/
theorem flatMap_of_decodeChunks {cs : List Char} {position : ℕ}
    (h : decodeChunks position (chunks bytes) = .ok cs) :
    bytes = cs.flatMap String.utf8EncodeChar := by
  fun_induction chunks bytes generalizing cs position with
  | case1 =>
    cases h
    rfl
  | case2 b rest result taken hfirst ih =>
    cases result with
    | error reason => cases h
    | ok c =>
      -- the first chunk is what its character is written as, and the other chunks start right behind
      obtain ⟨tail, later, rfl, rfl, hc⟩ := encodeChar_of_first hfirst
      rw [decodeChunks] at h
      simp only [List.drop_left] at h ih
      cases hlater : decodeChunks (position + (b :: (tail ++ later).take tail.length).length)
          (chunks later) with
      | error e =>
        rw [hlater] at h
        cases h
      | ok others =>
        rw [hlater] at h
        cases h
        rw [List.flatMap_cons, hc, List.cons_append, ← ih hlater]

/-- **Reading succeeds just on what was written**: bytes are read as a text if and only if they are
the bytes of that text. -/
theorem decode_eq_ok_iff {s : String} : decode bytes = .ok s ↔ bytes = encode s := by
  rw [decode, encode]
  constructor
  · intro h
    cases hchunks : decodeChunks 0 (chunks bytes) with
    | error e =>
      rw [hchunks] at h
      cases h
    | ok cs =>
      rw [hchunks] at h
      cases h
      rw [String.toList_ofList]
      exact flatMap_of_decodeChunks hchunks
  · rintro rfl
    rw [decodeChunks_flatMap]
    simp only [Except.map, String.ofList_toList]

/-! ## Cuts and line feeds -/

theorem encode_append (s t : String) : encode (s ++ t) = encode s ++ encode t := by
  rw [encode, String.toList_append, List.flatMap_append]
  rfl

/-- Only the empty text has no bytes. -/
theorem eq_empty_of_encode {s : String} (h : encode s = []) : s = "" := by
  rw [← String.toList_eq_nil_iff]
  cases hs : s.toList with
  | nil => rfl
  | cons c rest =>
    obtain ⟨b, tail, hc, -⟩ := first_encodeChar c []
    rw [encode, hs, List.flatMap_cons, hc] at h
    cases h

/-- All bytes of a character that has more than one are large. -/
theorem le_toNat_of_mem_encodeChar (h : 0x7f < c.toNat) (hb : b ∈ String.utf8EncodeChar c) :
    0x80 ≤ b.toNat := by
  have hvalid := isValidChar_toNat c
  rw [encodeChar_eq, if_neg (by omega)] at hb
  split_ifs at hb <;> simp only [List.mem_cons, List.not_mem_nil, or_false] at hb
  · rcases hb with rfl | rfl <;> rw [toNat_ofNat_of_lt] <;> omega
  · rcases hb with rfl | rfl | rfl <;> rw [toNat_ofNat_of_lt] <;> omega
  · rcases hb with rfl | rfl | rfl | rfl <;> rw [toNat_ofNat_of_lt] <;> omega

/-- A line feed is written as one byte, which no other character has. -/
theorem count_lineFeed_encodeChar (c : Char) :
    (String.utf8EncodeChar c).count 0x0a = if c = '\n' then 1 else 0 := by
  by_cases hone : c.toNat ≤ 0x7f
  · have hc : UInt8.ofNat c.toNat = 0x0a ↔ c = '\n' := by
      rw [← UInt8.toNat_inj, toNat_ofNat_of_lt (by omega), ← Char.toNat_inj]
      rfl
    rw [encodeChar_eq, if_pos hone, List.count_singleton]
    simp only [beq_iff_eq, hc]
  · have hc : c ≠ '\n' := by
      rintro rfl
      exact hone (by decide)
    rw [if_neg hc, List.count_eq_zero]
    intro hmem
    exact absurd (le_toNat_of_mem_encodeChar (by omega) hmem) (by decide)

/-- Line feeds can be counted in the bytes. -/
theorem count_lineFeed_encode (s : String) : (encode s).count 0x0a = s.toList.count '\n' := by
  rw [encode]
  induction s.toList with
  | nil => rfl
  | cons c rest ih =>
    rw [List.flatMap_cons, List.count_append, ih, count_lineFeed_encodeChar, List.count_cons,
      Nat.add_comm]
    simp only [beq_iff_eq]

end Gleaner.Utf8

/-! ## Texts -/

namespace Gleaner.Text

open Gleaner.Utf8 (Bytes)

variable {s t : Text}

/-- Some code point of a text is a surrogate. -/
def HasSurrogate (s : Text) : Prop :=
  ∃ offset, CodePoint.surrogate offset ∈ s.toList

@[simp] theorem hasSurrogate_append : (s ++ t).HasSurrogate ↔ s.HasSurrogate ∨ t.HasSurrogate := by
  simp [HasSurrogate, exists_or]

@[simp] theorem not_hasSurrogate_ofString (a : String) : ¬ (a : Text).HasSurrogate := by
  simp [HasSurrogate]

/-- Code points without a surrogate are the characters among them. -/
theorem map_char_filterMap {cs : List CodePoint} (h : ∀ offset, CodePoint.surrogate offset ∉ cs) :
    (cs.filterMap CodePoint.char?).map CodePoint.char = cs := by
  induction cs with
  | nil => rfl
  | cons c rest ih =>
    have hrest := ih fun offset hmem => h offset (List.mem_cons_of_mem c hmem)
    cases c with
    | char c => simp [CodePoint.char?, hrest]
    | surrogate offset => exact absurd (List.mem_cons_self ..) (h offset)

/-- **A text without surrogates is a string.** -/
theorem exists_eq_ofString_iff : (∃ a : String, s = a) ↔ ¬ s.HasSurrogate := by
  constructor
  · rintro ⟨a, rfl⟩
    exact not_hasSurrogate_ofString a
  · intro h
    refine ⟨String.ofList s.chars, ?_⟩
    rw [← toList_inj, toList_ofString, String.toList_ofList, chars]
    exact (map_char_filterMap (not_exists.mp h)).symm

theorem refusedFrom_eq_none_iff {position : ℕ} {cs : List CodePoint} :
    refusedFrom (fun _ => false) position cs = none ↔ ∀ offset, CodePoint.surrogate offset ∉ cs := by
  induction cs generalizing position with
  | nil => simp [refusedFrom]
  | cons c rest ih =>
    cases c with
    | char c => simp [refusedFrom, ih]
    | surrogate offset =>
      simp only [refusedFrom, Bool.false_eq_true, if_false, reduceCtorEq, false_iff, not_forall]
      exact ⟨offset, fun h => h (List.mem_cons_self ..)⟩

theorem refused?_eq_none_iff : s.refused? (fun _ => false) = none ↔ ¬ s.HasSurrogate := by
  rw [refused?, refusedFrom_eq_none_iff, HasSurrogate, not_exists]

@[simp] theorem encode_ofString (a : String) : (a : Text).encode = .ok (Utf8.encode a) := by
  rw [encode, refused?_eq_none_iff.mpr (not_hasSurrogate_ofString a), chars_ofString, String.ofList_toList]

/-- **Strings are what is written**, and as their own bytes. -/
theorem encode_eq_ok_iff {bytes : Bytes} :
    s.encode = .ok bytes ↔ ∃ a : String, s = a ∧ bytes = Utf8.encode a := by
  constructor
  · intro h
    by_cases hs : s.HasSurrogate
    · unfold encode at h
      split at h
      · cases h
      · next hnone => exact absurd hs (refused?_eq_none_iff.mp hnone)
    · obtain ⟨a, rfl⟩ := exists_eq_ofString_iff.mpr hs
      rw [encode_ofString] at h
      exact ⟨a, rfl, (Except.ok.inj h).symm⟩
  · rintro ⟨a, rfl, rfl⟩
    exact encode_ofString a

/-- **A surrogate is what keeps a text from being written.** -/
theorem exists_encode_eq_error_iff : (∃ e, s.encode = .error e) ↔ s.HasSurrogate := by
  constructor
  · rintro ⟨e, he⟩
    by_contra hs
    obtain ⟨a, rfl⟩ := exists_eq_ofString_iff.mpr hs
    rw [encode_ofString] at he
    cases he
  · intro hs
    cases hencode : s.encode with
    | error e => exact ⟨e, rfl⟩
    | ok bytes =>
      obtain ⟨a, rfl, -⟩ := encode_eq_ok_iff.mp hencode
      exact absurd hs (not_hasSurrogate_ofString a)

end Gleaner.Text
