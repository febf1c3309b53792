import Mathlib.Algebra.Group.Nat.Defs
import Gleaner.Json.Read
import Gleaner.Json.Write
import Gleaner.Proofs.Text.Utf8

/-!
# Integers are read back

An integer is written as its decimal digits, after a minus sign if it is negative. The reader takes a
sign, then as many digits as there are, and stops at what may follow a value: a comma or a line end. No
integer but zero starts with the digit zero, and none looks like one of the words for values.

## Main definitions

* `Ends`: a text that may follow a value

## Main results

* `intText_eq`: which integers have a text
* `toList_toString_int`: the text of an integer
* `readScalar_int`: an integer of not too many digits is read back
-/

namespace Gleaner.Json

variable {rest : List Char} {c : Char} {n : Int}

/-- A text that may follow a value: it goes on with a comma or a line end, or is over. -/
def Ends (rest : List Char) : Prop :=
  ∀ c ∈ rest.head?, c = ',' ∨ c = '\n'

theorem Ends.comma (rest : List Char) : Ends (',' :: rest) := by
  simp [Ends]

theorem Ends.lineFeed (rest : List Char) : Ends ('\n' :: rest) := by
  simp [Ends]

/-! ## Digits -/

theorem isDigit_eq (c : Char) : isDigit c = c.isDigit := by
  rfl

theorem digitsValue_toDigits (n : ℕ) : Binary64.digitsValue (Nat.toDigits 10 n) = n := by
  have hfold : Binary64.digitsValue (Nat.toDigits 10 n) = Nat.ofDigitChars 10 (Nat.toDigits 10 n) 0 := by
    simp only [Binary64.digitsValue, Nat.ofDigitChars, Nat.mul_comm 10]
  rw [hfold, Nat.ofDigitChars_toDigits (by decide) (by decide)]

theorem isDigit_of_mem_toDigits {n : ℕ} (h : c ∈ Nat.toDigits 10 n) : isDigit c = true :=
  (isDigit_eq c).trans (Nat.isDigit_of_mem_toDigits (by decide) (by decide) h)

/-- Only zero starts with a zero. -/
theorem head?_toDigits_ne_zero {n : ℕ} (h : n ≠ 0) : (Nat.toDigits 10 n).head? ≠ some '0' := by
  induction n using Nat.strongRecOn with
  | ind n ih =>
    by_cases hsmall : n < 10
    · rw [Nat.toDigits_of_lt_base hsmall]
      simpa using h
    · have hquotient : n / 10 ≠ 0 := by omega
      have hhead := ih (n / 10) (by omega) hquotient
      rw [Nat.toDigits_of_base_le (by decide) (by omega)]
      rwa [List.head?_append_of_ne_nil _ (Nat.toDigits_ne_nil)]

theorem takeWhile_isDigit (hends : Ends rest) {digits : List Char}
    (h : ∀ c ∈ digits, isDigit c = true) : (digits ++ rest).takeWhile isDigit = digits := by
  rw [List.takeWhile_append_of_pos h]
  cases rest with
  | nil => simp
  | cons c rest =>
    have hc : isDigit c = false := by
      rcases hends c rfl with rfl | rfl <;> decide
    simp [hc]

theorem wholeDigits_toDigits (hends : Ends rest) (n : ℕ) :
    wholeDigits (Nat.toDigits 10 n ++ rest) = Nat.toDigits 10 n := by
  by_cases hzero : n = 0
  · subst hzero
    rfl
  · obtain ⟨c, digits, hdigits⟩ := List.exists_cons_of_ne_nil (Nat.toDigits_ne_nil (b := 10) (n := n))
    have hne : c ≠ '0' := by
      rintro rfl
      exact head?_toDigits_ne_zero hzero (by rw [hdigits]; rfl)
    have hall : ∀ d ∈ c :: digits, isDigit d = true := fun d hd =>
      isDigit_of_mem_toDigits (hdigits ▸ hd)
    rw [hdigits, List.cons_append, wholeDigits, if_neg hne, if_pos (hall c (List.mem_cons_self ..)),
      takeWhile_isDigit hends fun d hd => hall d (List.mem_cons_of_mem _ hd)]

/-! ## Integers -/

theorem toList_toString_int (n : Int) :
    (toString n).toList = (if n < 0 then ['-'] else []) ++ Nat.toDigits 10 n.natAbs := by
  cases n with
  | ofNat m =>
    simp [Int.toString_eq_repr, Int.repr, Nat.repr_eq_ofList_toDigits]
  | negSucc m =>
    have hneg : Int.negSucc m < 0 := Int.negSucc_lt_zero m
    simp [Int.toString_eq_repr, Int.repr, Nat.repr_eq_ofList_toDigits, hneg]

theorem length_toDigits_le_maxDigits_iff {m : ℕ} :
    (Nat.toDigits 10 m).length ≤ maxDigits ↔ m < 10 ^ maxDigits :=
  Nat.length_toDigits_le_iff (by decide) (by decide)

/-- An integer has a text exactly if it has not too many digits. -/
theorem intText_eq (n : Int) :
    intText n =
      if n.natAbs < 10 ^ maxDigits then .ok (toString n).toList else .error .tooManyDigits := by
  have hlength : (toString n.natAbs).length = (Nat.toDigits 10 n.natAbs).length := by
    rw [Nat.toString_eq_ofList_toDigits, String.length_ofList]
  rw [intText, hlength]
  exact if_congr length_toDigits_le_maxDigits_iff rfl rfl

theorem write_int (style : Style) (level : ℕ) (n : Int) :
    write style level (.int n) = .ofExcept (intText n) := by
  simp [write, scalarText?]

theorem fractionPart_eq_nil (hends : Ends rest) : fractionPart rest = [] := by
  unfold fractionPart
  split
  · next more => rcases hends '.' rfl with h | h <;> cases h
  · rfl

theorem exponentPart_eq_nil (hends : Ends rest) : exponentPart rest = [] := by
  cases rest with
  | nil => rfl
  | cons c rest =>
    have hc : (c = 'e' || c = 'E') = false := by
      rcases hends c rfl with rfl | rfl <;> decide
    simp [exponentPart, hc]

/-- A sign and digits, then what may follow a value. -/
theorem readNumber_append {sign digits : List Char}
    (hsign : signPart (sign ++ digits ++ rest) = sign)
    (hdigits : wholeDigits (digits ++ rest) = digits) (hne : digits ≠ []) (hends : Ends rest)
    (hlength : digits.length ≤ maxDigits) :
    readNumber (sign ++ digits ++ rest) =
      .ok (.int (if sign.isEmpty then Binary64.digitsValue digits else -Binary64.digitsValue digits),
        rest) := by
  have hwhole : (sign ++ digits ++ rest).drop sign.length = digits ++ rest := by
    rw [List.append_assoc, List.drop_left]
  have hafter : (sign ++ digits ++ rest).drop (sign.length + digits.length) = rest := by
    rw [← List.length_append, List.drop_left]
  have hnonempty : digits.isEmpty = false := by simpa using hne
  unfold readNumber
  simp only [hsign, hwhole, hdigits, hafter, hnonempty, fractionPart_eq_nil hends,
    exponentPart_eq_nil hends, List.length_nil, List.drop_zero, Nat.add_zero, List.isEmpty_nil,
    Bool.and_self, if_true, Nat.not_lt.mpr hlength, if_false, Bool.false_eq_true]

theorem readNumber_int (hends : Ends rest) (h : (Nat.toDigits 10 n.natAbs).length ≤ maxDigits) :
    readNumber ((toString n).toList ++ rest) = .ok (.int n, rest) := by
  have hdigits := wholeDigits_toDigits hends n.natAbs
  have hne := Nat.toDigits_ne_nil (b := 10) (n := n.natAbs)
  rw [toList_toString_int]
  split_ifs with hneg
  · rw [readNumber_append rfl hdigits hne hends h, digitsValue_toDigits]
    have hvalue : -(n.natAbs : Int) = n := by omega
    simp only [List.isEmpty_cons, Bool.false_eq_true, if_false, hvalue]
  · have hvalue : (n.natAbs : Int) = n := by omega
    -- The first digit is no minus sign.
    obtain ⟨c, digits, hcons⟩ := List.exists_cons_of_ne_nil hne
    have hdigit : isDigit c = true := isDigit_of_mem_toDigits (hcons ▸ List.mem_cons_self ..)
    have hminus : c ≠ '-' := by
      rintro rfl
      cases hdigit
    rw [readNumber_append ?_ hdigits hne hends h, digitsValue_toDigits]
    · simp [hvalue]
    · rw [hcons, List.nil_append, List.cons_append, signPart]
      exact fun more hhead => hminus (List.cons.inj hhead).1

/-! ## Words -/

/-- The first character of the text of an integer, after a minus sign if there is one. -/
theorem exists_digit_toString (n : Int) :
    ∃ c digits, isDigit c = true ∧ ((toString n).toList = c :: digits ∨
      (toString n).toList = '-' :: c :: digits) := by
  obtain ⟨c, digits, hcons⟩ := List.exists_cons_of_ne_nil (Nat.toDigits_ne_nil (b := 10) (n := n.natAbs))
  refine ⟨c, digits, isDigit_of_mem_toDigits (hcons ▸ List.mem_cons_self ..), ?_⟩
  rw [toList_toString_int, hcons]
  split_ifs
  · exact .inr rfl
  · exact .inl rfl

/-- An integer is none of the words for values. -/
theorem find?_literals_int (n : Int) (rest : List Char) :
    literals.find? (fun literal => literal.1.isPrefixOf ((toString n).toList ++ rest)) = none := by
  obtain ⟨c, digits, hdigit, hcons⟩ := exists_digit_toString n
  have hne (d : Char) (hd : isDigit d = false) : d ≠ c := by
    rintro rfl
    exact absurd (hd.symm.trans hdigit) Bool.false_ne_true
  have hletters : 'n' ≠ c ∧ 't' ≠ c ∧ 'f' ≠ c ∧ 'N' ≠ c ∧ 'I' ≠ c ∧ '-' ≠ c :=
    ⟨hne _ rfl, hne _ rfl, hne _ rfl, hne _ rfl, hne _ rfl, hne _ rfl⟩
  rcases hcons with hcons | hcons <;> rw [hcons] <;> simp [literals, hletters]

/-- **An integer of not too many digits is read back.** -/
theorem readScalar_int (hends : Ends rest) (h : n.natAbs < 10 ^ maxDigits) :
    readScalar ((toString n).toList ++ rest) = .ok (.int n, rest) := by
  rw [readScalar, find?_literals_int, readNumber_int hends (length_toDigits_le_maxDigits_iff.mpr h)]

end Gleaner.Json
