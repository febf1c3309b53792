import Gleaner.FileSystem.Basic
import Gleaner.Proofs.Json.Number
import Gleaner.Text.Alphabet

/-!
# Texts in one line

A text is in one line if it has no line feed. That is a matter of its parts: of constant words, of
numbers, of words in the narrow sense, and of quoted text, which escapes every line feed. So whatever a
path holds, the wording of a failed operation on it stays in one line, since it quotes the path.

## Main definitions

* `InLine`: a text without a line feed

## Main results

* `inLine_quoted`: quoted text is in one line
* `inLine_osError`: so is the wording of a failed operation
-/

namespace Gleaner.Text

variable {s t : String} {c quote : Char} {cs : List Char}

/-- A text without a line feed. -/
def InLine (s : String) : Prop :=
  '\n' ∉ s.toList

instance (s : String) : Decidable (InLine s) :=
  inferInstanceAs (Decidable ('\n' ∉ s.toList))

@[simp] theorem inLine_append : InLine (s ++ t) ↔ InLine s ∧ InLine t := by
  rw [InLine, InLine, InLine, String.toList_append, List.mem_append, not_or]

@[simp] theorem inLine_ofList : InLine (String.ofList cs) ↔ '\n' ∉ cs := by
  rw [InLine, String.toList_ofList]

@[simp] theorem inLine_toString : InLine (toString s) ↔ InLine s :=
  Iff.rfl

/-! ## Numbers and words -/

@[simp] theorem inLine_intRepr (n : ℤ) : InLine n.repr := by
  rw [InLine, ← Int.toString_eq_repr, Json.toList_toString_int, List.mem_append, not_or]
  refine ⟨?_, fun hdigit => ?_⟩
  · split_ifs <;> decide
  · exact absurd (Json.isDigit_of_mem_toDigits hdigit) (by decide)

@[simp] theorem inLine_natRepr (n : ℕ) : InLine n.repr :=
  inLine_intRepr n

theorem ne_lineFeed_of_isWord (h : isWord c = true) : c ≠ '\n' := by
  rintro rfl
  exact absurd h (by decide)

/-! ## Quoted text -/

theorem hexDigit_ne_lineFeed : ∀ n < 16, hexDigit n ≠ '\n' := by
  decide

theorem lineFeed_notMem_hexText (width n : ℕ) : '\n' ∉ hexText width n := by
  induction width generalizing n with
  | zero => exact List.not_mem_nil
  | succ width ih =>
    have hlast := hexDigit_ne_lineFeed (n % 16) (Nat.mod_lt n (by decide))
    rw [hexText, List.mem_append, List.mem_singleton, not_or]
    exact ⟨ih (n / 16), hlast.symm⟩

/-- A line feed is never written as it is, unless it were the quote. -/
theorem lineFeed_notMem_quoteChar (hquote : quote ≠ '\n') : '\n' ∉ quoteChar quote c := by
  unfold quoteChar
  dsimp only
  split_ifs with hescaped htab hfeed hreturn hprintable
  · have hc : c ≠ '\n' := by
      rintro rfl
      simp [hquote.symm] at hescaped
    simp [hc.symm]
  · decide
  · decide
  · decide
  · simpa using Ne.symm hfeed
  all_goals simp [lineFeed_notMem_hexText]

theorem lineFeed_notMem_quotePoint (hquote : quote ≠ '\n') (c : CodePoint) :
    '\n' ∉ quotePoint quote c := by
  cases c with
  | char c => exact lineFeed_notMem_quoteChar hquote
  | surrogate offset => simp [quotePoint, lineFeed_notMem_hexText]

theorem quoteFor_ne_lineFeed (cs : List CodePoint) : quoteFor cs ≠ '\n' := by
  unfold quoteFor
  split_ifs <;> decide

/-- **Quoted text is in one line**, whatever is quoted. -/
@[simp] theorem inLine_quoted (s : Text) : InLine (quoted s) := by
  have hquote := quoteFor_ne_lineFeed s.toList
  have hinside : '\n' ∉ s.toList.flatMap (quotePoint (quoteFor s.toList)) := by
    rw [List.mem_flatMap]
    rintro ⟨c, -, hc⟩
    exact lineFeed_notMem_quotePoint hquote c hc
  rw [quoted, inLine_ofList]
  simp [hquote.symm, hinside]

@[simp] theorem inLine_cause (cause : OsCause) : InLine cause.text := by
  cases cause <;> decide

/-- The wording of a failed operation is in one line, whatever its path. -/
@[simp] theorem inLine_osError (e : OsError) : InLine e.message := by
  simp +decide [OsError.message]

end Gleaner.Text
