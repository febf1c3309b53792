import Gleaner.Proofs.Schema.Matching

/-!
# How a text is read

From left to right a text falls into pieces: plain characters, literals and block comments. Behind the
pieces there may be a literal or a block comment that nothing closes, or a line comment. A literal and a
block comment have much in common: a mark opens them, and they last up to the first closing mark that
counts. In a comment every closing mark counts, in a literal those that no backslash escapes. So both are
*enclosures*, and what is inside them is of no concern to what surrounds them.

Counting delimiters keeps a mode and looks at one or two characters at a time. It counts the plain
characters of this one reading of the text.

## Main definitions

* `Enclosure`, `Enclosure.Closed`, `Enclosure.Unclosed`: literals and block comments, and where they end
* `Reads`: the pieces of a text from a place on, and what stands behind them
* `plainOf`: the plain characters among pieces

## Main results

* `exists_reads`, `Reads.unique`: a text has exactly one reading
* `Reads.plainFrom_eq`: the characters that count are those that are plain
* `Reads.replace`: the inside of an enclosure can be replaced
* `countDelimiters_eq_count`: counting delimiters, by the reading of the text
-/

namespace Gleaner.Schema

/-! ## Enclosures -/

/-- What may hold delimiters that do not count, up to a closing mark: a literal with quotes of a kind, or a
block comment. -/
inductive Enclosure where
  | literal (quote : Char)
  | comment
deriving DecidableEq, Repr

/-- What comes next is escaped: the last character is a backslash. -/
def Escapes (before : List Char) : Prop :=
  before.getLast? = some '\\'

instance (before : List Char) : Decidable (Escapes before) :=
  inferInstanceAs (Decidable (_ = _))

theorem decide_escapes_concat (before : List Char) (c : Char) :
    decide (Escapes (before ++ [c])) = (c == '\\') := by
  rw [Bool.eq_iff_iff]
  simp [Escapes]

variable {e e' : Enclosure} {before inside inside' text rest : List Char} {c : Char}

namespace Enclosure

/-- The mark that opens an enclosure. -/
def opening : Enclosure → List Char
  | .literal quote => [quote]
  | .comment => ['/', '*']

/-- The mark that closes an enclosure. -/
def closing : Enclosure → List Char
  | .literal quote => [quote]
  | .comment => ['*', '/']

/-- Behind these characters an opening mark opens the enclosure: a quote does unless it is escaped. -/
def OpensBehind : Enclosure → List Char → Prop
  | .literal quote, before => isQuote quote = true ∧ ¬ Escapes before
  | .comment, _ => True

/-- Behind what is inside so far, a closing mark counts: a quote does unless it is escaped. -/
def ClosesBehind : Enclosure → List Char → Prop
  | .literal quote, inside => ¬ Escapes (quote :: inside)
  | .comment, _ => True

instance : (e : Enclosure) → (inside : List Char) → Decidable (e.ClosesBehind inside)
  | .literal quote, inside => inferInstanceAs (Decidable (¬ Escapes (quote :: inside)))
  | .comment, _ => isTrue trivial

/-- **The first closing mark that counts stands right behind what is inside.** -/
structure Closed (e : Enclosure) (inside : List Char) : Prop where
  closes : e.ClosesBehind inside
  first : ∀ left right, inside ++ e.closing = left ++ e.closing ++ right → e.ClosesBehind left →
    left = inside

/-- No closing mark counts up to the end of the text. -/
def Unclosed (e : Enclosure) (inside : List Char) : Prop :=
  ∀ left right, inside = left ++ e.closing ++ right → ¬ e.ClosesBehind left

/-- A closing mark does not escape what comes behind it. -/
theorem OpensBehind.not_escapes (h : e.OpensBehind before) (start : List Char) :
    ¬ Escapes (start ++ e.closing) := by
  cases e with
  | literal quote =>
    intro hescapes
    have hquote : quote = '\\' := by simpa [Escapes, closing] using hescapes
    exact absurd h.1 (by rw [hquote]; decide)
  | comment => simp [Escapes, closing]

/-- What opens behind the same characters, with the same text, is the same. -/
theorem OpensBehind.unique (h : e.OpensBehind before) (h' : e'.OpensBehind before)
    (htext : e.opening ++ text = e'.opening ++ rest) : e = e' ∧ text = rest := by
  have hslash : isQuote '/' = false := by decide
  cases e with
  | literal quote =>
    cases e' with
    | literal quote' =>
      obtain ⟨rfl, rfl⟩ := List.cons.inj htext
      exact ⟨rfl, rfl⟩
    | comment =>
      obtain ⟨rfl, -⟩ := List.cons.inj htext
      exact absurd h.1 (by rw [hslash]; decide)
  | comment =>
    cases e' with
    | literal quote' =>
      obtain ⟨rfl, -⟩ := List.cons.inj htext
      exact absurd h'.1 (by rw [hslash]; decide)
    | comment => exact ⟨rfl, List.append_cancel_left htext⟩

/-- The first closing mark that counts is the only one of that kind. -/
theorem Closed.unique (h : e.Closed inside) (h' : e.Closed inside')
    (htext : inside ++ e.closing ++ text = inside' ++ e.closing ++ rest) :
    inside = inside' ∧ text = rest := by
  have hsame : inside = inside' := by
    rcases Nat.le_total (inside ++ e.closing).length (inside' ++ e.closing).length with hle | hle
    · obtain ⟨right, hright⟩ := List.prefix_of_prefix_length_le (List.prefix_append _ text)
        (htext ▸ List.prefix_append _ rest) hle
      exact h'.first inside right hright.symm h.closes
    · obtain ⟨right, hright⟩ := List.prefix_of_prefix_length_le (List.prefix_append _ rest)
        (htext ▸ List.prefix_append _ text) hle
      exact (h.first inside' right hright.symm h'.closes).symm
  subst hsame
  exact ⟨rfl, List.append_cancel_left htext⟩

/-- **An enclosure is closed somewhere, or nowhere.** -/
theorem closed_or_unclosed (e : Enclosure) (text : List Char) :
    (∃ inside rest, text = inside ++ e.closing ++ rest ∧ e.Closed inside) ∨ e.Unclosed text := by
  classical
  by_cases hcloses : ∃ k left right, left.length = k ∧ text = left ++ e.closing ++ right ∧
      e.ClosesBehind left
  · -- of all closing marks that count, take the first
    obtain ⟨inside, rest, hlength, htext, hinside⟩ := Nat.find_spec hcloses
    refine .inl ⟨inside, rest, htext, hinside, fun left right hsplit hleft => ?_⟩
    have hshort : inside.length ≤ left.length := by
      rw [hlength]
      refine Nat.find_min' hcloses ⟨left, right ++ rest, rfl, ?_, hleft⟩
      rw [htext, hsplit, List.append_assoc]
    have hlengths := congrArg List.length hsplit
    simp only [List.length_append] at hlengths
    rw [List.append_assoc] at hsplit
    exact (List.append_inj_left hsplit (by omega)).symm
  · refine .inr fun left right hsplit hleft => ?_
    exact hcloses ⟨left.length, left, right, rfl, hsplit, hleft⟩

end Enclosure

/-! ## Readings -/

/-- A piece of a text. -/
inductive Piece where
  | plain (c : Char)
  | enclosed (e : Enclosure) (inside : List Char)
deriving DecidableEq, Repr

/-- What stands behind the pieces of a text. -/
inductive Tail where
  | nothing
  | unclosed (e : Enclosure) (inside : List Char)
  | lineComment (comment : List Char)
deriving DecidableEq, Repr

/-- The characters of a piece, with its marks. -/
def Piece.chars : Piece → List Char
  | .plain c => [c]
  | .enclosed e inside => e.opening ++ inside ++ e.closing

/-- The characters behind the pieces. -/
def Tail.chars : Tail → List Char
  | .nothing => []
  | .unclosed e inside => e.opening ++ inside
  | .lineComment comment => '/' :: '/' :: comment

/-- The characters of pieces and of what stands behind them. -/
def charsOf (pieces : List Piece) (tail : Tail) : List Char :=
  pieces.flatMap Piece.chars ++ tail.chars

/-- The plain characters among pieces. -/
def plainOf (pieces : List Piece) : List Char :=
  pieces.filterMap fun
    | .plain c => some c
    | .enclosed _ _ => none

/-- A character that opens nothing: a quote only behind a backslash, and a slash only if neither a slash nor
a star comes next. -/
structure IsPlain (before : List Char) (c : Char) (after : List Char) : Prop where
  quote : isQuote c = true → Escapes before
  slash : c = '/' → after.head? ≠ some '/' ∧ after.head? ≠ some '*'

/-- **The reading of a text**, of which the characters `before` were read already: its pieces from left to
right, and what stands behind them. -/
inductive Reads : List Char → List Char → List Piece → Tail → Prop
  | nothing {before : List Char} : Reads before [] [] .nothing
  | plain {before text : List Char} {c : Char} {pieces : List Piece} {tail : Tail}
      (plain : IsPlain before c text) (rest : Reads (before ++ [c]) text pieces tail) :
      Reads before (c :: text) (.plain c :: pieces) tail
  | enclosed {before text inside rest : List Char} {e : Enclosure} {pieces : List Piece} {tail : Tail}
      (opens : e.OpensBehind before) (closed : e.Closed inside)
      (split : text = e.opening ++ (inside ++ e.closing ++ rest))
      (rest : Reads (before ++ (e.opening ++ inside ++ e.closing)) rest pieces tail) :
      Reads before text (.enclosed e inside :: pieces) tail
  | unclosed {before text inside : List Char} {e : Enclosure} (opens : e.OpensBehind before)
      (unclosed : e.Unclosed inside) (split : text = e.opening ++ inside) :
      Reads before text [] (.unclosed e inside)
  | lineComment {before comment : List Char} :
      Reads before ('/' :: '/' :: comment) [] (.lineComment comment)

variable {pieces pieces' : List Piece} {tail tail' : Tail}

/-- The pieces, put together, are the text. -/
theorem Reads.charsOf_eq (h : Reads before text pieces tail) : charsOf pieces tail = text := by
  induction h with
  | nothing => rfl
  | plain _ _ ih => rw [← ih]; rfl
  | enclosed _ _ split _ ih => simp [charsOf, Piece.chars, split, ← ih]
  | unclosed _ _ split => rw [split]; rfl
  | lineComment => rfl

/-- Nothing opens at a plain character. -/
theorem IsPlain.not_opens (h : IsPlain before c text) (hopens : e.OpensBehind before)
    (htext : c :: text = e.opening ++ rest) : False := by
  cases e with
  | literal quote =>
    obtain ⟨rfl, -⟩ := List.cons.inj htext
    exact hopens.2 (h.quote hopens.1)
  | comment =>
    obtain ⟨rfl, hstar⟩ := List.cons.inj htext
    exact (h.slash rfl).2 (by rw [hstar]; rfl)

theorem Enclosure.OpensBehind.ne_lineComment (h : e.OpensBehind before) (comment : List Char) :
    '/' :: '/' :: comment ≠ e.opening ++ rest := by
  intro htext
  cases e with
  | literal quote =>
    obtain ⟨rfl, -⟩ := List.cons.inj htext
    exact absurd h.1 (by decide)
  | comment => cases htext

theorem Enclosure.opening_append_ne_nil (e : Enclosure) (text : List Char) : [] ≠ e.opening ++ text := by
  cases e <;> simp [Enclosure.opening]

/-- **A text has at most one reading**: at each place what comes next is determined. -/
theorem Reads.unique (h : Reads before text pieces tail) (h' : Reads before text pieces' tail') :
    pieces' = pieces ∧ tail' = tail := by
  induction h generalizing pieces' tail' with
  | nothing =>
    cases h' with
    | nothing => exact ⟨rfl, rfl⟩
    | enclosed _ _ split => exact absurd split (Enclosure.opening_append_ne_nil _ _)
    | unclosed _ _ split => exact absurd split (Enclosure.opening_append_ne_nil _ _)
  | plain hplain _ ih =>
    cases h' with
    | plain _ rest =>
      obtain ⟨rfl, rfl⟩ := ih rest
      exact ⟨rfl, rfl⟩
    | enclosed opens _ split => exact (hplain.not_opens opens split).elim
    | unclosed opens _ split => exact (hplain.not_opens opens split).elim
    | lineComment => exact absurd rfl (hplain.slash rfl).1
  | enclosed opens closed split _ ih =>
    cases h' with
    | nothing => exact absurd split (Enclosure.opening_append_ne_nil _ _)
    | plain hplain => exact (hplain.not_opens opens split).elim
    | enclosed opens' closed' split' rest' =>
      obtain ⟨rfl, hinside⟩ := opens.unique opens' (split.symm.trans split')
      obtain ⟨rfl, rfl⟩ := closed.unique closed' hinside
      obtain ⟨rfl, rfl⟩ := ih rest'
      exact ⟨rfl, rfl⟩
    | unclosed opens' unclosed' split' =>
      obtain ⟨rfl, hinside⟩ := opens.unique opens' (split.symm.trans split')
      exact absurd closed.closes (unclosed' _ _ hinside.symm)
    | lineComment => exact absurd split (opens.ne_lineComment _)
  | unclosed opens unclosed split =>
    cases h' with
    | nothing => exact absurd split (Enclosure.opening_append_ne_nil _ _)
    | plain hplain => exact (hplain.not_opens opens split).elim
    | enclosed opens' closed' split' _ =>
      obtain ⟨rfl, hinside⟩ := opens.unique opens' (split.symm.trans split')
      exact absurd closed'.closes (unclosed _ _ hinside)
    | unclosed opens' _ split' =>
      obtain ⟨rfl, rfl⟩ := opens.unique opens' (split.symm.trans split')
      exact ⟨rfl, rfl⟩
    | lineComment => exact absurd split (opens.ne_lineComment _)
  | lineComment =>
    cases h' with
    | plain hplain => exact absurd rfl (hplain.slash rfl).1
    | enclosed opens _ split => exact absurd split (opens.ne_lineComment _)
    | unclosed opens _ split => exact absurd split (opens.ne_lineComment _)
    | lineComment => exact ⟨rfl, rfl⟩

/-- An enclosure that opens is read up to where it is closed, and then what follows is. -/
theorem exists_reads_of_opens (hopens : e.OpensBehind before)
    (hrest : ∀ inside rest, text = inside ++ e.closing ++ rest →
      ∃ pieces tail, Reads (before ++ (e.opening ++ inside ++ e.closing)) rest pieces tail) :
    ∃ pieces tail, Reads before (e.opening ++ text) pieces tail := by
  rcases e.closed_or_unclosed text with ⟨inside, rest, htext, hclosed⟩ | hunclosed
  · obtain ⟨pieces, tail, hreads⟩ := hrest inside rest htext
    exact ⟨_, _, .enclosed hopens hclosed (by rw [htext]) hreads⟩
  · exact ⟨_, _, .unclosed hopens hunclosed rfl⟩

/-- **A text has a reading.** The induction is on the length of the text, since what follows an enclosure is
shorter by more than one character. -/
theorem exists_reads (before text : List Char) : ∃ pieces tail, Reads before text pieces tail := by
  induction hn : text.length using Nat.strong_induction_on generalizing before text with
  | _ n ih =>
    subst hn
    -- a text that is read behind the opening mark of an enclosure
    have hopen : ∀ (e : Enclosure) after, e.OpensBehind before → text = e.opening ++ after →
        ∃ pieces tail, Reads before text pieces tail := by
      rintro e after hopens rfl
      refine exists_reads_of_opens hopens fun inside rest hafter => ih rest.length ?_ _ rest rfl
      have hpositive : 0 < e.opening.length := by cases e <;> simp [Enclosure.opening]
      rw [hafter]
      simp only [List.length_append]
      omega
    cases text with
    | nil => exact ⟨_, _, .nothing⟩
    | cons c text =>
      have hplain : IsPlain before c text → ∃ pieces tail, Reads before (c :: text) pieces tail := by
        intro hplain
        obtain ⟨pieces, tail, hreads⟩ := ih text.length (Nat.lt_succ_self _) (before ++ [c]) text rfl
        exact ⟨_, _, .plain hplain hreads⟩
      by_cases hquote : isQuote c = true ∧ ¬ Escapes before
      · exact hopen (.literal c) text hquote rfl
      · have hescaped : isQuote c = true → Escapes before := by
          intro hc
          by_contra hescapes
          exact hquote ⟨hc, hescapes⟩
        by_cases hslash : c = '/'
        · -- a slash opens a comment if the next character says so
          subst hslash
          cases text with
          | nil => exact hplain ⟨hescaped, by simp⟩
          | cons d text =>
            by_cases hline : d = '/'
            · subst hline
              exact ⟨_, _, .lineComment⟩
            · by_cases hstar : d = '*'
              · subst hstar
                exact hopen .comment text trivial rfl
              · exact hplain ⟨hescaped, by simp [hline, hstar]⟩
        · exact hplain ⟨hescaped, fun heq => absurd heq hslash⟩

/-! ## What counts -/

namespace Enclosure

/-- The mode in which the inside of an enclosure is read. -/
def mode : Enclosure → Mode
  | .literal quote => .literal quote
  | .comment => .comment

/-- Whether the reader takes what comes next inside an enclosure for escaped. -/
def escaped : Enclosure → List Char → Bool
  | .literal quote, inside => decide (Escapes (quote :: inside))
  | .comment, _ => false

theorem plainFrom_opening (h : e.OpensBehind before) (text : List Char) :
    plainFrom .plain (decide (Escapes before)) (e.opening ++ text) =
      plainFrom e.mode (e.escaped []) text := by
  cases e with
  | comment => simp [plainFrom, opening, mode, escaped]
  | literal quote =>
    obtain ⟨hquote, hescapes⟩ := h
    have hkind : quote = '"' ∨ quote = '\'' := by simpa [isQuote] using hquote
    have hfirst : (literal quote).escaped [] = false := by
      rw [escaped, ← List.nil_append [quote], decide_escapes_concat]
      rcases hkind with rfl | rfl <;> rfl
    rw [hfirst, decide_eq_false hescapes]
    rcases hkind with rfl | rfl <;> simp [plainFrom, opening, mode, isQuote]

/-- A closing mark that counts ends the enclosure. -/
theorem plainFrom_closing (h : e.ClosesBehind inside) (text : List Char) :
    plainFrom e.mode (e.escaped inside) (e.closing ++ text) = plainFrom .plain false text := by
  cases e with
  | comment => simp [plainFrom, closing, mode]
  | literal quote =>
    have hescaped : (literal quote).escaped inside = false := decide_eq_false h
    simp [plainFrom, closing, mode, hescaped]

/-- A character at which no closing mark counts stays inside. -/
theorem plainFrom_cons (h : e.closing <+: c :: text → ¬ e.ClosesBehind inside) :
    plainFrom e.mode (e.escaped inside) (c :: text) =
      plainFrom e.mode (e.escaped (inside ++ [c])) text := by
  cases e with
  | literal quote =>
    have hnext : (literal quote).escaped (inside ++ [c]) = (c == '\\') := by
      rw [escaped, ← List.cons_append, decide_escapes_concat]
    rw [hnext, mode, plainFrom, if_neg]
    simp only [Bool.and_eq_true, decide_eq_true_eq, Bool.not_eq_true', not_and]
    rintro rfl
    have hescapes := h (List.prefix_append [c] text)
    simpa [escaped, ClosesBehind] using hescapes
  | comment =>
    have hmark : ∀ rest, c = '*' → text ≠ '/' :: rest := by
      rintro rest rfl rfl
      exact h (List.prefix_append ['*', '/'] rest) trivial
    rw [mode, plainFrom]
    · rfl
    · exact hmark

/-- What stays inside does not count. -/
theorem plainFrom_inside (h : ∀ left right, text = left ++ right → right ≠ [] →
      e.closing <+: right ++ rest → ¬ e.ClosesBehind (inside ++ left)) :
    plainFrom e.mode (e.escaped inside) (text ++ rest) =
      plainFrom e.mode (e.escaped (inside ++ text)) rest := by
  induction text generalizing inside with
  | nil => rw [List.nil_append, List.append_nil]
  | cons c text ih =>
    have hfirst := h [] (c :: text) rfl (List.cons_ne_nil _ _)
    rw [List.append_nil, List.cons_append] at hfirst
    rw [List.cons_append, plainFrom_cons hfirst, ih, List.append_assoc]
    · rfl
    · intro left right hsplit hright hprefix
      have hnext := h (c :: left) right (by rw [hsplit]; rfl) hright hprefix
      rwa [← List.singleton_append, ← List.append_assoc] at hnext

theorem Closed.plainFrom_eq (h : e.Closed inside) (text : List Char) :
    plainFrom e.mode (e.escaped []) (inside ++ e.closing ++ text) = plainFrom .plain false text := by
  rw [List.append_assoc, plainFrom_inside, List.nil_append, plainFrom_closing h.closes]
  rintro left right rfl hright hprefix hcloses
  -- a mark that counts before the end would be the first one
  have hmark : e.closing <+: right ++ e.closing := by
    refine List.prefix_of_prefix_length_le hprefix ?_ (by simp)
    rw [← List.append_assoc]
    exact List.prefix_append _ _
  obtain ⟨after, hafter⟩ := hmark
  have hleft := h.first left after (by rw [List.append_assoc, ← hafter, List.append_assoc]) hcloses
  exact hright (List.self_eq_append_right.mp hleft)

theorem Unclosed.plainFrom_eq (h : e.Unclosed inside) :
    plainFrom e.mode (e.escaped []) inside = [] := by
  have hinside : plainFrom e.mode (e.escaped []) (inside ++ []) =
      plainFrom e.mode (e.escaped ([] ++ inside)) [] := by
    apply plainFrom_inside
    rintro left right rfl - ⟨after, hafter⟩
    rw [List.append_nil] at hafter
    exact h left after (by rw [← hafter, List.append_assoc])
  rw [List.append_nil] at hinside
  rw [hinside]
  cases e <;> simp [plainFrom]

end Enclosure

theorem IsPlain.plainFrom_eq (h : IsPlain before c text) :
    plainFrom .plain (decide (Escapes before)) (c :: text) =
      c :: plainFrom .plain (decide (Escapes (before ++ [c]))) text := by
  have hquote : ¬ ((isQuote c && !decide (Escapes before)) = true) := by
    simpa using h.quote
  rw [decide_escapes_concat, plainFrom, if_neg hquote]
  · rintro rest rfl rfl
    exact (h.slash rfl).1 rfl
  · rintro rest rfl rfl
    exact (h.slash rfl).2 rfl

/-- **What counts is plain**: the characters that a count goes through are the plain ones of the reading. -/
theorem Reads.plainFrom_eq (h : Reads before text pieces tail) :
    plainFrom .plain (decide (Escapes before)) text = plainOf pieces := by
  induction h with
  | nothing => simp [plainFrom, plainOf]
  | plain hplain _ ih =>
    rw [hplain.plainFrom_eq, ih]
    rfl
  | @enclosed before text inside rest e pieces tail opens closed split _ ih =>
    have hafter : decide (Escapes (before ++ (e.opening ++ inside ++ e.closing))) = false := by
      rw [← List.append_assoc]
      exact decide_eq_false (opens.not_escapes _)
    rw [hafter] at ih
    rw [split, Enclosure.plainFrom_opening opens, closed.plainFrom_eq, ih]
    rfl
  | unclosed opens unclosed split =>
    rw [split, Enclosure.plainFrom_opening opens, unclosed.plainFrom_eq]
    rfl
  | lineComment => simp [plainFrom, plainOf]

/-- Two delimiters that differ are counted one by one. -/
theorem foldr_add_eq_count {opening closing : Char} (h : opening ≠ closing) (cs : List Char) :
    cs.foldr (Tally.add ⟨some opening, some closing⟩) {} = ⟨cs.count opening, cs.count closing⟩ := by
  induction cs with
  | nil => rfl
  | cons c cs ih =>
    rw [List.foldr_cons, ih, Tally.add]
    by_cases hopening : opening = c
    · subst hopening
      simp [h]
    · by_cases hclosing : closing = c
      · subst hclosing
        simp [hopening, List.count_cons_of_ne (Ne.symm hopening)]
      · simp [hopening, hclosing, Ne.symm hopening, Ne.symm hclosing]

/-! ## Replacing what is inside -/

/-- What was read before matters only in that it may escape what comes next. -/
theorem Enclosure.OpensBehind.congr {before' : List Char} (hbefore : Escapes before ↔ Escapes before')
    (h : e.OpensBehind before) : e.OpensBehind before' := by
  cases e with
  | literal quote => exact ⟨h.1, fun hescapes => h.2 (hbefore.mpr hescapes)⟩
  | comment => exact trivial

theorem escapes_append_congr {before' : List Char} (hbefore : Escapes before ↔ Escapes before')
    (text : List Char) : Escapes (before ++ text) ↔ Escapes (before' ++ text) := by
  cases htext : text.getLast? with
  | none => simpa [List.getLast?_eq_none_iff.mp htext] using hbefore
  | some c => simp [Escapes, List.getLast?_append, htext]

theorem Reads.congr {before' : List Char} (hbefore : Escapes before ↔ Escapes before')
    (h : Reads before text pieces tail) : Reads before' text pieces tail := by
  induction h generalizing before' with
  | nothing => exact .nothing
  | plain hplain _ ih =>
    exact .plain ⟨fun hquote => hbefore.mp (hplain.quote hquote), hplain.slash⟩
      (ih (escapes_append_congr hbefore _))
  | enclosed opens closed split _ ih =>
    exact .enclosed (opens.congr hbefore) closed split (ih (escapes_append_congr hbefore _))
  | unclosed opens unclosed split => exact .unclosed (opens.congr hbefore) unclosed split
  | lineComment => exact .lineComment

/-- Of what comes next, only the first character matters to a plain one. -/
theorem IsPlain.of_head? (h : IsPlain before c text) (hhead : rest.head? = text.head?) :
    IsPlain before c rest := by
  refine ⟨h.quote, ?_⟩
  rw [hhead]
  exact h.slash

/-- The first character of a text does not depend on what is inside its enclosures. -/
theorem head?_charsOf_replace (left right : List Piece) (e : Enclosure) (inside inside' : List Char)
    (tail : Tail) :
    (charsOf (left ++ .enclosed e inside' :: right) tail).head? =
      (charsOf (left ++ .enclosed e inside :: right) tail).head? := by
  rcases left with _ | ⟨⟨c⟩ | ⟨_ | _, _⟩, left⟩
  · cases e <;> simp [charsOf, Piece.chars, Enclosure.opening]
  all_goals simp [charsOf, Piece.chars, Enclosure.opening]

/-- **What is inside an enclosure can be replaced** by anything that lets it end at its closing mark: the
pieces around it stay the same. -/
theorem Reads.replace {left right : List Piece} (hinside : e.Closed inside')
    (h : Reads before text (left ++ .enclosed e inside :: right) tail) :
    Reads before (charsOf (left ++ .enclosed e inside' :: right) tail)
      (left ++ .enclosed e inside' :: right) tail := by
  induction left generalizing before text with
  | nil =>
    cases h with
    | enclosed opens closed split rest =>
      have hescapes (start : List Char) :
          ¬ Escapes (before ++ (e.opening ++ start ++ e.closing)) := by
        rw [← List.append_assoc]
        exact opens.not_escapes _
      refine .enclosed opens hinside ?_ (rest.congr (iff_of_false (hescapes _) (hescapes _)))
      rw [← rest.charsOf_eq]
      simp [charsOf, Piece.chars]
  | cons piece left ih =>
    rw [List.cons_append] at h
    cases h with
    | plain hplain rest =>
      have hhead := head?_charsOf_replace left right e inside inside' tail
      rw [rest.charsOf_eq] at hhead
      exact .plain (hplain.of_head? hhead) (ih rest)
    | enclosed opens closed split rest =>
      refine .enclosed opens closed ?_ (ih rest)
      simp [charsOf, Piece.chars]

/-! ## Counting delimiters -/

theorem Reads.countDelimiters_eq (h : Reads [] text pieces tail) (d : Delimiters) :
    countDelimiters d text = (plainOf pieces).foldr (Tally.add d) {} := by
  have hplain := h.plainFrom_eq
  rw [show decide (Escapes []) = false by decide] at hplain
  rw [countDelimiters, tally_eq_foldr, hplain]

theorem plainOf_replace (left right : List Piece) (e : Enclosure) (inside inside' : List Char) :
    plainOf (left ++ .enclosed e inside' :: right) = plainOf (left ++ .enclosed e inside :: right) := by
  simp [plainOf, List.filterMap_append]

/-- **Delimiters are counted among the plain characters of the one reading of a text.** Every text has
exactly one reading, which consists of plain characters, closed literals and closed block comments, and of
what stands behind them; put together, they are the text. Two delimiters that differ are counted as often
as they occur among its plain characters. What is inside a literal or a block comment can be replaced by
anything that lets it end at the same closing mark; this changes no count, and no other piece. -/
theorem countDelimiters_eq_count (text : List Char) :
    ∃ pieces tail, (∀ pieces' tail', Reads [] text pieces' tail' ↔ pieces' = pieces ∧ tail' = tail) ∧
      charsOf pieces tail = text ∧
      (∀ opening closing, opening ≠ closing → countDelimiters ⟨some opening, some closing⟩ text =
        ⟨(plainOf pieces).count opening, (plainOf pieces).count closing⟩) ∧
      ∀ left right e inside inside', pieces = left ++ .enclosed e inside :: right → e.Closed inside' →
        Reads [] (charsOf (left ++ .enclosed e inside' :: right) tail)
          (left ++ .enclosed e inside' :: right) tail ∧
        ∀ d, countDelimiters d (charsOf (left ++ .enclosed e inside' :: right) tail) =
          countDelimiters d text := by
  obtain ⟨pieces, tail, hreads⟩ := exists_reads [] text
  refine ⟨pieces, tail, fun pieces' tail' => ⟨fun h => hreads.unique h, ?_⟩, hreads.charsOf_eq, ?_, ?_⟩
  · rintro ⟨rfl, rfl⟩
    exact hreads
  · intro opening closing hne
    rw [hreads.countDelimiters_eq, foldr_add_eq_count hne]
  · rintro left right e inside inside' rfl hinside
    have hreplaced := hreads.replace hinside
    refine ⟨hreplaced, fun d => ?_⟩
    rw [hreplaced.countDelimiters_eq, hreads.countDelimiters_eq, plainOf_replace]

/-- A block whose only field is a literal with a closing brace in it. -/
def bracedLiteral : List Piece :=
  [.plain '{', .enclosed (.literal '"') ['}'], .plain '}']

theorem bracedLiteral_reads : Reads [] (charsOf bracedLiteral .nothing) bracedLiteral .nothing := by
  have hclosed : (Enclosure.literal '"').Closed ['}'] := by
    refine ⟨by decide, fun left right hsplit _ => ?_⟩
    rcases left with _ | ⟨a, _ | ⟨b, left⟩⟩
    · cases hsplit
    · cases hsplit
      rfl
    · have hlength := congrArg List.length hsplit
      simp [Enclosure.closing] at hlength
  refine .plain ⟨by decide, by decide⟩ (.enclosed ⟨by decide, by decide⟩ hclosed rfl ?_)
  exact .plain ⟨by decide, by decide⟩ .nothing

/-- An opening brace behind an escaped quote can stand in the literal as well: the braces around it are
counted, and it is not. -/
theorem countDelimiters_eq_count_of_braced_literal :
    (Enclosure.literal '"').Closed ['\\', '"', '{'] ∧
      countDelimiters braces (charsOf bracedLiteral .nothing) = ⟨1, 1⟩ ∧
      ∀ d, countDelimiters d ['{', '"', '\\', '"', '{', '"', '}'] =
        countDelimiters d ['{', '"', '}', '"', '}'] := by
  have hclosed : (Enclosure.literal '"').Closed ['\\', '"', '{'] := by
    refine ⟨by decide, fun left right hsplit hcloses => ?_⟩
    rcases left with _ | ⟨a, _ | ⟨b, _ | ⟨c, _ | ⟨d, left⟩⟩⟩⟩
    · cases hsplit
    · -- the quote behind the backslash is escaped
      cases hsplit
      exact absurd hcloses (by decide)
    · cases hsplit
    · cases hsplit
      rfl
    · have hlength := congrArg List.length hsplit
      simp [Enclosure.closing] at hlength
  obtain ⟨pieces, tail, hunique, -, hcount, hreplace⟩ :=
    countDelimiters_eq_count (charsOf bracedLiteral .nothing)
  obtain ⟨rfl, rfl⟩ := (hunique _ _).mp bracedLiteral_reads
  refine ⟨hclosed, hcount '{' '}' (by decide), ?_⟩
  exact (hreplace [.plain '{'] [.plain '}'] _ _ _ rfl hclosed).2

end Gleaner.Schema
