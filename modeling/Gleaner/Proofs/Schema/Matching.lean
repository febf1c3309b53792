import Mathlib.Algebra.Ring.Int.Defs
import Gleaner.Proofs.Schema.Extent

/-!
# The brace that closes a block

The brace that matches the one of an opener is the first closing brace, read character by character,
at which the depth returns to zero. A scan does not look for it: it counts the braces of whole lines,
and ends a block on the first line at whose end the depth is back at zero. The two part on a line that
closes the block and opens another one behind it, as in `} message B {`: there the depth returns to
zero in the middle of the line and is positive again at its end, so that the scan reads on, and the
block takes in what follows it.

The matching brace of an element thus stands on its last line or before. It stands on the last line
exactly if what follows the brace on its own line does not open more braces than it closes.

## Main definitions

* `plainChars`: the characters in which braces count
* `netBraces`: what the braces among characters add to the depth
* `Block.MatchedAt`: the place of the brace that matches the opener

## Main results

* `tally_eq_foldr`: counting delimiters is counting plain characters
* `Block.exists_matchedAt`: a block that ends has a matching brace
* `scanText_matching_brace`: where the matching brace of an element stands
* `scanText_ends_behind_matching_brace`: an element that ends behind its matching brace
-/

namespace Gleaner.Schema

open Gleaner.Text

/-! ## Plain characters -/

/-- The characters that are in no comment and in no literal, from a mode on. The quotes around a
literal are not among them. -/
def plainFrom : Mode → Bool → List Char → List Char
  | _, _, [] => []
  | .comment, _, '*' :: '/' :: rest => plainFrom .plain false rest
  | .comment, _, _ :: rest => plainFrom .comment false rest
  | .literal quote, escaped, c :: rest =>
    if c = quote && !escaped then plainFrom .plain false rest
    else plainFrom (.literal quote) (c == '\\') rest
  | .plain, _, '/' :: '/' :: _ => []
  | .plain, _, '/' :: '*' :: rest => plainFrom .comment false rest
  | .plain, escaped, c :: rest =>
    if isQuote c && !escaped then plainFrom (.literal c) false rest
    else c :: plainFrom .plain (c == '\\') rest

/-- The characters of a text that are in no comment and in no literal. -/
def plainChars (text : List Char) : List Char :=
  plainFrom .plain false text

/-- **Delimiters are counted among the plain characters.** -/
theorem tally_eq_foldr (d : Delimiters) (mode : Mode) (escaped : Bool) (cs : List Char) :
    tally d mode escaped cs = (plainFrom mode escaped cs).foldr (Tally.add d) {} := by
  fun_induction tally d mode escaped cs with
  | case1 => simp [plainFrom]
  | case2 _ rest ih => simpa [plainFrom] using ih
  | case3 _ c rest hends ih => simpa [plainFrom, hends] using ih
  | case4 quote escaped c rest hcloses ih => simpa [plainFrom, hcloses] using ih
  | case5 quote escaped c rest hcloses ih => simpa [plainFrom, hcloses] using ih
  | case6 => simp [plainFrom]
  | case7 _ rest ih => simpa [plainFrom] using ih
  | case8 escaped c rest hline hblock hquote ih => simpa [plainFrom, hline, hblock, hquote] using ih
  | case9 escaped c rest hline hblock hquote ih =>
    -- the only case in which a character counts
    simpa [plainFrom, hline, hblock, hquote] using congrArg (Tally.add d c) ih

/-! ## The depth, character by character -/

/-- What a plain character adds to the depth. -/
def charBalance (c : Char) : ℤ :=
  if c = '{' then 1 else if c = '}' then -1 else 0

/-- What the braces among plain characters add to the depth. -/
def netBraces (cs : List Char) : ℤ :=
  (cs.map charBalance).sum

@[simp] theorem netBraces_nil : netBraces [] = 0 := rfl

@[simp] theorem netBraces_cons (c : Char) (cs : List Char) :
    netBraces (c :: cs) = charBalance c + netBraces cs := by
  simp [netBraces]

@[simp] theorem netBraces_append (cs ds : List Char) :
    netBraces (cs ++ ds) = netBraces cs + netBraces ds := by
  simp [netBraces]

theorem balance_add_braces (c : Char) (t : Tally) :
    (t.add braces c).balance = charBalance c + t.balance := by
  unfold Tally.add charBalance
  by_cases hopen : c = '{'
  · subst hopen
    simp only [braces, Tally.balance, if_true]
    push_cast
    omega
  · by_cases hclose : c = '}'
    · subst hclose
      simp only [braces, Tally.balance, Option.some.injEq, if_true,
        show ¬ ('{' : Char) = '}' by decide, show ¬ ('}' : Char) = '{' by decide, if_false]
      push_cast
      omega
    · simp [braces, hopen, hclose, Ne.symm hopen, Ne.symm hclose]

/-- What a text adds to the depth is what its plain characters add. -/
theorem braceBalance_eq_netBraces (text : List Char) :
    braceBalance text = netBraces (plainChars text) := by
  have hfold : ∀ cs : List Char,
      (cs.foldr (Tally.add braces) {}).balance = netBraces cs := by
    intro cs
    induction cs with
    | nil => rfl
    | cons c rest ih => rw [List.foldr_cons, balance_add_braces, ih, netBraces_cons]
  rw [braceBalance, countDelimiters, tally_eq_foldr, hfold, plainChars]

variable {b : Block} {lines : List String} {n j : ℕ}

namespace Block

/-- The plain characters of line `n` that belong to a block, which on its first line are those behind
the brace of the opener. -/
def charsAt (b : Block) (lines : List String) (n : ℕ) : List Char :=
  if n = b.line then plainChars b.opener.rest
  else ((lineAt lines n).map fun line => plainChars line.toList).getD []

/-- The plain characters of a block on the lines before line `n`. -/
def charsBefore (b : Block) (lines : List String) (n : ℕ) : List Char :=
  (List.range' b.line (n - b.line)).flatMap (b.charsAt lines)

/-- The depth after some of the characters of a block, which are those behind its first brace. -/
def depthAfter (cs : List Char) : ℤ :=
  1 + netBraces cs

/-- **The matching brace**: a closing brace on line `n`, between the plain characters `left` and `right`
of that line, at which the depth returns to zero for the first time. -/
structure MatchedAt (b : Block) (lines : List String) (n : ℕ) (left right : List Char) : Prop where
  line_le : b.line ≤ n
  chars : b.charsAt lines n = left ++ '}' :: right
  zero : depthAfter (b.charsBefore lines n ++ left ++ ['}']) = 0
  first : ∀ start, start <+: b.charsBefore lines n ++ left → depthAfter start ≠ 0

end Block

open Block (depthAfter)

@[simp] theorem charsBefore_line (b : Block) (lines : List String) :
    b.charsBefore lines b.line = [] := by
  simp [Block.charsBefore]

theorem charsBefore_succ (h : b.line ≤ n) :
    b.charsBefore lines (n + 1) = b.charsBefore lines n ++ b.charsAt lines n := by
  unfold Block.charsBefore
  rw [show n + 1 - b.line = (n - b.line) + 1 by omega, List.range'_1_concat, List.flatMap_append,
    show b.line + (n - b.line) = n by omega, List.flatMap_singleton]

/-- What stands on the lines before one starts what stands on the lines before a later one. -/
theorem charsBefore_isPrefix (hbn : b.line ≤ n) (hnj : n ≤ j) :
    b.charsBefore lines n <+: b.charsBefore lines j := by
  induction j, hnj using Nat.le_induction with
  | base => exact List.prefix_refl _
  | succ j hnj ih =>
    rw [charsBefore_succ (hbn.trans hnj)]
    exact ih.trans (List.prefix_append _ _)

/-- A line behind the first one adds to the depth what its plain characters add. -/
theorem balanceAt_eq_netBraces (h : b.line < n) :
    balanceAt lines n = netBraces (b.charsAt lines n) := by
  rw [Block.charsAt, if_neg h.ne', balanceAt]
  cases lineAt lines n with
  | none => rfl
  | some line => exact braceBalance_eq_netBraces line.toList

/-- **The depth at the end of a line** is the one after all characters up to there. -/
theorem depthAt_eq_depthAfter (h : b.line ≤ n) :
    b.depthAt lines n = depthAfter (b.charsBefore lines (n + 1)) := by
  induction n, h using Nat.le_induction with
  | base =>
    rw [Block.depthAt_line, charsBefore_succ le_rfl, charsBefore_line, List.nil_append, Block.charsAt,
      if_pos rfl, braceBalance_eq_netBraces, depthAfter]
  | succ n hbn ih =>
    rw [Block.depthAt_succ hbn, ih, charsBefore_succ (Nat.le_succ_of_le hbn),
      balanceAt_eq_netBraces (b := b) (Nat.lt_succ_of_le hbn)]
    simp only [depthAfter, netBraces_append]
    exact add_assoc _ _ _

/-! ## Finding the matching brace -/

/-- **The depth cannot jump over zero.** Behind characters along which it was positive, further ones
keep it positive, or hold a closing brace at which it returns to zero for the first time. -/
theorem positive_or_returns {done : List Char} (cs : List Char)
    (hdone : ∀ start, start <+: done → 0 < depthAfter start) :
    (∀ start, start <+: done ++ cs → 0 < depthAfter start) ∨
      ∃ left right, cs = left ++ '}' :: right ∧ depthAfter (done ++ left ++ ['}']) = 0 ∧
        ∀ start, start <+: done ++ left → 0 < depthAfter start := by
  induction cs using List.reverseRecOn with
  | nil =>
    left
    rwa [List.append_nil]
  | append_singleton cs c ih =>
    rcases ih with hpositive | ⟨left, right, rfl, hzero, hfirst⟩
    · have hbefore := hpositive (done ++ cs) (List.prefix_refl _)
      have hafter : depthAfter (done ++ cs ++ [c]) = depthAfter (done ++ cs) + charBalance c := by
        simp only [depthAfter, netBraces_append, netBraces_cons, netBraces_nil]
        omega
      by_cases hstays : 0 < depthAfter (done ++ cs ++ [c])
      · left
        intro start hstart
        rw [← List.append_assoc] at hstart
        rcases List.prefix_concat_iff.mp hstart with rfl | hshort
        · exact hstays
        · exact hpositive start hshort
      · -- only a closing brace lowers the depth, and by no more than one
        right
        obtain rfl : c = '}' := by
          by_contra hne
          have hbalance : 0 ≤ charBalance c := by
            unfold charBalance
            split_ifs <;> simp
          omega
        have hbalance : charBalance '}' = -1 := rfl
        exact ⟨cs, [], rfl, by omega, hpositive⟩
    · right
      refine ⟨left, right ++ [c], ?_, hzero, hfirst⟩
      rw [List.append_assoc, List.cons_append]

/-- Up to any line the depth of a block was positive all along, or the matching brace stands before. -/
theorem positive_or_matchedAt (lines : List String) (h : b.line ≤ n) :
    (∀ start, start <+: b.charsBefore lines n → 0 < depthAfter start) ∨
      ∃ m left right, m < n ∧ b.MatchedAt lines m left right := by
  induction n, h using Nat.le_induction with
  | base =>
    left
    intro start hstart
    rw [charsBefore_line, List.prefix_nil] at hstart
    rw [hstart]
    exact Int.one_pos
  | succ n hbn ih =>
    rcases ih with hpositive | ⟨m, left, right, hmn, hmatched⟩
    · rcases positive_or_returns (b.charsAt lines n) hpositive with hstays |
        ⟨left, right, hchars, hzero, hfirst⟩
      · left
        rwa [charsBefore_succ hbn]
      · right
        exact ⟨n, left, right, Nat.lt_succ_self n, hbn, hchars, hzero,
          fun start hstart => (hfirst start hstart).ne'⟩
    · right
      exact ⟨m, left, right, Nat.lt_succ_of_lt hmn, hmatched⟩

/-- A block that ends has a matching brace. -/
theorem Block.EndsAt.exists_matchedAt (h : b.EndsAt lines j) :
    ∃ n left right, b.MatchedAt lines n left right := by
  rcases positive_or_matchedAt lines (Nat.le_succ_of_le h.line_le) with hpositive |
    ⟨n, left, right, -, hmatched⟩
  · have hopen := hpositive _ (List.prefix_refl _)
    rw [← depthAt_eq_depthAfter h.line_le] at hopen
    exact absurd h.1.2.2 (not_le.mpr hopen)
  · exact ⟨n, left, right, hmatched⟩

section Matched

variable {left right : List Char} (h : b.MatchedAt lines n left right)

include h

/-- At the end of the line of the matching brace the depth is what follows the brace there. -/
theorem Block.MatchedAt.depthAt_eq : b.depthAt lines n = netBraces right := by
  have hzero := h.zero
  rw [depthAt_eq_depthAfter h.line_le, charsBefore_succ h.line_le, h.chars]
  simp only [depthAfter, netBraces_append, netBraces_cons, netBraces_nil] at hzero ⊢
  omega

/-- The matching brace stands on the last line of a closed block or before. -/
theorem Block.MatchedAt.le_end (hends : b.EndsAt lines j) (hzero : b.depthAt lines j = 0) :
    n ≤ j := by
  by_contra hlate
  -- the depth would have returned to zero at the end of line `j`
  have hprefix : b.charsBefore lines (j + 1) <+: b.charsBefore lines n ++ left :=
    (charsBefore_isPrefix (Nat.le_succ_of_le hends.line_le) (by omega)).trans (List.prefix_append _ _)
  apply h.first _ hprefix
  rw [← depthAt_eq_depthAfter hends.line_le, hzero]

/-- It stands on the last line exactly if nothing is opened behind it on its own line. -/
theorem Block.MatchedAt.eq_end_iff (hends : b.EndsAt lines j) (hzero : b.depthAt lines j = 0) :
    n = j ↔ netBraces right ≤ 0 := by
  constructor
  · rintro rfl
    rw [← h.depthAt_eq, hzero]
  · intro hright
    have hle := h.le_end hends hzero
    refine le_antisymm hle (hends.2 ⟨h.line_le, hle.trans hends.le_length, ?_⟩)
    rwa [h.depthAt_eq]

end Matched

/-- **Where the matching brace of an element stands.** Each element has one; it stands on the last line
of the element or before, and on the last line exactly if what follows it on its own line does not open
more braces than it closes. -/
theorem scanText_matching_brace (filePath fileName : Text) (text : String) :
    ∃ r, scanText filePath fileName text = .ok r ∧ ∀ e ∈ r.elements, ∃ b : Block,
      (b.line : ℤ) = e.declarationLine ∧ openerAt (splitLines text) b.line = some b.opener ∧
      (∃ n left right, b.MatchedAt (splitLines text) n left right) ∧
      ∀ n left right, b.MatchedAt (splitLines text) n left right →
        e.declarationLine ≤ n ∧ n ≤ e.endLine ∧ ((n : ℤ) = e.endLine ↔ netBraces right ≤ 0) := by
  obtain ⟨r, hr, -, hdec⟩ := scanLines_decomposition filePath fileName (splitLines text)
  refine ⟨r, hr, ?_⟩
  intro e he
  obtain ⟨q, known, b, j, -, first, ends, zero, rfl⟩ := hdec.exists_block he
  refine ⟨b, rfl, first.opener, ends.exists_matchedAt, ?_⟩
  intro n left right hmatched
  refine ⟨Int.ofNat_le.mpr hmatched.line_le, Int.ofNat_le.mpr (hmatched.le_end ends zero), ?_⟩
  rw [← hmatched.eq_end_iff ends zero]
  exact Int.ofNat_inj

/-- A block, and behind its closing brace another one. -/
def reopenedBlock : String := "message A \x7b\n\x7d message B \x7b\n\x7d\n"

/-- In that file the element has a matching brace, on its last line or before. -/
theorem scanText_matching_brace_of_reopened :
    ∃ r e b n left right, scanText "a.proto" "a.proto" reopenedBlock = .ok r ∧ e ∈ r.elements ∧
      Block.MatchedAt b (splitLines reopenedBlock) n left right ∧ n ≤ e.endLine ∧
      ((n : ℤ) = e.endLine ↔ netBraces right ≤ 0) := by
  obtain ⟨r, hr, hmatching⟩ := scanText_matching_brace "a.proto" "a.proto" reopenedBlock
  have hcount : (scanText "a.proto" "a.proto" reopenedBlock).toOption.map (·.elements.length) =
      some 1 := by decide +kernel
  rw [hr] at hcount
  obtain ⟨e, he⟩ := List.length_eq_one_iff.mp (Option.some.inj hcount)
  have hmem : e ∈ r.elements := he ▸ List.mem_singleton_self e
  obtain ⟨b, -, -, ⟨n, left, right, hmatched⟩, hplace⟩ := hmatching e hmem
  exact ⟨r, e, b, n, left, right, hr, hmem, hmatched, (hplace n left right hmatched).2⟩

/-- The first block of the file, by its place. -/
def reopened : Block where
  opener := ⟨.message, ['A'], []⟩
  line := 1
  comments := 0
  package := none

theorem reopened_matchedAt :
    reopened.MatchedAt (splitLines reopenedBlock) 2 [] " message B \x7b".toList where
  line_le := by decide
  chars := by decide +kernel
  zero := by decide +kernel
  first := by
    intro start hstart
    have hnone : reopened.charsBefore (splitLines reopenedBlock) 2 ++ [] = [] := by decide +kernel
    rw [hnone, List.prefix_nil] at hstart
    rw [hstart]
    decide

/-- **An element may end behind its matching brace.** It does not always end on the line of that brace:
where another block opens behind the brace, the element takes in that block too. -/
theorem scanText_ends_behind_matching_brace :
    ¬ ∀ filePath fileName text r, scanText filePath fileName text = .ok r → ∀ e ∈ r.elements,
      ∀ b : Block, (b.line : ℤ) = e.declarationLine →
        openerAt (splitLines text) b.line = some b.opener →
        ∀ n left right, b.MatchedAt (splitLines text) n left right → (n : ℤ) = e.endLine := by
  intro halways
  obtain ⟨r, hr, -⟩ := scanLines_decomposition "a.proto" "a.proto" (splitLines reopenedBlock)
  have hplaces : (scanText "a.proto" "a.proto" reopenedBlock).toOption.map
      (·.elements.map fun e => (e.declarationLine, e.endLine)) = some [(1, 3)] := by decide +kernel
  rw [scanText, hr] at hplaces
  obtain ⟨e, he, hplace⟩ := List.map_eq_singleton_iff.mp (Option.some.inj hplaces)
  obtain ⟨hdeclared, hend⟩ := Prod.mk.inj hplace
  have hmem : e ∈ r.elements := he ▸ List.mem_singleton_self e
  have hsame := halways _ _ _ r hr e hmem reopened hdeclared.symm (by decide +kernel) _ _ _
    reopened_matchedAt
  rw [hend] at hsame
  exact absurd hsame (by decide)

end Gleaner.Schema
