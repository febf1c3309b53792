import Mathlib.Data.List.DropRight
import Mathlib.Tactic.SplitIfs
import Gleaner.Text.Blank

/-!
# Trimming

Trimming at one end of a text sees only what stands there: of two texts one behind the other, the first
alone decides where the start of both is trimmed, unless it is blank, and the second alone where the end is.
So blanks at an end of a text do not outlive its trimming, and a blank inside does just when something else
stands on both sides of it.

## Main definitions

* `AllBlank`: a text of blanks only
* `Bare`: a text with nothing of a class at its ends

## Main results

* `trim_append_of_allBlank`, `trim_of_allBlank_append`: blanks at an end go
* `trim_append_of_not`: two texts that are not blank are trimmed at their outer ends
* `trim_append_cons_of_allBlank`, `length_trim_append_cons`: one character between two texts
* `bare_dropEnd_dropWhile`, `Bare.dropEnd_dropWhile`: a text is trimmed until its ends are bare, and no
  further
* `trim_isPrefix`, `isBlank_of_trim_cons`: what a trimmed text starts with
* `trim_isInfix`, `isBlank_of_mem_getLast?_trimEnd`: what is left of a text, and what it ends with
-/

namespace Gleaner.Text

variable {cs ds rest : List Char} {c b : Char}

/-! ## Texts of blanks -/

/-- A text of blanks only. -/
def AllBlank (cs : List Char) : Prop :=
  ∀ c ∈ cs, isBlank c = true

instance (cs : List Char) : Decidable (AllBlank cs) :=
  List.decidableBAll (fun c => isBlank c = true) cs

@[simp] theorem allBlank_nil : AllBlank [] := by
  simp [AllBlank]

@[simp] theorem allBlank_cons : AllBlank (c :: cs) ↔ isBlank c = true ∧ AllBlank cs := by
  simp [AllBlank]

@[simp] theorem allBlank_append : AllBlank (cs ++ ds) ↔ AllBlank cs ∧ AllBlank ds :=
  List.forall_mem_append

theorem AllBlank.concat (h : AllBlank cs) (hb : isBlank b = true) : AllBlank (cs ++ [b]) := by
  simp [h, hb]

@[simp] theorem trimStart_eq_nil_iff : trimStart cs = [] ↔ AllBlank cs :=
  List.dropWhile_eq_nil_iff

@[simp] theorem trimEnd_eq_nil_iff : trimEnd cs = [] ↔ AllBlank cs :=
  List.rdropWhile_eq_nil_iff

/-- Trimming the start leaves a blank text only of a blank text. -/
@[simp] theorem allBlank_trimStart : AllBlank (trimStart cs) ↔ AllBlank cs := by
  refine ⟨fun h => ?_, fun h => by rw [trimStart_eq_nil_iff.mpr h]; exact allBlank_nil⟩
  rw [← trimStart_eq_nil_iff] at h ⊢
  rwa [trimStart, trimStart, List.dropWhile_idempotent] at h

/-- Trimming the end leaves a blank text only of a blank text. -/
@[simp] theorem allBlank_trimEnd : AllBlank (trimEnd cs) ↔ AllBlank cs := by
  refine ⟨fun h => ?_, fun h => by rw [trimEnd_eq_nil_iff.mpr h]; exact allBlank_nil⟩
  rw [← trimEnd_eq_nil_iff] at h ⊢
  rwa [show trimEnd (trimEnd cs) = trimEnd cs from List.rdropWhile_idempotent isBlank cs] at h

@[simp] theorem trim_eq_nil_iff : trim cs = [] ↔ AllBlank cs := by
  rw [trim, trimEnd_eq_nil_iff, allBlank_trimStart]

/-- A text that is not blank is blanks, a first character that is none, and the rest. -/
theorem exists_lead_of_not_allBlank (h : ¬ AllBlank cs) :
    ∃ lead c rest, cs = lead ++ c :: rest ∧ AllBlank lead ∧ isBlank c = false ∧
      trimStart cs = c :: rest := by
  obtain ⟨c, rest, hstart⟩ := List.exists_cons_of_ne_nil (mt trimStart_eq_nil_iff.mp h)
  refine ⟨cs.takeWhile isBlank, c, rest, ?_, fun _ => List.mem_takeWhile_imp, ?_, hstart⟩
  · rw [← hstart]
    exact List.takeWhile_append_dropWhile.symm
  · have hfirst := List.head?_dropWhile_not isBlank cs
    rwa [← trimStart, hstart] at hfirst

/-! ## One text behind another -/

theorem dropEnd_append {α : Type} (p : α → Bool) (cs ds : List α) :
    dropEnd p (cs ++ ds) = if dropEnd p ds = [] then dropEnd p cs else cs ++ dropEnd p ds := by
  unfold dropEnd
  rw [List.reverse_append, List.dropWhile_append]
  simp only [List.isEmpty_iff, List.reverse_eq_nil_iff]
  split_ifs
  · rfl
  · rw [List.reverse_append, List.reverse_reverse]

/-- Only what is in the class is cut off. -/
theorem mem_dropEnd_iff {α : Type} {p : α → Bool} {cs : List α} {c : α} (h : p c = false) :
    c ∈ dropEnd p cs ↔ c ∈ cs := by
  have hcut : c ∉ cs.reverse.takeWhile p := fun hmem => by
    rw [List.mem_takeWhile_imp hmem] at h
    cases h
  have hsplit : c ∈ cs ↔ c ∈ cs.reverse.takeWhile p ∨ c ∈ cs.reverse.dropWhile p := by
    rw [← List.mem_append, List.takeWhile_append_dropWhile, List.mem_reverse]
  rw [dropEnd, List.mem_reverse, hsplit, or_iff_right hcut]

theorem trimEnd_append_of_allBlank (h : AllBlank ds) : trimEnd (cs ++ ds) = trimEnd cs := by
  rw [← trimEnd_eq_nil_iff, trimEnd] at h
  rw [trimEnd, dropEnd_append, if_pos h, trimEnd]

theorem trimEnd_append_of_not (h : ¬ AllBlank ds) : trimEnd (cs ++ ds) = cs ++ trimEnd ds := by
  rw [← trimEnd_eq_nil_iff, trimEnd] at h
  rw [trimEnd, dropEnd_append, if_neg h, trimEnd]

theorem trimStart_of_allBlank_append (h : AllBlank cs) : trimStart (cs ++ ds) = trimStart ds := by
  rw [← trimStart_eq_nil_iff, trimStart] at h
  rw [trimStart, List.dropWhile_append, h]
  rfl

theorem trimStart_append_of_not (h : ¬ AllBlank cs) : trimStart (cs ++ ds) = trimStart cs ++ ds := by
  rw [← trimStart_eq_nil_iff, trimStart, ← List.isEmpty_iff] at h
  rw [trimStart, List.dropWhile_append, if_neg h, trimStart]

/-- **Blanks behind a text go when it is trimmed.** -/
theorem trim_append_of_allBlank (h : AllBlank ds) : trim (cs ++ ds) = trim cs := by
  by_cases hcs : AllBlank cs
  · rw [trim_eq_nil_iff.mpr hcs, trim_eq_nil_iff, allBlank_append]
    exact ⟨hcs, h⟩
  · rw [trim, trimStart_append_of_not hcs, trimEnd_append_of_allBlank h, trim]

/-- **Blanks before a text go when it is trimmed.** -/
theorem trim_of_allBlank_append (h : AllBlank cs) : trim (cs ++ ds) = trim ds := by
  rw [trim, trimStart_of_allBlank_append h, trim]

/-- **Texts that are not blank** are trimmed at their outer ends only. -/
theorem trim_append_of_not (hcs : ¬ AllBlank cs) (hds : ¬ AllBlank ds) :
    trim (cs ++ ds) = trimStart cs ++ trimEnd ds := by
  rw [trim, trimStart_append_of_not hcs, trimEnd_append_of_not hds]

/-- A blank next to a blank text goes with it when all is trimmed. -/
theorem trim_append_cons_of_allBlank (hb : isBlank b = true) (h : AllBlank cs ∨ AllBlank ds) :
    trim (cs ++ b :: ds) = trim (cs ++ ds) := by
  rcases h with hcs | hds
  · rw [← List.singleton_append, ← List.append_assoc, trim_of_allBlank_append (hcs.concat hb),
      trim_of_allBlank_append hcs]
  · have hmore : AllBlank (b :: ds) := by simp [hds, hb]
    rw [trim_append_of_allBlank hmore, trim_append_of_allBlank hds]

/-- A character between texts that are not blank is never trimmed. -/
theorem length_trim_append_cons (b : Char) (hcs : ¬ AllBlank cs) (hds : ¬ AllBlank ds) :
    (trim (cs ++ b :: ds)).length = (trim (cs ++ ds)).length + 1 := by
  have hmore : ¬ AllBlank (b :: ds) := fun h => hds (allBlank_cons.mp h).2
  rw [trim_append_of_not hcs hmore, trim_append_of_not hcs hds, ← List.singleton_append,
    trimEnd_append_of_not hds]
  simp only [List.length_append, List.length_singleton]
  omega

/-! ## Bare ends -/

section Bare

variable {α : Type} {p : α → Bool} {cs : List α} {c : α}

/-- A text that is cut at its end by a class does not end with a character of it. -/
theorem eq_false_of_mem_getLast?_dropEnd (h : c ∈ (dropEnd p cs).getLast?) :
    p c = false := by
  obtain ⟨hne, rfl⟩ := List.mem_getLast?_eq_getLast h
  exact Bool.eq_false_iff.mpr (List.rdropWhile_last_not p cs hne)

/-- Neither end of a text has a character of a class. -/
structure Bare (p : α → Bool) (cs : List α) : Prop where
  first : ∀ c ∈ cs.head?, p c = false
  last : ∀ c ∈ cs.getLast?, p c = false

/-- **What is trimmed is bare.** -/
theorem bare_dropEnd_dropWhile (p : α → Bool) (cs : List α) :
    Bare p (dropEnd p (cs.dropWhile p)) := by
  constructor
  · intro c hc
    -- the cut at the end leaves the first character, unless it leaves nothing
    obtain ⟨rest, hrest⟩ := List.rdropWhile_prefix p (cs.dropWhile p)
    have hfirst := List.head?_dropWhile_not p cs
    rw [← hrest, show List.rdropWhile p (cs.dropWhile p) = dropEnd p (cs.dropWhile p) from rfl,
      List.head?_append, Option.mem_def.mp hc] at hfirst
    exact hfirst
  · intro c hc
    exact eq_false_of_mem_getLast?_dropEnd hc

/-- **What is bare stays as it is.** -/
theorem Bare.dropEnd_dropWhile (h : Bare p cs) : dropEnd p (cs.dropWhile p) = cs := by
  have hstart : cs.dropWhile p = cs := by
    cases cs with
    | nil => rfl
    | cons c rest => rw [List.dropWhile_cons_of_neg (by simp [h.first c rfl])]
  rw [hstart]
  refine List.rdropWhile_eq_self_iff.mpr fun hne => ?_
  exact Bool.eq_false_iff.mp (h.last _ (List.getLast?_eq_some_getLast hne))

/-- One more character in front, which is not of the class. -/
theorem Bare.cons (h : Bare p cs) (hc : p c = false) : Bare p (c :: cs) := by
  refine ⟨by simp [hc], fun d hd => ?_⟩
  cases cs with
  | nil =>
    obtain rfl : c = d := by simpa using hd
    exact hc
  | cons first rest =>
    rw [List.getLast?_cons_cons] at hd
    exact h.last d hd

end Bare

theorem bare_trim (cs : List Char) : Bare isBlank (trim cs) :=
  bare_dropEnd_dropWhile isBlank cs

/-! ## What a trimmed text starts with -/

/-- Trimming the end only cuts the end. -/
theorem trim_isPrefix (cs : List Char) : trim cs <+: trimStart cs :=
  List.rdropWhile_prefix isBlank (trimStart cs)

/-- A trimmed text does not start with a blank. -/
theorem isBlank_of_trim_cons (h : trim cs = c :: rest) : isBlank c = false := by
  refine (bare_trim cs).first c ?_
  rw [h]
  rfl

@[simp] theorem trimStart_trim (cs : List Char) : trimStart (trim cs) = trim cs := by
  cases h : trim cs with
  | nil => rfl
  | cons c rest => simp [trimStart, isBlank_of_trim_cons h]

/-! ## What is left of a text -/

theorem trimEnd_isPrefix (cs : List Char) : trimEnd cs <+: cs :=
  List.rdropWhile_prefix isBlank cs

/-- Trimming leaves a part of a text as it is. -/
theorem trim_isInfix (cs : List Char) : trim cs <:+: cs :=
  (trim_isPrefix cs).isInfix.trans (List.dropWhile_suffix isBlank).isInfix

/-- A text that is trimmed at its end does not end with a blank. -/
theorem isBlank_of_mem_getLast?_trimEnd (h : c ∈ (trimEnd cs).getLast?) : isBlank c = false :=
  eq_false_of_mem_getLast?_dropEnd h

end Gleaner.Text
