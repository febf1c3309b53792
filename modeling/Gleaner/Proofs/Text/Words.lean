import Mathlib.Data.List.Chain
import Gleaner.Proofs.Text.Trim

/-!
# Words with single blanks between them

There are two ways to bring a text into one line: to replace each run of blanks by one ordinary blank and
trim the result, or to take its words and put one ordinary blank between neighbours. They give the same.
The first keeps track of whether it is inside a run, the second of the word that is under way, so that the
induction is on the text with both of them in view.

All else about words follows from one equation: a blank divides the words before it from those behind it.
So blanks count only by where they are, and not by how many or which.

## Main definitions

* `Solid`: a word
* `SingleSpaced`: single ordinary blanks are the only blanks

## Main results

* `words_append_cons_of_isBlank`, `words_append_gap`: what blanks do to the words
* `singleSpaced_intercalate`: words with one blank between them
* `trim_collapse_eq_intercalate`: the two ways into one line
-/

namespace Gleaner.Text

variable {cs ds word : List Char} {c b : Char} {ws : List (List Char)}

/-! ## Words -/

/-- A word: at least one character, and none of them blank. -/
structure Solid (word : List Char) : Prop where
  ne_nil : word ≠ []
  unbroken : ∀ c ∈ word, isBlank c = false

instance (word : List Char) : Decidable (Solid word) :=
  letI := List.decidableBAll (fun c => isBlank c = false) word
  decidable_of_iff (word ≠ [] ∧ ∀ c ∈ word, isBlank c = false)
    ⟨fun h => ⟨h.1, h.2⟩, fun h => ⟨h.ne_nil, h.unbroken⟩⟩

theorem solid_of_mem_wordsFrom (hword : ∀ c ∈ word, isBlank c = false) :
    ∀ w ∈ wordsFrom word cs, Solid w := by
  have hdone : word ≠ [] → Solid word.reverse := by
    intro hne
    exact ⟨by simpa using hne, fun c hc => hword c (List.mem_reverse.mp hc)⟩
  induction cs generalizing word with
  | nil =>
    intro w hw
    rw [wordsFrom] at hw
    split_ifs at hw with hempty
    · cases hw
    · obtain rfl := List.mem_singleton.mp hw
      exact hdone (by simpa using hempty)
  | cons c cs ih =>
    have hafresh : ∀ w ∈ wordsFrom [] cs, Solid w := by
      apply ih
      · exact fun c hc => absurd hc List.not_mem_nil
      · exact fun hne => absurd rfl hne
    intro w hw
    rw [wordsFrom] at hw
    split_ifs at hw with hblank hempty
    · exact hafresh w hw
    · -- a blank ends the word under way
      rcases List.mem_cons.mp hw with rfl | hlater
      · exact hdone (by simpa using hempty)
      · exact hafresh w hlater
    · -- the character belongs to the word under way
      have hlonger : ∀ d ∈ c :: word, isBlank d = false := by
        intro d hd
        rcases List.mem_cons.mp hd with rfl | hd
        · simpa using hblank
        · exact hword d hd
      apply ih hlonger _ w hw
      intro hne
      exact ⟨by simp, fun d hd => hlonger d (List.mem_reverse.mp hd)⟩

theorem solid_of_mem_words (h : word ∈ words cs) : Solid word :=
  solid_of_mem_wordsFrom (fun _ hc => absurd hc List.not_mem_nil) word h

/-! ## Single blanks -/

/-- No blank but the ordinary one, and no two of them in a row. -/
structure SingleSpaced (cs : List Char) : Prop where
  ordinary : ∀ c ∈ cs, isBlank c = true → c = ' '
  single : cs.IsChain fun c d => isBlank c = true → isBlank d = false

namespace SingleSpaced

theorem of_solid (h : ∀ c ∈ cs, isBlank c = false) : SingleSpaced cs := by
  refine ⟨fun c hc hblank => ?_, List.Pairwise.isChain ?_⟩
  · rw [h c hc] at hblank
    cases hblank
  · exact List.pairwise_of_forall_mem_list fun _ _ d hd _ => h d hd

/-- Two such texts one behind the other, where they do not meet in two blanks. -/
theorem append (hcs : SingleSpaced cs) (hds : SingleSpaced ds)
    (hmeet : ∀ c ∈ cs.getLast?, ∀ d ∈ ds.head?, isBlank c = true → isBlank d = false) :
    SingleSpaced (cs ++ ds) := by
  refine ⟨fun c hc hblank => ?_, hcs.single.append hds.single hmeet⟩
  rcases List.mem_append.mp hc with hc | hc
  · exact hcs.ordinary c hc hblank
  · exact hds.ordinary c hc hblank

theorem take (h : SingleSpaced cs) (n : ℕ) : SingleSpaced (cs.take n) :=
  ⟨fun c hc => h.ordinary c (List.mem_of_mem_take hc), h.single.take n⟩

end SingleSpaced

theorem Solid.head? (h : Solid word) (cs : List Char) (hc : c ∈ (word ++ cs).head?) :
    isBlank c = false := by
  rw [List.head?_append_of_ne_nil word h.ne_nil] at hc
  exact h.unbroken c (List.mem_of_head? hc)

/-- **Words with one blank between them.** -/
theorem singleSpaced_intercalate (h : ∀ w ∈ ws, Solid w) :
    SingleSpaced (List.intercalate [' '] ws) := by
  have hblank : SingleSpaced [' '] := ⟨by simp, List.isChain_singleton _⟩
  induction ws with
  | nil => exact .of_solid (by simp)
  | cons w ws ih =>
    have hw : Solid w := h w List.mem_cons_self
    cases ws with
    | nil =>
      rw [List.intercalate_singleton]
      exact .of_solid hw.unbroken
    | cons v ws =>
      have hrest := ih fun u hu => h u (List.mem_cons_of_mem w hu)
      have hv : Solid v := h v (List.mem_cons_of_mem w List.mem_cons_self)
      rw [List.intercalate_cons_cons]
      refine ((SingleSpaced.of_solid hw.unbroken).append hblank ?_).append hrest ?_
      · -- the last character of a word is no blank
        intro c hc _ _ hc'
        rw [hw.unbroken c (List.mem_of_getLast? hc)] at hc'
        cases hc'
      · -- what follows the blank starts with a word
        intro _ _ d hd _
        cases ws with
        | nil => exact hv.head? [] (by simpa using hd)
        | cons u ws =>
          rw [List.intercalate_cons_cons, List.append_assoc] at hd
          exact hv.head? _ hd

/-! ## The words around a blank -/

/-- A blank ends the word under way, and the words behind it are those of what follows. -/
theorem wordsFrom_append_cons_of_isBlank (hb : isBlank b = true) (word cs ds : List Char) :
    wordsFrom word (cs ++ b :: ds) = wordsFrom word cs ++ words ds := by
  induction cs generalizing word with
  | nil =>
    have hends : wordsFrom word (b :: ds) =
        if word.isEmpty then words ds else word.reverse :: words ds := by
      rw [wordsFrom, if_pos hb, words]
    rw [List.nil_append, hends, wordsFrom]
    split_ifs
    · rfl
    · rfl
  | cons c cs ih =>
    rw [List.cons_append, wordsFrom, wordsFrom]
    split_ifs
    · exact ih []
    · rw [ih [], List.cons_append]
    · exact ih (c :: word)

/-- **A blank divides the words** before it from those behind it. -/
theorem words_append_cons_of_isBlank (hb : isBlank b = true) (cs ds : List Char) :
    words (cs ++ b :: ds) = words cs ++ words ds :=
  wordsFrom_append_cons_of_isBlank hb [] cs ds

/-- Blanks in front of a text belong to no word. -/
theorem words_append_of_allBlank (h : AllBlank cs) (ds : List Char) : words (cs ++ ds) = words ds := by
  induction cs with
  | nil => rfl
  | cons b cs ih =>
    obtain ⟨hb, hcs⟩ := allBlank_cons.mp h
    have hsplit := words_append_cons_of_isBlank hb [] (cs ++ ds)
    rw [List.nil_append] at hsplit
    rw [List.cons_append, hsplit, ih hcs]
    rfl

/-- **A run of blanks** divides words like one blank, whatever its length and whatever the blanks are. -/
theorem words_append_gap {gap : List Char} (hgap : AllBlank gap) (hne : gap ≠ []) (cs ds : List Char) :
    words (cs ++ gap ++ ds) = words cs ++ words ds := by
  obtain ⟨b, rest, rfl⟩ := List.exists_cons_of_ne_nil hne
  obtain ⟨hb, hrest⟩ := allBlank_cons.mp hgap
  rw [List.append_assoc, List.cons_append, words_append_cons_of_isBlank hb, words_append_of_allBlank hrest]

/-! ## Two ways into one line -/

theorem Solid.trimEnd_eq (h : Solid word) : trimEnd word = word := by
  rw [trimEnd, dropEnd, List.dropWhile_eq_self_iff.mpr, List.reverse_reverse]
  intro hlength
  rw [h.unbroken _ (List.mem_reverse.mp (List.getElem_mem hlength))]
  exact Bool.false_ne_true

/-- Words with blanks between them make up nothing only if there are none. -/
theorem intercalate_eq_nil_iff (h : ∀ w ∈ ws, Solid w) : List.intercalate [' '] ws = [] ↔ ws = [] := by
  cases ws with
  | nil => exact iff_of_true rfl rfl
  | cons w ws =>
    have hw := (h w List.mem_cons_self).ne_nil
    cases ws with
    | nil => simpa using hw
    | cons v ws => simp [List.intercalate_cons_cons]

/-- A word, one blank, and a text that is trimmed at its end to the words that follow. -/
theorem trimEnd_word_append (hword : Solid word) (h : ∀ w ∈ ws, Solid w)
    (hrest : trimEnd ds = List.intercalate [' '] ws) :
    trimEnd (word ++ ' ' :: ds) = List.intercalate [' '] (word :: ws) := by
  cases ws with
  | nil =>
    have hblank : AllBlank (' ' :: ds) := by
      rw [allBlank_cons, ← trimEnd_eq_nil_iff, hrest]
      exact ⟨rfl, rfl⟩
    rw [trimEnd_append_of_allBlank hblank, hword.trimEnd_eq, List.intercalate_singleton]
  | cons v ws =>
    have hds : ¬ AllBlank ds := by
      rw [← trimEnd_eq_nil_iff, hrest, intercalate_eq_nil_iff h]
      exact List.cons_ne_nil v ws
    rw [← List.singleton_append, ← List.append_assoc, trimEnd_append_of_not hds, hrest,
      List.intercalate_cons_cons]

/-- Inside a run of blanks the next word is still to come; outside of one a word is under way. -/
theorem trimEnd_collapseFrom (cs : List Char) :
    trimEnd (collapseFrom true cs) = List.intercalate [' '] (words cs) ∧
      ∀ word, word ≠ [] → (∀ c ∈ word, isBlank c = false) →
        trimEnd (word.reverse ++ collapseFrom false cs) = List.intercalate [' '] (wordsFrom word cs) := by
  induction cs with
  | nil =>
    refine ⟨rfl, fun word hne hword => ?_⟩
    have hsolid : Solid word.reverse := ⟨by simpa using hne, by simpa using hword⟩
    rw [collapseFrom, wordsFrom, if_neg (by simpa using hne), List.append_nil, hsolid.trimEnd_eq,
      List.intercalate_singleton]
  | cons c cs ih =>
    obtain ⟨hrun, hunderWay⟩ := ih
    by_cases hc : isBlank c = true
    · refine ⟨?_, fun word hne hword => ?_⟩
      · rw [collapseFrom, if_pos hc, if_pos rfl, words, wordsFrom, if_pos hc, if_pos (by rfl)]
        exact hrun
      · -- the blank ends the word under way and starts a run
        have hsolid : Solid word.reverse := ⟨by simpa using hne, by simpa using hword⟩
        rw [collapseFrom, if_pos hc, if_neg Bool.false_ne_true, wordsFrom, if_pos hc,
          if_neg (by simpa using hne)]
        exact trimEnd_word_append hsolid (fun _ => solid_of_mem_words) hrun
    · have hsolid : isBlank c = false := by simpa using hc
      refine ⟨?_, fun word hne hword => ?_⟩
      · rw [collapseFrom, if_neg hc, words, wordsFrom, if_neg hc]
        exact hunderWay [c] (List.cons_ne_nil c []) (by simpa using hsolid)
      · rw [collapseFrom, if_neg hc, wordsFrom, if_neg hc]
        have hmore := hunderWay (c :: word) (List.cons_ne_nil c word) (by simpa [hsolid] using hword)
        rwa [List.reverse_cons, List.append_assoc] at hmore

/-- The first run of blanks leaves one blank, which goes when the text is trimmed. -/
theorem trim_collapse (cs : List Char) : trim (collapse cs) = trimEnd (collapseFrom true cs) := by
  -- inside a run nothing is written before the next word
  have hrun : ∀ cs, trimStart (collapseFrom true cs) = collapseFrom true cs := by
    intro cs
    induction cs with
    | nil => rfl
    | cons c cs ih =>
      by_cases hc : isBlank c = true
      · rw [collapseFrom, if_pos hc, if_pos rfl, ih]
      · rw [collapseFrom, if_neg hc, trimStart, List.dropWhile_cons_of_neg hc]
  cases cs with
  | nil => rfl
  | cons c cs =>
    by_cases hc : isBlank c = true
    · rw [collapse, collapseFrom, if_pos hc, if_neg Bool.false_ne_true, collapseFrom, if_pos hc,
        if_pos rfl, trim, trimStart, List.dropWhile_cons_of_pos (by rfl), ← trimStart, hrun]
    · rw [collapse, collapseFrom, if_neg hc, collapseFrom, if_neg hc, trim, trimStart,
        List.dropWhile_cons_of_neg hc]

/-- **Two ways into one line**: the runs of blanks replaced and the ends trimmed, or the words with one
blank between them. -/
theorem trim_collapse_eq_intercalate (cs : List Char) :
    trim (collapse cs) = List.intercalate [' '] (words cs) := by
  rw [trim_collapse, (trimEnd_collapseFrom cs).1]

end Gleaner.Text
