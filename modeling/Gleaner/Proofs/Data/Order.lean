import Mathlib.Data.List.Perm.Basic
import Gleaner.Data.Order

/-!
# Sorting keeps the entries

Sorting asks for the order of two entries at a time. Where every such question has an answer, sorting has
a result, and the result holds the same entries. Texts can always be compared.

## Main definitions

* `Comparable`: every two entries of a list can be compared

## Main results

* `sortWith_perm`: sorting comparable entries rearranges them
* `Value.sortEntries_perm`: entries under text keys can be sorted
-/

namespace Gleaner

variable {α ε : Type} {less : α → α → Except ε Bool}

/-- Every two entries of a list can be compared. -/
def Comparable (less : α → α → Except ε Bool) (entries : List α) : Prop :=
  ∀ a ∈ entries, ∀ b ∈ entries, ∃ below, less a b = .ok below

theorem Comparable.mono {entries others : List α} (h : Comparable less entries)
    (hsubset : others ⊆ entries) : Comparable less others :=
  fun a ha b hb => h a (hsubset ha) b (hsubset hb)

/-- The run at the front and what is left of it are the whole list. -/
theorem takeRun_append (down : Bool) (previous : α) {entries : List α}
    (h : Comparable less (previous :: entries)) :
    ∃ run left, takeRun less down previous entries = .ok (run, left) ∧ run ++ left = entries := by
  induction entries generalizing previous with
  | nil => exact ⟨[], [], rfl, rfl⟩
  | cons a entries ih =>
    obtain ⟨below, hbelow⟩ := h a (by simp) previous (by simp)
    simp only [takeRun, hbelow, bind, Except.bind]
    split_ifs
    · obtain ⟨run, left, hrun, happend⟩ := ih a (h.mono (List.subset_cons_self ..))
      refine ⟨a :: run, left, ?_, by rw [List.cons_append, happend]⟩
      rw [hrun]
      rfl
    · exact ⟨[], a :: entries, rfl, rfl⟩

theorem placeBetween_isOk (sorted : List α) (a : α)
    (h : ∀ b ∈ sorted, ∃ below, less a b = .ok below) (low high : ℕ) :
    ∃ place, placeBetween less sorted a low high = .ok place := by
  fun_induction placeBetween less sorted a low high with
  | case1 low high hlow middle hnone => exact ⟨low, rfl⟩
  | case2 low high hlow middle b hsome ihbelow ihabove =>
    obtain ⟨below, hbelow⟩ := h b (List.mem_of_getElem? hsome)
    simp only [hbelow, bind, Except.bind]
    cases below with
    | true => exact ihbelow
    | false => exact ihabove
  | case3 low high hlow => exact ⟨low, rfl⟩

theorem insertAll_perm {sorted entries : List α} (h : Comparable less (sorted ++ entries)) :
    ∃ result, insertAll less sorted entries = .ok result ∧ result.Perm (sorted ++ entries) := by
  induction entries generalizing sorted with
  | nil => exact ⟨sorted, rfl, by rw [List.append_nil]⟩
  | cons a entries ih =>
    obtain ⟨place, hplace⟩ := placeBetween_isOk sorted a
      (fun b hb => h a (by simp) b (by simp [hb])) 0 sorted.length
    -- wherever the entry goes, the list so far is rearranged
    have hinsert : (sorted.take place ++ a :: sorted.drop place).Perm
        (a :: (sorted.take place ++ sorted.drop place)) := List.perm_middle
    rw [List.take_append_drop] at hinsert
    have hperm : (sorted.take place ++ a :: sorted.drop place ++ entries).Perm
        (sorted ++ a :: entries) :=
      (hinsert.append_right entries).trans List.perm_middle.symm
    obtain ⟨result, hresult, hsame⟩ := ih (h.mono hperm.subset)
    refine ⟨result, ?_, hsame.trans hperm⟩
    simp only [insertAll, hplace, bind, Except.bind, hresult]

/-- **Sorting comparable entries rearranges them.** -/
theorem sortWith_perm {entries : List α} (h : Comparable less entries) :
    ∃ sorted, sortWith less entries = .ok sorted ∧ sorted.Perm entries := by
  match entries with
  | [] => exact ⟨[], rfl, .refl _⟩
  | [a] => exact ⟨[a], rfl, .refl _⟩
  | a :: b :: rest =>
    obtain ⟨down, hdown⟩ := h b (by simp) a (by simp)
    obtain ⟨run, left, hrun, rfl⟩ := takeRun_append down b (h.mono (List.subset_cons_self ..))
    have hfront : (if down then (a :: b :: run).reverse else a :: b :: run).Perm (a :: b :: run) := by
      split_ifs
      · exact List.reverse_perm _
      · exact .refl _
    have hperm := hfront.append_right left
    obtain ⟨sorted, hsorted, hsame⟩ := insertAll_perm (h.mono hperm.subset)
    refine ⟨sorted, ?_, hsame.trans hperm⟩
    simp only [sortWith, hdown, hrun, bind, Except.bind, hsorted]

/-- **Entries under text keys can be sorted.** -/
theorem Value.sortEntries_perm {entries : List (Value × α)}
    (h : ∀ entry ∈ entries, ∃ key, entry.1 = .text key) :
    ∃ sorted, Value.sortEntries entries = .ok sorted ∧ sorted.Perm entries := by
  refine sortWith_perm fun a ha b hb => ?_
  obtain ⟨s, hs⟩ := h a ha
  obtain ⟨t, ht⟩ := h b hb
  exact ⟨decide (s < t), by rw [Value.lessEntry, hs, ht, Value.less?]⟩

end Gleaner
