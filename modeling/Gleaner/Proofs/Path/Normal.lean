import Gleaner.Proofs.Path.Below
import Gleaner.Proofs.Text.Lines

/-!
# Normal forms of absolute paths

The normal form of an absolute path is one or two slashes, and then names with slashes between. It is thus a
path below a root. What is below a normal form is in normal form too, so that nothing is lost by taking
the normal form of a path again.

## Main definitions

* `slashes`: a root, by the number of its slashes

## Main results

* `isName_of_mem_components`: the components of an absolute path are names
* `normalize_eq_below`: a normal form is a path below a root
* `absolute_below`: what is below a normal form is in normal form
-/

namespace Gleaner.Path

variable {cwd path : Text} {names : List Text} {k : ℕ}

/-! ## Components -/

/-- A stack of names stays one when a piece is taken onto it, from the root on. -/
theorem isName_of_mem_pushComponent {stack : List Text} {piece : Text}
    (hstack : ∀ c ∈ stack, IsName c) (hpiece : .char '/' ∉ piece.toList) :
    ∀ c ∈ pushComponent true stack piece, IsName c := by
  unfold pushComponent
  split
  · exact hstack
  · next hskip =>
    split
    · next hup =>
      rw [Bool.or_eq_true, decide_eq_true_eq, decide_eq_true_eq, not_or] at hskip
      exact List.forall_mem_cons.mpr ⟨⟨hskip.1, hskip.2, hup, hpiece⟩, hstack⟩
    · -- a step up takes the last name away
      cases stack with
      | nil => simp
      | cons last rest =>
        rw [List.forall_mem_cons] at hstack
        simpa only [if_neg hstack.1.2.2.1] using hstack.2

/-- **The components of an absolute path are names.** -/
theorem isName_of_mem_components (h : isAbsolute path = true) : ∀ c ∈ components path, IsName c := by
  have hfold : ∀ (ps stack : List Text), (∀ p ∈ ps, .char '/' ∉ p.toList) → (∀ c ∈ stack, IsName c) →
      ∀ c ∈ ps.foldl (pushComponent true) stack, IsName c := by
    intro ps
    induction ps with
    | nil => exact fun stack _ hstack => hstack
    | cons p ps ih =>
      intro stack hps hstack
      rw [List.forall_mem_cons] at hps
      exact ih _ hps.2 (isName_of_mem_pushComponent hstack hps.1)
  have hpieces : ∀ p ∈ pieces path, .char '/' ∉ p.toList := by
    intro p hp
    obtain ⟨cs, hcs, rfl⟩ := List.mem_map.mp hp
    rw [Text.toList_ofList]
    exact Text.notMem_of_mem_splitOn hcs
  intro c hc
  rw [components, h, List.mem_reverse] at hc
  exact hfold _ _ hpieces (by simp) c hc

/-! ## Roots -/

/-- A root with a number of slashes. -/
def slashes (k : ℕ) : Text :=
  Text.ofList (List.replicate k (.char '/'))

/-- The slashes that an absolute path keeps. -/
theorem leadingSlashes_eq_one_or_two (h : isAbsolute path = true) :
    leadingSlashes path = 1 ∨ leadingSlashes path = 2 := by
  have hpos : (path.toList.takeWhile (· = .char '/')).length ≠ 0 := by
    obtain ⟨rest, hrest⟩ := List.isPrefixOf_iff_prefix.mp h
    simp [← hrest]
  unfold leadingSlashes
  split
  · next hzero => exact absurd hzero hpos
  · exact .inr rfl
  · exact .inl rfl

/-- Names with slashes between do not start with a slash. -/
theorem takeWhile_join (h : ∀ n ∈ names, IsName n) :
    (join names).toList.takeWhile (· = .char '/') = [] := by
  have hhead : ∀ name rest, IsName name → (name.toList ++ rest).takeWhile (· = .char '/') = [] := by
    intro name rest hname
    obtain ⟨c, cs, hcs⟩ := List.exists_cons_of_ne_nil
      (fun hnil => hname.1 (Text.toList_eq_nil_iff.mp hnil) : name.toList ≠ [])
    have hc : c ≠ .char '/' := by
      rintro rfl
      exact hname.2.2.2 (hcs ▸ List.mem_cons_self ..)
    simp [hcs, hc]
  cases names with
  | nil => rfl
  | cons name names =>
    have hname : IsName name := h name (List.mem_cons_self ..)
    cases names with
    | nil => simpa [join, Text.join] using hhead name [] hname
    | cons next names =>
      rw [join, Text.join, Text.toList_append, Text.toList_append, List.append_assoc]
      · exact hhead name _ hname
      · simp

/-- Names below a root come right after its slashes. -/
theorem below_slashes (hk : k ≠ 0) (h : ∀ n ∈ names, IsName n) :
    below (slashes k) names = slashes k ++ join names := by
  by_cases hne : names = []
  · subst hne
    exact (Text.append_empty _).symm
  · have hrelative : isAbsolute (join names) = false := by
      rw [Bool.eq_false_iff]
      intro habsolute
      obtain ⟨rest, hrest⟩ := List.isPrefixOf_iff_prefix.mp habsolute
      have hnone := takeWhile_join h
      simp [← hrest] at hnone
    have hslash : [CodePoint.char '/'] <:+ (slashes k).toList := by
      obtain ⟨j, rfl⟩ := Nat.exists_eq_succ_of_ne_zero hk
      rw [slashes, Text.toList_ofList, List.replicate_succ']
      exact List.suffix_append _ _
    rw [← append_join (slashes k) h hne, append_of_isAbsolute_eq_false hrelative,
      stem_of_isEmpty_or_slash (.inr hslash)]

theorem leadingSlashes_below_slashes (hk : k = 1 ∨ k = 2) (h : ∀ n ∈ names, IsName n) :
    leadingSlashes (below (slashes k) names) = k := by
  have hcount : ((below (slashes k) names).toList.takeWhile (· = .char '/')).length = k := by
    rw [below_slashes (by omega) h, Text.toList_append, slashes, Text.toList_ofList,
      List.takeWhile_append_of_pos (by simp), takeWhile_join h, List.append_nil, List.length_replicate]
  rw [leadingSlashes, hcount]
  rcases hk with rfl | rfl <;> rfl

/-- What is seen from an absolute path is absolute. -/
theorem isAbsolute_append_of_isAbsolute (h : isAbsolute cwd = true) (path : Text) :
    isAbsolute (append cwd path) = true := by
  by_cases hpath : isAbsolute path = true
  · rwa [append_of_isAbsolute hpath]
  · rw [append_of_isAbsolute_eq_false (Bool.eq_false_iff.mpr hpath)]
    rw [isAbsolute, List.isPrefixOf_iff_prefix] at h ⊢
    rw [Text.toList_append]
    exact h.trans ((prefix_stem cwd).trans (List.prefix_append _ _))

/-! ## Normal forms -/

/-- **The normal form of an absolute path is a path below a root.** -/
theorem normalize_eq_below (h : isAbsolute path = true) :
    normalize path = below (slashes (leadingSlashes path)) (components path) := by
  have hk := leadingSlashes_eq_one_or_two h
  rw [below_slashes (by omega) (isName_of_mem_components h), normalize, if_neg]
  · rfl
  · rw [Text.isEmpty_iff]
    intro hempty
    have hroot := (Text.append_eq_empty_iff.mp hempty).1
    rcases hk with hk | hk <;> simp [hk] at hroot

/-- A path below a root starts with a slash, and its components are its names. -/
theorem components_below_slashes (hk : k = 1 ∨ k = 2) (h : ∀ n ∈ names, IsName n) :
    isAbsolute (below (slashes k) names) = true ∧ components (below (slashes k) names) = names := by
  have habsolute : isAbsolute (below (slashes k) names) = true := by
    rw [below_slashes (by omega) h, isAbsolute, List.isPrefixOf_iff_prefix, Text.toList_append]
    obtain ⟨j, rfl⟩ := Nat.exists_eq_succ_of_ne_zero (show k ≠ 0 by omega)
    rw [slashes, Text.toList_ofList, List.replicate_succ]
    exact List.prefix_append [CodePoint.char '/'] _
  refine ⟨habsolute, ?_⟩
  have hroot : components (append "" (slashes k)) = [] := by
    rcases hk with rfl | rfl <;> decide +kernel
  have hcomponents := components_below "" (slashes k) h
  rwa [append_of_isAbsolute habsolute, hroot, List.nil_append] at hcomponents

/-- A path below a root is in normal form. -/
theorem normalize_below_slashes (hk : k = 1 ∨ k = 2) (h : ∀ n ∈ names, IsName n) :
    normalize (below (slashes k) names) = below (slashes k) names := by
  obtain ⟨habsolute, hcomponents⟩ := components_below_slashes hk h
  rw [normalize_eq_below habsolute, hcomponents, leadingSlashes_below_slashes hk h]

/-- **What is below a normal form is in normal form**, wherever it is seen from. -/
theorem absolute_below (other : Text) (hcwd : isAbsolute (append cwd path) = true)
    (h : ∀ n ∈ names, IsName n) :
    absolute other (below (absolute cwd path) names) = below (absolute cwd path) names := by
  have hk := leadingSlashes_eq_one_or_two hcwd
  have hall : ∀ n ∈ components (append cwd path) ++ names, IsName n := by
    simpa [or_imp, forall_and] using ⟨isName_of_mem_components hcwd, h⟩
  have hbelow : below (absolute cwd path) names =
      below (slashes (leadingSlashes (append cwd path))) (components (append cwd path) ++ names) := by
    rw [absolute, normalize_eq_below hcwd, below_append]
  rw [hbelow, absolute, append_of_isAbsolute (components_below_slashes hk hall).1,
    normalize_below_slashes hk hall]

end Gleaner.Path
