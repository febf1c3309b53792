import Gleaner.Proofs.Java.Extent
import Gleaner.Proofs.Syntax.Excerpt

/-!
# What a signature shows

A signature is the name of a declaration and, between parentheses, one part for each parameter that has a
type. What else stands among the parameters or inside one of them, such as comments, a receiver,
annotations, modifiers and names, in any order and number, takes no part in it.

A part is the type in one line, which is the same line that an excerpt of the source would give before it is
cut: the words of the type with single blanks between them. So the layout of the source does not show.

Reading can fail only where the bytes of a node are no text, which those of a tree over a text always are.

## Main definitions

* `parametersOf`: the parameter nodes of a declaration
* `SpellsType`: the type that a parameter spells, if it has one
* `shownType`: the part of a signature for a type

## Main results

* `oneLine_eq_intercalate`, `shownType_gap`: a type in one line, and what does not matter for it
* `parameterType_eq_ok_iff`, `parameterTypes_eq_ok_iff`: the types of one parameter and of all
* `signature?_shows_types`: the signature of a declaration
-/

namespace Gleaner.Java

open Gleaner.Syntax
open Gleaner.Text (words SingleSpaced Bare AllBlank isBlank)
open Gleaner.Utf8 (Bytes)

variable {source : Bytes} {n p type : Node}

/-! ## Types in one line -/

/-- **A type in one line** is its words with one blank between them. -/
theorem oneLine_eq_intercalate (t : String) :
    oneLine t = String.ofList (List.intercalate [' '] (words t.toList)) := by
  rw [oneLine, Text.trim_collapse_eq_intercalate]

/-- An excerpt is the text in one line, cut where it gets long. -/
theorem excerpt_eq_oneLine (t : String) :
    excerpt t.toList =
      if (oneLine t).toList.length > excerptLimit then
        (oneLine t).toList.take excerptLimit ++ ['.', '.', '.']
      else (oneLine t).toList := by
  rw [oneLine_eq_intercalate, String.toList_ofList]
  rfl

/-- A line has no blanks but single ordinary ones, and none of them at its ends. -/
theorem oneLine_spaced (t : String) :
    SingleSpaced (oneLine t).toList ∧ Bare isBlank (oneLine t).toList := by
  constructor
  · rw [oneLine_eq_intercalate, String.toList_ofList]
    exact Text.singleSpaced_intercalate fun _ => Text.solid_of_mem_words
  · rw [oneLine, String.toList_ofList]
    exact Text.bare_trim _

/-! ## Parameters -/

/-- The named nodes between the parentheses of a declaration. -/
def parametersOf (n : Node) : List Node :=
  ((n.childByRole? "parameters").map Node.namedChildren).getD []

/-- **The type that a parameter spells.** A formal parameter spells its type and then its dimensions, if it
has any, and a variadic one its type and three dots, the type being the first named child that can be one.
Other nodes spell none. -/
inductive SpellsType (source : Bytes) (p : Node) : Option String → Prop
  | formal {type : Node} {t d : String} (kind : p.kind = "formal_parameter")
      (child : p.childByRole? "type" = some type) (text : type.text source = .ok t)
      (dimensions : ∀ node, p.childByRole? "dimensions" = some node → node.text source = .ok d)
      (plain : p.childByRole? "dimensions" = none → d = "") : SpellsType source p (some (t ++ d))
  | variadic {before after : List Node} {type : Node} {t : String} (kind : p.kind = "spread_parameter")
      (children : p.namedChildren = before ++ type :: after)
      (beside : ∀ c ∈ before, isBesideType c.kind = true) (child : isBesideType type.kind = false)
      (text : type.text source = .ok t) : SpellsType source p (some (t ++ "..."))
  | formalUntyped (kind : p.kind = "formal_parameter") (child : p.childByRole? "type" = none) :
      SpellsType source p none
  | variadicUntyped (kind : p.kind = "spread_parameter")
      (beside : ∀ c ∈ p.namedChildren, isBesideType c.kind = true) : SpellsType source p none
  | other (formal : p.kind ≠ "formal_parameter") (variadic : p.kind ≠ "spread_parameter") :
      SpellsType source p none

/-- The part of a signature for the type of a parameter, by its words. An empty type has none. -/
def shownType : Option String → Option String
  | none => none
  | some t => if t = "" then none else some (String.ofList (List.intercalate [' '] (words t.toList)))

theorem filterMap_shownType_cons (type : Option String) (types : List (Option String)) :
    (type :: types).filterMap shownType = (shownType type).toList ++ types.filterMap shownType := by
  cases h : shownType type <;> simp [h]

/-- **Which blanks divide the words of a type, and how many, does not matter.** -/
theorem shownType_gap {left gap gap' right : List Char} (hgap : AllBlank gap) (hne : gap ≠ [])
    (hgap' : AllBlank gap') (hne' : gap' ≠ []) :
    shownType (some (String.ofList (left ++ gap ++ right))) =
      shownType (some (String.ofList (left ++ gap' ++ right))) := by
  have hsome : ∀ {gap : List Char}, gap ≠ [] → String.ofList (left ++ gap ++ right) ≠ "" := by
    intro gap hgap hempty
    have hnil := String.ofList_eq_empty_iff.mp hempty
    simp [hgap] at hnil
  rw [shownType, shownType, if_neg (hsome hne), if_neg (hsome hne'), String.toList_ofList,
    String.toList_ofList, Text.words_append_gap hgap hne, Text.words_append_gap hgap' hne']

/-- What is read of a parameter is what it spells. -/
theorem spellsType_of_parameterType {shown : Option String} (h : parameterType source p = .ok shown) :
    SpellsType source p shown := by
  unfold parameterType at h
  split_ifs at h with hformal hvariadic
  · cases hchild : p.childByRole? "type" with
    | none =>
      rw [hchild] at h
      cases h
      exact .formalUntyped hformal hchild
    | some type =>
      simp only [hchild, bind_eq_ok_iff] at h
      obtain ⟨t, ht, h⟩ := h
      cases hdimensions : p.childByRole? "dimensions" with
      | none =>
        simp only [hdimensions] at h
        cases h
        rw [← String.append_empty (s := t)]
        exact .formal hformal hchild ht (by simp [hdimensions]) fun _ => rfl
      | some node =>
        simp only [hdimensions, bind_eq_ok_iff] at h
        obtain ⟨d, hd, h⟩ := h
        cases h
        exact .formal hformal hchild ht (by simp [hdimensions, hd]) (by simp [hdimensions])
  · cases hchild : p.namedChildren.find? (!isBesideType ·.kind) with
    | none =>
      rw [hchild] at h
      cases h
      exact .variadicUntyped hvariadic (by simpa using hchild)
    | some type =>
      simp only [hchild, bind_eq_ok_iff] at h
      obtain ⟨t, ht, h⟩ := h
      cases h
      obtain ⟨htype, before, after, hchildren, hbefore⟩ := List.find?_eq_some_iff_append.mp hchild
      exact .variadic hvariadic hchildren (by simpa using hbefore) (by simpa using htype) ht
  · cases h
    exact .other hformal hvariadic

/-- What a parameter spells is read of it. -/
theorem SpellsType.parameterType_eq {shown : Option String} (h : SpellsType source p shown) :
    parameterType source p = .ok shown := by
  unfold parameterType
  cases h with
  | formal hkind hchild ht hdimensions hplain =>
    simp only [if_pos hkind, hchild, bind_eq_ok_iff]
    refine ⟨_, ht, ?_⟩
    cases hnode : p.childByRole? "dimensions" with
    | none =>
      rw [hplain hnode, String.append_empty]
      rfl
    | some node =>
      simp only [hdimensions node hnode]
      rfl
  | variadic hkind hchildren hbefore hchild ht =>
    have hfind : p.namedChildren.find? (!isBesideType ·.kind) = some _ :=
      List.find?_eq_some_iff_append.mpr
        ⟨by simpa using hchild, _, _, hchildren, by simpa using hbefore⟩
    rw [hkind, if_neg (by decide), if_pos rfl, hfind]
    simp only [ht]
    rfl
  | formalUntyped hkind hchild =>
    rw [if_pos hkind, hchild]
    rfl
  | variadicUntyped hkind hbeside =>
    have hfind : p.namedChildren.find? (!isBesideType ·.kind) = none :=
      List.find?_eq_none.mpr fun c hc => by simpa using hbeside c hc
    rw [hkind, if_neg (by decide), if_pos rfl, hfind]
    rfl
  | other hformal hvariadic =>
    rw [if_neg hformal, if_neg hvariadic]
    rfl

/-- **The type of one parameter.** -/
theorem parameterType_eq_ok_iff {shown : Option String} :
    parameterType source p = .ok shown ↔ SpellsType source p shown :=
  ⟨spellsType_of_parameterType, SpellsType.parameterType_eq⟩

/-- The part of the first parameter comes before those of the others. -/
theorem parameterTypes_cons (source : Bytes) (p : Node) (ps : List Node) :
    parameterTypes source (p :: ps) = do
      let type ← parameterType source p
      let parts ← parameterTypes source ps
      return (shownType type).toList ++ parts := by
  rw [parameterTypes]
  congr 1
  funext type
  congr 1
  funext parts
  cases type with
  | none => rfl
  | some t =>
    rw [shownType, ← oneLine_eq_intercalate]
    by_cases ht : t = ""
    · subst ht
      rfl
    · simp [ht]

/-- **The types of all parameters**, in their order: one part for each that has a type. -/
theorem parameterTypes_eq_ok_iff {ps : List Node} {parts : List String} :
    parameterTypes source ps = .ok parts ↔
      ∃ types, List.Forall₂ (SpellsType source) ps types ∧ parts = types.filterMap shownType := by
  induction ps generalizing parts with
  | nil =>
    rw [parameterTypes]
    constructor
    · intro h
      cases h
      exact ⟨[], .nil, rfl⟩
    · rintro ⟨types, hnil, rfl⟩
      cases hnil
      rfl
  | cons p ps ih =>
    simp only [parameterTypes_cons, bind_eq_ok_iff, parameterType_eq_ok_iff, ih]
    constructor
    · rintro ⟨type, htype, later, ⟨types, htypes, rfl⟩, h⟩
      cases h
      exact ⟨type :: types, .cons htype htypes, (filterMap_shownType_cons type types).symm⟩
    · rintro ⟨_, hall, rfl⟩
      cases hall with
      | cons htype htypes =>
        refine ⟨_, htype, _, ⟨_, htypes, rfl⟩, ?_⟩
        rw [filterMap_shownType_cons]
        rfl

/-! ## Signatures -/

/-- A declaration with a name has its types read first, and then its name. -/
theorem signature?_of_name (source : Bytes) {nameNode : Node}
    (hname : n.childByRole? "name" = some nameNode) :
    signature? source n = do
      let parts ← parameterTypes source (parametersOf n)
      let name ← nameNode.text source
      return some (name ++ "(" ++ Text.join ", " parts ++ ")") := by
  rw [signature?, hname, parametersOf]
  cases n.childByRole? "parameters" with
  | none => rfl
  | some parameters => rfl

/-- **The signature of a declaration with a name**, if everything in it can be read. -/
theorem signature?_eq_ok_iff {nameNode : Node} (hname : n.childByRole? "name" = some nameNode)
    {shown : Option String} :
    signature? source n = .ok shown ↔
      ∃ name types, nameNode.text source = .ok name ∧
        List.Forall₂ (SpellsType source) (parametersOf n) types ∧
        shown = some (name ++ "(" ++ Text.join ", " (types.filterMap shownType) ++ ")") := by
  simp only [signature?_of_name source hname, bind_eq_ok_iff, parameterTypes_eq_ok_iff]
  constructor
  · rintro ⟨parts, ⟨types, htypes, rfl⟩, name, htext, h⟩
    cases h
    exact ⟨name, types, htext, htypes, rfl⟩
  · rintro ⟨name, types, htext, htypes, rfl⟩
    exact ⟨_, ⟨types, htypes, rfl⟩, name, htext, rfl⟩

/-- **What a signature shows.** The signature of a declaration with a name is the name and, in parentheses,
the parts of its parameters in their order, one for each that has a type; over a text it can always be read.
Each part is its type in one line, as an excerpt would show it; it has no blanks but single ordinary ones
between its words, and stays the same if a run of blanks in the type is replaced by any other. -/
theorem signature?_shows_types {nameNode : Node} (hname : n.childByRole? "name" = some nameNode) :
    (∀ source shown, signature? source n = .ok shown ↔
      ∃ name types, nameNode.text source = .ok name ∧
        List.Forall₂ (SpellsType source) (parametersOf n) types ∧
        shown = some (name ++ "(" ++ Text.join ", " (types.filterMap shownType) ++ ")")) ∧
    (∀ text, n.Covers text → ∃ s, signature? (Utf8.encode text) n = .ok (some s)) ∧
    (∀ t, oneLine t = String.ofList (List.intercalate [' '] (words t.toList)) ∧
      excerpt t.toList =
        (if (oneLine t).toList.length > excerptLimit then
          (oneLine t).toList.take excerptLimit ++ ['.', '.', '.']
        else (oneLine t).toList) ∧
      SingleSpaced (oneLine t).toList ∧ Bare isBlank (oneLine t).toList) ∧
    ∀ left gap gap' right, AllBlank gap → gap ≠ [] → AllBlank gap' → gap' ≠ [] →
      shownType (some (String.ofList (left ++ gap ++ right))) =
        shownType (some (String.ofList (left ++ gap' ++ right))) := by
  refine ⟨fun source shown => signature?_eq_ok_iff hname, fun text h => exists_signature h hname, ?_, ?_⟩
  · intro t
    exact ⟨oneLine_eq_intercalate t, excerpt_eq_oneLine t, oneLine_spaced t⟩
  · intro left gap gap' right hgap hne hgap' hne'
    exact shownType_gap hgap hne hgap' hne'

/-- A method with a receiver and a comment among its parameters, and a type over two lines. -/
def spreadOutText : String := "f(final int\x09 \n[] a, A this, /**/String... b)"

/-- The name of that method. -/
def spreadOutName : Node := .node ⟨"identifier", 0, 1, true, false, false, some "name"⟩ []

/-- Its tree. -/
def spreadOutTree : Node :=
  let part (kind : String) (start stop : ℕ) : Node := .node ⟨kind, start, stop, true, false, false, none⟩ []
  .node ⟨"method_declaration", 0, 44, true, false, false, none⟩
    [spreadOutName,
      .node ⟨"formal_parameters", 1, 44, true, false, false, some "parameters"⟩
        [.node ⟨"formal_parameter", 2, 18, true, false, false, none⟩
          [part "modifiers" 2 7, .node ⟨"array_type", 8, 16, true, false, false, some "type"⟩ []],
          part "receiver_parameter" 20 26,
          part "block_comment" 28 32,
          .node ⟨"spread_parameter", 32, 43, true, false, false, none⟩
            [part "type_identifier" 32 38, part "variable_declarator" 42 43]]]

/-- Only the types show, each in one line. -/
theorem signature?_shows_types_of_spread_out :
    spreadOutTree.childByRole? "name" = some spreadOutName ∧
      signature? (Utf8.encode spreadOutText) spreadOutTree = .ok (some "f(int [], String...)") := by
  have hname : spreadOutTree.childByRole? "name" = some spreadOutName := rfl
  have hread : ∀ (n : Node) (t : String), n.bytes (Utf8.encode spreadOutText) = Utf8.encode t →
      n.text (Utf8.encode spreadOutText) = .ok t := fun _ _ => Utf8.decode_eq_ok_iff.mpr
  refine ⟨hname, ((signature?_shows_types hname).1 _ _).mpr
    ⟨"f", [some ("int\x09 \n[]" ++ ""), none, none, some ("String" ++ "...")],
      hread _ _ (by decide +kernel), ?_, by decide +kernel⟩⟩
  refine .cons ?_ (.cons ?_ (.cons ?_ (.cons ?_ .nil)))
  · exact .formal rfl rfl (hread _ _ (by decide +kernel)) (fun _ h => nomatch h) fun _ => rfl
  · exact .other (by decide) (by decide)
  · exact .other (by decide) (by decide)
  · exact .variadic rfl (List.nil_append _).symm (fun _ h => nomatch h) rfl (hread _ _ (by decide +kernel))

end Gleaner.Java
