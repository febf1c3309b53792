/-!
# Texts

Names of files and command lines are bytes, and not all bytes are characters. A byte that is none stands in
a text as a surrogate, U+DC80 to U+DCFF; escapes in a configuration can put any surrogate there. So a text
is a list of code points, of which some are no characters. A `String` is a text in which all are.

Main definitions: `CodePoint`, `Text`, and the order of texts by code point.
-/

namespace Gleaner

/-- A code point: a character or a surrogate, which is counted from U+D800 on. -/
inductive CodePoint where
  | char (c : Char)
  | surrogate (offset : Fin 0x800)
deriving DecidableEq, Repr, Inhabited

instance : Coe Char CodePoint := ⟨.char⟩

/-- The number of a code point. -/
def CodePoint.toNat : CodePoint → Nat
  | .char c => c.toNat
  | .surrogate offset => 0xd800 + offset

/-- The character that a code point is. -/
def CodePoint.char? : CodePoint → Option Char
  | .char c => some c
  | .surrogate _ => none

/-- Whether a code point is a character of a class. -/
def CodePoint.isIn (p : Char → Bool) : CodePoint → Bool
  | .char c => p c
  | .surrogate _ => false

/-- A text. -/
structure Text where
  ofList ::
  toList : List CodePoint
deriving DecidableEq, Repr, Inhabited

namespace Text

/-- The text of a string. -/
@[coe] def ofString (s : String) : Text :=
  ofList (s.toList.map .char)

instance : Coe String Text := ⟨ofString⟩

/-- One text after another. -/
protected def append (s t : Text) : Text :=
  ofList (s.toList ++ t.toList)

instance : Append Text := ⟨Text.append⟩

/-- Whether a text has no code point. -/
def isEmpty (s : Text) : Bool :=
  s.toList.isEmpty

/-- How many code points a text has. -/
def length (s : Text) : Nat :=
  s.toList.length

/-- The characters of a text. -/
def chars (s : Text) : List Char :=
  s.toList.filterMap CodePoint.char?

/-- The numbers of the code points of a text. -/
def codes (s : Text) : List Nat :=
  s.toList.map CodePoint.toNat

instance : LT Text := ⟨fun s t => s.codes < t.codes⟩

instance (s t : Text) : Decidable (s < t) :=
  inferInstanceAs (Decidable (s.codes < t.codes))

instance : LE Text := ⟨fun s t => ¬ t < s⟩

instance (s t : Text) : Decidable (s ≤ t) :=
  inferInstanceAs (Decidable (¬ t < s))

variable {s t u : Text} {a b : String}

@[simp] theorem toList_ofList (cs : List CodePoint) : (ofList cs).toList = cs :=
  rfl

@[simp] theorem ofList_toList (s : Text) : ofList s.toList = s :=
  rfl

theorem toList_inj : s.toList = t.toList ↔ s = t := by
  cases s; cases t; simp

@[simp] theorem toList_append (s t : Text) : (s ++ t).toList = s.toList ++ t.toList :=
  rfl

@[simp] theorem toList_ofString (a : String) : (a : Text).toList = a.toList.map .char :=
  rfl

@[simp] theorem chars_ofString (a : String) : (a : Text).chars = a.toList := by
  rw [chars, toList_ofString, List.filterMap_map]
  exact List.filterMap_some

theorem append_assoc (s t u : Text) : s ++ t ++ u = s ++ (t ++ u) := by
  simp [← toList_inj]

@[simp] theorem append_empty (s : Text) : s ++ ("" : Text) = s := by
  simp [← toList_inj]

@[simp] theorem empty_append (s : Text) : ("" : Text) ++ s = s := by
  simp [← toList_inj]

theorem ofString_append (a b : String) : ((a ++ b : String) : Text) = (a : Text) ++ (b : Text) := by
  simp [← toList_inj]

@[simp] theorem ofString_inj : (a : Text) = (b : Text) ↔ a = b := by
  rw [← toList_inj, toList_ofString, toList_ofString, ← String.toList_inj]
  exact List.map_inj_right fun _ _ => CodePoint.char.inj

@[simp] theorem beq_ofString (a b : String) : ((a : Text) == (b : Text)) = (a == b) := by
  rw [Bool.eq_iff_iff, beq_iff_eq, beq_iff_eq, ofString_inj]

@[simp] theorem toList_eq_nil_iff : s.toList = [] ↔ s = ("" : Text) := by
  rw [← toList_inj]
  rfl

@[simp] theorem ofList_eq_empty_iff {cs : List CodePoint} : ofList cs = ("" : Text) ↔ cs = [] := by
  rw [← toList_eq_nil_iff]

theorem isEmpty_iff : s.isEmpty = true ↔ s = ("" : Text) := by
  rw [isEmpty, List.isEmpty_iff, toList_eq_nil_iff]

@[simp] theorem isEmpty_ofString (a : String) : (a : Text).isEmpty = a.isEmpty := by
  rw [Bool.eq_iff_iff, isEmpty_iff, String.isEmpty_iff, ofString_inj]

@[simp] theorem append_eq_empty_iff : s ++ t = ("" : Text) ↔ s = ("" : Text) ∧ t = ("" : Text) := by
  simp [← toList_eq_nil_iff]

end Text

end Gleaner
