import Gleaner.Data.Order
import Gleaner.Json.Quote

/-!
# Writing JSON

A value is written over several lines, each level indented by two more blanks; empty lists and maps stay
on their line. Keys that are not texts are written as texts. Values without a written form, keys
without one, integers of too many digits and keys that cannot be sorted are failures; what stands before
the failure is kept, since a file that is written while it is made holds it.

Main definitions: `Style`, `Draft`, `write` and `encode`.
-/

namespace Gleaner.Json

/-- How JSON is written. -/
structure Style where
  charset : Charset
  sorted : Bool

/-- Why a value has no written form. -/
inductive WriteError where
  | value (typeName : String)
  | key (typeName : String)
  | order (cause : Value.Incomparable)
  | tooManyDigits
deriving DecidableEq, Repr

/-- The wording of a failure. -/
def WriteError.message : WriteError → String
  | .value typeName => s!"Object of type {typeName} is not JSON serializable"
  | .key typeName => s!"keys must be str, int, float, bool or None, not {typeName}"
  | .order e => s!"'<' not supported between instances of '{e.left}' and '{e.right}'"
  | .tooManyDigits =>
    s!"Exceeds the limit ({maxDigits} digits) for integer string conversion; " ++
      "use sys.set_int_max_str_digits() to increase the limit"

/-- Written text, and the failure at its end if there is one. -/
structure Draft where
  text : List CodePoint := []
  failure : Option WriteError := none

namespace Draft

/-- Code points without a failure. -/
def points (text : List CodePoint) : Draft := ⟨text, none⟩

/-- Characters without a failure. -/
def done (text : List Char) : Draft := points (text.map .char)

/-- A failure before any text. -/
def failed (e : WriteError) : Draft := ⟨[], some e⟩

/-- Text or the failure that stands for it. -/
def ofExcept : Except WriteError (List Char) → Draft
  | .ok text => done text
  | .error e => failed e

/-- One draft after another; nothing comes after a failure. -/
def append (a b : Draft) : Draft :=
  match a.failure with
  | some _ => a
  | none => ⟨a.text ++ b.text, b.failure⟩

instance : Append Draft := ⟨append⟩

end Draft

/-- The text of a number. -/
def numberText (x : Binary64) : List Char :=
  match x with
  | .nan => "NaN".toList
  | .infinite negative => if negative then "-Infinity".toList else "Infinity".toList
  | .finite .. => x.text.toList

/-- The text of an integer, if it has not too many digits. -/
def intText (n : Int) : Except WriteError (List Char) :=
  if (toString n.natAbs).length ≤ maxDigits then .ok (toString n).toList else .error .tooManyDigits

/-- The text of a scalar that is not quoted. -/
def scalarText? : Value → Option (Except WriteError (List Char))
  | .null => some (.ok "null".toList)
  | .bool b => some (.ok (if b then "true" else "false").toList)
  | .int n => some (intText n)
  | .float x => some (.ok (numberText x))
  | _ => none

/-- The text of a key, before it is quoted. -/
def keyText : Value → Except WriteError (List CodePoint)
  | .text s => .ok s.toList
  | v => ((scalarText? v).getD (.error (.key v.typeName))).map (·.map .char)

/-- A new line at a level. -/
def newLine (level : Nat) : List Char :=
  '\n' :: List.replicate (2 * level) ' '

/-- One item of a list, with what divides it from the item before. A scalar is written in one piece with
the divider, so where it fails the divider is not there either. -/
def writeItem (divider : List Char) (v : Value) (item : Draft) : Draft :=
  match scalarText? v with
  | some (.error e) => .failed e
  | _ => .done divider ++ item

/-- The items of a list. -/
def writeItems (level : Nat) : (divider : List Char) → List (Value × Draft) → Draft
  | _, [] => {}
  | divider, (v, item) :: rest =>
    writeItem divider v item ++ writeItems level (',' :: newLine level) rest

/-- One entry of a map, with what divides it from the entry before. -/
def writeEntry (style : Style) (divider : List Char) (key : Value) (value : Draft) : Draft :=
  match keyText key with
  | .error e => .failed e
  | .ok text => .done divider ++ .points (quote style.charset text) ++ .done [':', ' '] ++ value

/-- The entries of a map. -/
def writeEntries (style : Style) (level : Nat) : (divider : List Char) → List (Value × Draft) → Draft
  | _, [] => {}
  | divider, (key, value) :: rest =>
    writeEntry style divider key value ++ writeEntries style level (',' :: newLine level) rest

/-- A map that has entries. -/
def writeMap (style : Style) (level : Nat) (entries : List (Value × Draft)) : Draft :=
  let body : Draft :=
    if style.sorted then
      match Value.sortEntries entries with
      | .error e => .failed (.order e)
      | .ok sorted => writeEntries style (level + 1) [] sorted
    else writeEntries style (level + 1) [] entries
  .done ('\x7b' :: newLine (level + 1)) ++ body ++ .done (newLine level ++ ['\x7d'])

/-- A list that has items. -/
def writeList (level : Nat) (items : List (Value × Draft)) : Draft :=
  writeItems (level + 1) ('[' :: newLine (level + 1)) items ++ .done (newLine level ++ [']'])

mutual

/-- Write a value that stands at a level. -/
def write (style : Style) (level : Nat) : Value → Draft
  | .text s => .points (quote style.charset s.toList)
  | .list [] => .done ['[', ']']
  | .list (v :: rest) => writeList level (writeAll style (level + 1) (v :: rest))
  | .tuple [] => .done ['[', ']']
  | .tuple (v :: rest) => writeList level (writeAll style (level + 1) (v :: rest))
  | .map [] => .done ['\x7b', '\x7d']
  | .map (e :: rest) => writeMap style level (writeValues style (level + 1) (e :: rest))
  | v => .ofExcept ((scalarText? v).getD (.error (.value v.typeName)))

/-- Write each value of a list. -/
def writeAll (style : Style) (level : Nat) : List Value → List (Value × Draft)
  | [] => []
  | v :: rest => (v, write style level v) :: writeAll style level rest

/-- Write the values of entries. -/
def writeValues (style : Style) (level : Nat) : List (Value × Value) → List (Value × Draft)
  | [] => []
  | (key, v) :: rest => (key, write style level v) :: writeValues style level rest

end

/-- The whole text of a value, if it has one. -/
def encode (style : Style) (v : Value) : Except WriteError Text :=
  match write style 0 v with
  | ⟨text, none⟩ => .ok (.ofList text)
  | ⟨_, some e⟩ => .error e

end Gleaner.Json
