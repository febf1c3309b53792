import Gleaner.Calendar
import Gleaner.Number.Shortest
import Gleaner.Text.Basic
import Gleaner.Text.Quoted
import Gleaner.Text.Utf8

/-!
# Values

A value is what a configuration file or a report holds: a scalar, or a list, tuple, set or map of
values. Maps keep the order in which their keys first came; a key that comes again only replaces the
value. Numbers are the same key if they are equal, whatever their type, and truth values count as zero
and one.

Main definitions: `Value`, `Value.truth`, `sameKey`, `insertEntry`, `lookup?`, and the two texts of a
value: `Value.display`, from which its type can be seen, and `Value.plain`, which shows texts and dates
plainly. A value in which an integer has too many digits has neither, which `Value.hasText` tells.
-/

namespace Gleaner

open Gleaner.Utf8 (Bytes)

/-- The most digits that an integer may have in a text. -/
def maxDigits : Nat := 4300

/-- A value of a configuration or a report. -/
inductive Value where
  | null
  | bool (b : Bool)
  | int (n : Int)
  | float (x : Binary64)
  | text (s : Text)
  | bytes (b : Bytes)
  | date (d : Date)
  | dateTime (t : DateTime)
  | list (items : List Value)
  | tuple (items : List Value)
  | set (items : List Value)
  | map (entries : List (Value × Value))
deriving Repr, Inhabited

namespace Value

/-- The name of a value's type. -/
def typeName : Value → String
  | .null => "NoneType"
  | .bool _ => "bool"
  | .int _ => "int"
  | .float _ => "float"
  | .text _ => "str"
  | .bytes _ => "bytes"
  | .date _ => "date"
  | .dateTime _ => "datetime"
  | .list _ => "list"
  | .tuple _ => "tuple"
  | .set _ => "set"
  | .map _ => "dict"

/-- The name of a value's type with the name of its module. -/
def fullTypeName : Value → String
  | .date _ => "datetime.date"
  | .dateTime _ => "datetime.datetime"
  | v => v.typeName

/-- Whether a value counts as true: it is not empty and not zero. -/
def truth : Value → Bool
  | .null => false
  | .bool b => b
  | .int n => n ≠ 0
  | .float x => !x.isZero
  | .text s => !s.isEmpty
  | .bytes b => !b.isEmpty
  | .date _ => true
  | .dateTime _ => true
  | .list items => !items.isEmpty
  | .tuple items => !items.isEmpty
  | .set items => !items.isEmpty
  | .map entries => !entries.isEmpty

/-! ## Keys -/

mutual

/-- Whether two values are the same key of a map. -/
def sameKey : Value → Value → Bool
  | .null, .null => true
  | .text s, .text t => s == t
  | .bytes b, .bytes c => b == c
  | .date d, .date e => d == e
  | .dateTime t, .dateTime u => t == u
  | .tuple items, .tuple others => sameKeys items others
  | .float x, .float y => x == y || (x.isZero && y.isZero)
  | .float x, .bool b => x.isInt (if b then 1 else 0)
  | .float x, .int n => x.isInt n
  | .bool b, .float x => x.isInt (if b then 1 else 0)
  | .int n, .float x => x.isInt n
  | .bool a, .bool b => a == b
  | .bool a, .int n => n == (if a then 1 else 0)
  | .int n, .bool a => n == (if a then 1 else 0)
  | .int m, .int n => m == n
  | _, _ => false

/-- Whether two lists are the same keys one by one. -/
def sameKeys : List Value → List Value → Bool
  | [], [] => true
  | a :: as, b :: bs => sameKey a b && sameKeys as bs
  | _, _ => false

end

mutual

/-- Whether a value can be a key: nothing that may change is inside. -/
def isKey : Value → Bool
  | .list _ => false
  | .set _ => false
  | .map _ => false
  | .tuple items => areKeys items
  | _ => true

/-- Whether all values can be keys. -/
def areKeys : List Value → Bool
  | [] => true
  | v :: rest => isKey v && areKeys rest

end

/-- Put a value under a key: in the place of the key if it is there, else at the end. -/
def insertEntry (key value : Value) : List (Value × Value) → List (Value × Value)
  | [] => [(key, value)]
  | (k, v) :: rest =>
    if sameKey k key then (k, value) :: rest else (k, v) :: insertEntry key value rest

/-- The entries of a map from keys that may repeat. -/
def entriesOf (pairs : List (Value × Value)) : List (Value × Value) :=
  pairs.foldl (fun entries (key, value) => insertEntry key value entries) []

/-- The value under a text key. -/
def lookup? (key : String) (entries : List (Value × Value)) : Option Value :=
  (entries.find? fun entry => sameKey entry.1 (.text key)).map Prod.snd

/-! ## Texts -/

/-- One byte inside quotes. -/
def quoteByte (quote : Char) (b : UInt8) : List Char :=
  let c := Char.ofNat b.toNat
  if c = quote || c = '\\' then ['\\', c]
  else if c = '\t' then ['\\', 't']
  else if c = '\n' then ['\\', 'n']
  else if c = '\r' then ['\\', 'r']
  else if 0x20 ≤ b && b < 0x7f then [c]
  else '\\' :: 'x' :: Text.hexText 2 b.toNat

/-- Bytes in quotes. -/
def quotedBytes (bytes : Bytes) : String :=
  let quote := Text.quoteFor (bytes.map fun b => .char (Char.ofNat b.toNat))
  String.ofList ('b' :: quote :: bytes.flatMap (quoteByte quote) ++ [quote])

mutual

/-- The text of a value from which its type can be seen. -/
def display : Value → String
  | .null => "None"
  | .bool b => if b then "True" else "False"
  | .int n => toString n
  | .float x => x.text
  | .text s => Text.quoted s
  | .bytes b => quotedBytes b
  | .date d => d.display
  | .dateTime t => t.display
  | .list items => "[" ++ displayAll items ++ "]"
  | .tuple [item] => "(" ++ display item ++ ",)"
  | .tuple items => "(" ++ displayAll items ++ ")"
  | .set [] => "set()"
  | .set items => "\x7b" ++ displayAll items ++ "\x7d"
  | .map entries => "\x7b" ++ displayEntries entries ++ "\x7d"

/-- The texts of values with commas between. -/
def displayAll : List Value → String
  | [] => ""
  | [v] => display v
  | v :: rest => display v ++ ", " ++ displayAll rest

/-- The texts of entries with commas between. -/
def displayEntries : List (Value × Value) → String
  | [] => ""
  | [(k, v)] => display k ++ ": " ++ display v
  | (k, v) :: rest => display k ++ ": " ++ display v ++ ", " ++ displayEntries rest

end

mutual

/-- Whether a value has a text: no integer in it has too many digits. -/
def hasText : Value → Bool
  | .int n => n.natAbs < Nat.pow 10 maxDigits
  | .list items => haveText items
  | .tuple items => haveText items
  | .set items => haveText items
  | .map entries => entriesHaveText entries
  | _ => true

/-- Whether all values have a text. -/
def haveText : List Value → Bool
  | [] => true
  | v :: rest => hasText v && haveText rest

/-- Whether the keys and values of entries have a text. -/
def entriesHaveText : List (Value × Value) → Bool
  | [] => true
  | (k, v) :: rest => hasText k && hasText v && entriesHaveText rest

end

/-- The plain text of a value. -/
def plain : Value → Text
  | .text s => s
  | .date d => d.text
  | .dateTime t => t.text " "
  | v => v.display

end Value

end Gleaner
