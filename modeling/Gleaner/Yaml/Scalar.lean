import Gleaner.Data.Value
import Gleaner.Text.Base64
import Gleaner.Text.Blank
import Gleaner.Text.Utf16
import Gleaner.Text.Utf8
import Gleaner.Yaml.Fault
import Gleaner.Yaml.Kind

/-!
# Values of scalars

What a scalar of a kind stands for. Underscores in numbers count for nothing. Integers may be written in
base two, eight, ten, sixteen, and, with colons, sixty; so may floating point numbers with colons. A time
has up to six digits of a second's fraction, further ones are left out.

Main definitions: `integerOf`, `floatOf`, `timestampOf` and `scalarValue`.
-/

namespace Gleaner.Yaml

/-! ## Numbers -/

/-- The value of digits in a base. -/
def digitsIn? (base : Nat) (digits : List Char) : Option Nat :=
  digits.foldl (fun n c => do
    let d ← Utf16.hexValue? c
    if d < base then return (← n) * base + d else none) (some 0)

/-- Digits without the letter that names their base. -/
def withoutBaseMark (base : Nat) (cs : List Char) : List Char :=
  let letters := if base = 2 then ['b', 'B'] else if base = 8 then ['o', 'O']
    else if base = 16 then ['x', 'X'] else []
  match cs with
  | '0' :: letter :: rest => if letters.contains letter then rest else cs
  | _ => cs

/-- A sign and what follows it. -/
def splitSign : List Char → Bool × List Char
  | '-' :: rest => (true, rest)
  | '+' :: rest => (false, rest)
  | cs => (false, cs)

/-- The most digits that an integer in base ten may have. -/
def maxDecimalDigits : Nat := 4300

/-- An integer in a base, with blanks around it and a sign. -/
def integerIn (base : Nat) (cs : List Char) : Except Fault Int :=
  let (negative, body) := splitSign (Text.trim cs)
  let digits := withoutBaseMark base body
  match digits.isEmpty, digitsIn? base digits with
  | false, some n =>
    if base = 10 && digits.length > maxDecimalDigits then .error (.tooManyDigits digits.length)
    else .ok (if negative then -n else n)
  | _, _ => .error (.integer base (String.ofList cs))

/-- The value of parts in the base of sixty, most significant first. -/
def fromSixties (parts : List Int) : Int :=
  parts.foldl (fun n part => n * 60 + part) 0

/-- The value of an integer. -/
def integerOf (text : List Char) : Except Fault Int := do
  let cs := text.filter (· ≠ '_')
  if cs.isEmpty then .error .emptyNumber
  else
    let (negative, body) := splitSign cs
    let magnitude ←
      if body = ['0'] then pure 0
      else if ['0', 'b'].isPrefixOf body then integerIn 2 (body.drop 2)
      else if ['0', 'x'].isPrefixOf body then integerIn 16 (body.drop 2)
      else if body.isEmpty then .error .emptyNumber
      else if ['0'].isPrefixOf body then integerIn 8 body
      else if body.contains ':' then
        return (if negative then -1 else 1) * fromSixties (← (body.splitOn ':').mapM (integerIn 10))
      else integerIn 10 body
    return if negative then -magnitude else magnitude

/-- A floating point number with blanks around it. -/
def floatIn (cs : List Char) : Except Fault Binary64 :=
  match Binary64.read? (Text.trim cs) with
  | some x => .ok x
  | none => .error (.number (String.ofList cs))

/-- The sum of parts in the base of sixty, least significant first, each rounded in turn. -/
def sumSixties (base : Nat) (sum : Binary64) : List Binary64 → Binary64
  | [] => sum
  | part :: rest => sumSixties (base * 60) (sum.add (part.mul (.ofInt base))) rest

/-- The value of a floating point number. -/
def floatOf (text : List Char) : Except Fault Binary64 := do
  let cs := (text.filter (· ≠ '_')).map Char.toLower
  if cs.isEmpty then .error .emptyNumber
  else
    let (negative, body) := splitSign cs
    let magnitude ←
      if body = ['.', 'i', 'n', 'f'] then pure (.infinite false)
      else if body = ['.', 'n', 'a', 'n'] then pure .nan
      else if body.contains ':' then do
        let parts ← (body.splitOn ':').mapM floatIn
        pure (sumSixties 1 (.zero false) parts.reverse)
      else floatIn body
    return if negative then magnitude.neg else magnitude

/-! ## Dates and times -/

/-- Up to so many digits, at least one, and what follows them. -/
def shortNumber? (most : Nat) (cs : List Char) : Option (Nat × List Char) :=
  let digits := (cs.take most).takeWhile Char.isDigit
  if digits.isEmpty then none else some (Binary64.digitsValue digits, cs.drop digits.length)

/-- Exactly so many digits and what follows them. -/
def fixedNumber? (count : Nat) (cs : List Char) : Option (Nat × List Char) :=
  let digits := (cs.take count).takeWhile Char.isDigit
  if digits.length = count then some (Binary64.digitsValue digits, cs.drop count) else none

/-- A character and what follows it. -/
def expect? (c : Char) : List Char → Option (List Char)
  | d :: rest => if c = d then some rest else none
  | [] => none

/-- Millionths from the digits of a fraction. -/
def millionths (digits : List Char) : Nat :=
  let kept := digits.take 6
  Binary64.digitsValue (kept ++ List.replicate (6 - kept.length) '0')

/-- Whether a character is a blank or a tab. -/
def isSpace (c : Char) : Bool :=
  c = ' ' || c = '\t'

/-- An offset up to the end of the text, in minutes. -/
def offset? (cs : List Char) : Option (Option Int) :=
  match cs.dropWhile isSpace with
  | [] => if cs.isEmpty then some none else none
  | ['Z'] => some (some 0)
  | sign :: rest =>
    if sign = '+' || sign = '-' then do
      let (hours, rest) ← shortNumber? 2 rest
      let minutes ← match rest with
        | [] => some 0
        | _ => do
          let (minutes, rest) ← fixedNumber? 2 (← expect? ':' rest)
          if rest.isEmpty then some minutes else none
      let total : Int := hours * 60 + minutes
      return some (if sign = '-' then -total else total)
    else none

/-- A date or a time as written. -/
def timestamp? (cs : List Char) : Option (Date ⊕ DateTime) := do
  let (year, cs) ← fixedNumber? 4 cs
  let (month, cs) ← shortNumber? 2 (← expect? '-' cs)
  let (day, cs) ← shortNumber? 2 (← expect? '-' cs)
  let date : Date := { year, month, day }
  match cs with
  | [] => return .inl date
  | c :: rest =>
    let cs ← if c = 'T' || c = 't' then some rest
      else if isSpace c then some (rest.dropWhile isSpace) else none
    let (hour, cs) ← shortNumber? 2 cs
    let (minute, cs) ← fixedNumber? 2 (← expect? ':' cs)
    let (second, cs) ← fixedNumber? 2 (← expect? ':' cs)
    let fraction := match cs with
      | '.' :: rest => rest.takeWhile Char.isDigit
      | _ => []
    let cs := match cs with
      | '.' :: rest => rest.dropWhile Char.isDigit
      | _ => cs
    let offset ← offset? cs
    return .inr { date, hour, minute, second, microsecond := millionths fraction, offset }

/-- The value of a date or a time. -/
def timestampOf (text : List Char) : Except Fault Value :=
  match timestamp? text with
  | none => .error .timestamp
  | some (.inl d) => (d.checked.map Value.date).mapError .calendar
  | some (.inr t) =>
    match t.offset.mapM checkedOffset with
    | .error e => .error (.calendar e)
    | .ok _ => (t.checked.map Value.dateTime).mapError .calendar

/-! ## Scalars -/

/-- The truth value of a word. -/
def truthOf (text : String) : Except Fault Value :=
  let word := String.ofList (text.toList.map Char.toLower)
  if ["yes", "true", "on"].contains word then .ok (.bool true)
  else if ["no", "false", "off"].contains word then .ok (.bool false)
  else .error (.truth word)

/-- The bytes of a text in base 64. -/
def binaryOf (text : List Char) : Except Fault Value :=
  if text.all (·.toNat < 0x80) then
    match Base64.decode? text with
    | some bytes => .ok (.bytes bytes)
    | none => .error .malformed
  else .error .malformed

/-- The value of a scalar of a kind. -/
def scalarValue (kind : Kind) (text : Text) : Except Fault Value :=
  match kind with
  | .null => .ok .null
  | .bool => truthOf text.lossy
  | .int => (integerOf text.lossy.toList).map .int
  | .float => (floatOf text.lossy.toList).map .float
  | .binary => binaryOf text.lossy.toList
  | .timestamp => timestampOf text.lossy.toList
  | .text => .ok (.text text)
  | _ => .error .malformed

end Gleaner.Yaml
