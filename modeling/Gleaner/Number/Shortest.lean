import Gleaner.Number.Binary64

/-!
# Decimal text of floating point numbers

A number is written with the fewest decimal digits that read back as the same number, and of those with
the digits nearest to it. For a count of digits the two neighbours of the number on that decimal grid
are tested in exact arithmetic against the interval of reals that round to it.

Digits stand around a decimal point while the first of them counts between 10^-4 and 10^15, and before
an exponent of at least two digits otherwise.

Main definitions: `shortest`, `Binary64.text` and `Binary64.read?`.
-/

namespace Gleaner

namespace Binary64

/-- A decimal grid point `digits * 10 ^ scale`. -/
structure DecimalPoint where
  digits : Nat
  scale : Int
deriving DecidableEq, Repr

/-- Compare `a * 10 ^ scale` with `b * 2 ^ exponent`. -/
def compareScaled (a : Nat) (scale : Int) (b : Nat) (exponent : Int) : Ordering :=
  compare (a * power 10 scale * power 2 (-exponent)) (b * power 2 exponent * power 10 (-scale))

/-- The reals that round to a number, in quarters of its last binary place: the bounds, and whether
they belong to it. -/
def roundingInterval (mantissa : Nat) (exponent : Int) : Nat × Nat × Bool :=
  let below := if mantissa = mantissaBound / 2 && exponent > leastExponent then 1 else 2
  (4 * mantissa - below, 4 * mantissa + 2, mantissa % 2 == 0)

/-- Whether a grid point reads back as the number. -/
def readsBack (mantissa : Nat) (exponent : Int) (point : DecimalPoint) : Bool :=
  let (low, high, closed) := roundingInterval mantissa exponent
  let fromLow := compareScaled point.digits point.scale low (exponent - 2)
  let toHigh := compareScaled point.digits point.scale high (exponent - 2)
  (fromLow == .gt || (closed && fromLow == .eq)) && (toHigh == .lt || (closed && toHigh == .eq))

/-- The grid point at or below `mantissa * 2 ^ exponent`. -/
def floorPoint (mantissa : Nat) (exponent scale : Int) : Nat :=
  (mantissa * power 2 exponent * power 10 (-scale)) / (power 2 (-exponent) * power 10 scale)

/-- The grid point nearer to the number; of two equally near the even one. -/
def nearer (mantissa : Nat) (exponent : Int) (point : DecimalPoint) : DecimalPoint :=
  let next : DecimalPoint := ⟨point.digits + 1, point.scale⟩
  match compareScaled (2 * point.digits + 1) point.scale (2 * mantissa) exponent with
  | .gt => point
  | .lt => next
  | .eq => if point.digits % 2 = 0 then point else next

/-- The best grid point of a scale that reads back, if one does. -/
def pointAt? (mantissa : Nat) (exponent scale : Int) : Option DecimalPoint :=
  let low : DecimalPoint := ⟨floorPoint mantissa exponent scale, scale⟩
  let high : DecimalPoint := ⟨low.digits + 1, scale⟩
  match readsBack mantissa exponent low, readsBack mantissa exponent high with
  | true, true => some (nearer mantissa exponent low)
  | true, false => some low
  | false, true => some high
  | false, false => none

/-- The place of the first digit: the number is below `10 ^ place` and not below a tenth of it. -/
def firstPlace (mantissa : Nat) (exponent : Int) : Int :=
  (digitCount (floorPoint mantissa exponent (-400)) : Int) - 400

/-- The fewest digits that read back; seventeen always do. -/
def shortest (mantissa : Nat) (exponent : Int) : DecimalPoint :=
  let place := firstPlace mantissa exponent
  let points := (List.range 17).filterMap fun n => pointAt? mantissa exponent (place - (n + 1 : Nat))
  points.headD ⟨floorPoint mantissa exponent (place - 17), place - 17⟩

/-- Digits without the zeros at their end, which move to the scale. -/
def DecimalPoint.reduced (point : DecimalPoint) : List Char × Int :=
  let digits := Nat.toDigits 10 point.digits
  let kept := (digits.reverse.dropWhile (· = '0')).reverse
  (kept, point.scale + (digits.length - kept.length : Nat))

/-- An exponent: a sign and at least two digits. -/
def exponentText (n : Int) : List Char :=
  let digits := Nat.toDigits 10 n.natAbs
  (if n < 0 then '-' else '+') :: (if digits.length < 2 then '0' :: digits else digits)

/-- Digits in a decimal notation. -/
def pointText (digits : List Char) (scale : Int) : List Char :=
  let leading := scale + digits.length - 1
  if -4 ≤ leading && leading < 16 then
    if 0 ≤ scale then digits ++ List.replicate scale.toNat '0' ++ ['.', '0']
    else if 0 ≤ leading then
      digits.take (leading.toNat + 1) ++ '.' :: digits.drop (leading.toNat + 1)
    else '0' :: '.' :: List.replicate (-leading - 1).toNat '0' ++ digits
  else
    let tail := digits.drop 1
    digits.take 1 ++ (if tail.isEmpty then [] else '.' :: tail) ++ 'e' :: exponentText leading

/-- The text of a number. -/
def text : Binary64 → String
  | .nan => "nan"
  | .infinite negative => if negative then "-inf" else "inf"
  | .finite negative mantissa exponent =>
    let magnitude :=
      if mantissa = 0 then ['0', '.', '0']
      else
        let (digits, scale) := (shortest mantissa exponent).reduced
        pointText digits scale
    String.ofList (if negative then '-' :: magnitude else magnitude)

/-! ## Reading -/

/-- The value of decimal digits. -/
def digitsValue (digits : List Char) : Nat :=
  digits.foldl (fun n c => n * 10 + (c.toNat - '0'.toNat)) 0

/-- An exponent after its mark, up to the end of the text. -/
def readExponent? (cs : List Char) : Option Int :=
  let (negative, digits) :=
    match cs with
    | '-' :: rest => (true, rest)
    | '+' :: rest => (false, rest)
    | _ => (false, cs)
  if digits.isEmpty || !digits.all Char.isDigit then none
  else some (signed negative (digitsValue digits))

/-- An unsigned decimal number with an optional fraction and exponent. -/
def readMagnitude? (negative : Bool) (cs : List Char) : Option Binary64 :=
  let whole := cs.takeWhile Char.isDigit
  let rest := cs.drop whole.length
  let (fraction, rest) :=
    match rest with
    | '.' :: more =>
      let fraction := more.takeWhile Char.isDigit
      (fraction, more.drop fraction.length)
    | _ => ([], rest)
  if whole.isEmpty && fraction.isEmpty then none
  else
    let exponent? : Option Int :=
      match rest with
      | [] => some 0
      | c :: more => if c = 'e' || c = 'E' then readExponent? more else none
    exponent?.map fun exponent =>
      ofDecimal negative (digitsValue (whole ++ fraction)) (exponent - fraction.length)

/-- A decimal number, or the name of an infinity or of no number, in lower case. -/
def read? (cs : List Char) : Option Binary64 :=
  let (negative, body) :=
    match cs with
    | '-' :: rest => (true, rest)
    | '+' :: rest => (false, rest)
    | _ => (false, cs)
  if body = "inf".toList || body = "infinity".toList then some (.infinite negative)
  else if body = "nan".toList then some .nan
  else readMagnitude? negative body

end Binary64

end Gleaner
