/-!
# Binary floating point numbers

A number with 53 binary digits, as configuration files and reports hold them. Arithmetic is exact on
integers and rounds once, to the nearest number and to the even one of two equally near.

Finite numbers are kept in one form: the mantissa is below 2^53, the exponent is at least -1074, and the
mantissa is at least 2^52 unless the exponent is the least one.

Main definitions: `Binary64`, `ofRatio`, `ofDecimal`, `add` and `mul`.
-/

namespace Gleaner

/-- A finite number `mantissa * 2 ^ exponent` with a sign, an infinity, or no number at all. -/
inductive Binary64 where
  | finite (negative : Bool) (mantissa : Nat) (exponent : Int)
  | infinite (negative : Bool)
  | nan
deriving DecidableEq, Repr

namespace Binary64

/-- The least exponent. -/
def leastExponent : Int := -1074

/-- The greatest exponent. -/
def greatestExponent : Int := 971

/-- A power with an integer exponent; below zero, the exponent counts as zero. -/
def power (base : Nat) (exponent : Int) : Nat :=
  Nat.pow base exponent.toNat

/-- A mantissa is below this bound. -/
def mantissaBound : Nat := power 2 53

/-- Zero with a sign. -/
def zero (negative : Bool) : Binary64 :=
  .finite negative 0 leastExponent

/-- A quotient rounded to the nearest integer, ties to even. -/
def roundQuotient (num den : Nat) : Nat :=
  let quotient := num / den
  let twice := 2 * (num % den)
  if twice > den || (twice == den && quotient % 2 == 1) then quotient + 1 else quotient

/-- The ratio divided by a power of two, as a ratio. -/
def scaleRatio (num den : Nat) (exponent : Int) : Nat × Nat :=
  if exponent < 0 then (num * power 2 (-exponent), den) else (num, den * power 2 exponent)

/-- The exponent that leaves a ratio 53 binary digits before the point, or the least one. -/
def exponentFor (num den : Nat) : Int :=
  let low := (num.log2 : Int) - den.log2 - 53
  let (n, d) := scaleRatio num den low
  max (if mantissaBound * d ≤ n then low + 1 else low) leastExponent

/-- The number nearest to a ratio of naturals. -/
def ofRatio (negative : Bool) (num den : Nat) : Binary64 :=
  if num = 0 then zero negative
  else
    let exponent := exponentFor num den
    let (n, d) := scaleRatio num den exponent
    let mantissa := roundQuotient n d
    let (mantissa, exponent) :=
      if mantissa = mantissaBound then (mantissaBound / 2, exponent + 1) else (mantissa, exponent)
    if exponent > greatestExponent then .infinite negative else .finite negative mantissa exponent

/-- The number nearest to `mantissa * 2 ^ exponent`. -/
def ofScaled (negative : Bool) (mantissa : Nat) (exponent : Int) : Binary64 :=
  if exponent < 0 then ofRatio negative mantissa (power 2 (-exponent))
  else ofRatio negative (mantissa * power 2 exponent) 1

/-- The number of decimal digits. -/
def digitCount (n : Nat) : Nat :=
  (Nat.toDigits 10 n).length

/-- The number nearest to `digits * 10 ^ scale`. What is far outside the range needs no arithmetic. -/
def ofDecimal (negative : Bool) (digits : Nat) (scale : Int) : Binary64 :=
  let magnitude := scale + digitCount digits
  if digits = 0 || magnitude < -400 then zero negative
  else if magnitude > 400 then .infinite negative
  else if scale < 0 then ofRatio negative digits (power 10 (-scale))
  else ofRatio negative (digits * power 10 scale) 1

/-- The number nearest to an integer. -/
def ofInt (n : Int) : Binary64 :=
  ofRatio (n < 0) n.natAbs 1

/-- The number with the other sign. -/
def neg : Binary64 → Binary64
  | .finite negative mantissa exponent => .finite (!negative) mantissa exponent
  | .infinite negative => .infinite (!negative)
  | .nan => .nan

/-- A mantissa with a sign, as an integer. -/
def signed (negative : Bool) (mantissa : Nat) : Int :=
  if negative then -mantissa else mantissa

/-- The rounded sum. -/
def add : Binary64 → Binary64 → Binary64
  | .finite s m e, .finite t n f =>
    let low := min e f
    let sum := signed s (m * power 2 (e - low)) + signed t (n * power 2 (f - low))
    ofScaled (sum < 0 || (sum = 0 && s && t)) sum.natAbs low
  | .infinite s, .infinite t => if s = t then .infinite s else .nan
  | .infinite s, .finite .. => .infinite s
  | .finite .., .infinite t => .infinite t
  | .nan, _ => .nan
  | _, .nan => .nan

/-- Whether the number is zero, of either sign. -/
def isZero : Binary64 → Bool
  | .finite _ m _ => m = 0
  | _ => false

/-- Whether the sign is minus. -/
def isNegative : Binary64 → Bool
  | .finite s _ _ => s
  | .infinite s => s
  | .nan => false

/-- The rounded product. -/
def mul : Binary64 → Binary64 → Binary64
  | .finite s m e, .finite t n f => ofScaled (s != t) (m * n) (e + f)
  | .nan, _ => .nan
  | _, .nan => .nan
  | a, b => if a.isZero || b.isZero then .nan else .infinite (a.isNegative != b.isNegative)

/-- The value of a number as a ratio of integers. -/
def ratio? : Binary64 → Option (Int × Nat)
  | .finite s m e =>
    if e < 0 then some (signed s m, power 2 (-e)) else some (signed s (m * power 2 e), 1)
  | _ => none

/-- Whether the number is the given integer. -/
def isInt (x : Binary64) (n : Int) : Bool :=
  match x.ratio? with
  | some (num, den) => num == n * den
  | none => false

end Binary64

end Gleaner
