import Gleaner.Text.Basic

/-!
# UTF-16 units in escapes

Escaped characters are written as hexadecimal numbers of UTF-16 units. Two units form one character
beyond the first 65536; half of a pair alone is a surrogate.
-/

namespace Gleaner.Utf16

/-- The value of a hexadecimal digit. -/
def hexValue? (c : Char) : Option Nat :=
  if '0' ≤ c && c ≤ '9' then some (c.toNat - '0'.toNat)
  else if 'a' ≤ c && c ≤ 'f' then some (c.toNat - 'a'.toNat + 10)
  else if 'A' ≤ c && c ≤ 'F' then some (c.toNat - 'A'.toNat + 10)
  else none

/-- Whether a unit is the first of two. -/
def isHigh (unit : Nat) : Bool :=
  0xd800 ≤ unit && unit < 0xdc00

/-- Whether a unit is the second of two. -/
def isLow (unit : Nat) : Bool :=
  0xdc00 ≤ unit && unit < 0xe000

/-- The code point of a unit. -/
def unitPoint (unit : Nat) : CodePoint :=
  if h : 0xd800 ≤ unit ∧ unit < 0xe000 then .surrogate ⟨unit - 0xd800, by omega⟩
  else .char (Char.ofNat unit)

/-- The character of a pair of units. -/
def pairChar (high low : Nat) : Char :=
  Char.ofNat (0x10000 + (high - 0xd800) * 0x400 + (low - 0xdc00))

end Gleaner.Utf16
