import Gleaner.Text.Pattern

/-!
# Numeric literals

A number is decimal, hexadecimal, octal or binary, whole or with a fraction or an exponent. Underscores
may stand between digits. Of the forms that fit the start of a text the one that takes the most
characters is meant, and among equals the first in the list.

Main definitions: `numeralForms` and `numeral?`.
-/

namespace Gleaner.Java

open Gleaner.Text

/-- Digits of a class in groups with underscores between: how many characters up to the last digit,
after `taken` characters that end in a digit and `pending` underscores. Only a wide separator has more
than one underscore. -/
def groupsFrom (digit : Char → Bool) (wide : Bool) (taken pending : Nat) : List Char → Nat
  | [] => taken
  | c :: rest =>
    if digit c then groupsFrom digit wide (taken + pending + 1) 0 rest
    else if c = '_' && taken > 0 && (wide || pending = 0) then
      groupsFrom digit wide taken (pending + 1) rest
    else taken

/-- At least one group of digits. -/
def groups (digit : Char → Bool) (wide : Bool) : Pattern := fun cs =>
  match groupsFrom digit wide 0 0 cs with
  | 0 => none
  | n => some n

/-- A hexadecimal digit. -/
def isHexDigit (c : Char) : Bool :=
  c.isDigit || ('a' ≤ c && c ≤ 'f') || ('A' ≤ c && c ≤ 'F')

/-- An octal digit. -/
def isOctalDigit (c : Char) : Bool :=
  '0' ≤ c && c ≤ '7'

/-- A whole decimal number: zero, or digits that start with another one. -/
def wholeDigits : Pattern :=
  .first [
    .one (· = '0'),
    .andThen (.one fun c => '1' ≤ c && c ≤ '9')
      (.optional (.andThen (.optional (.oneOf ['_'])) (groups Char.isDigit true)))]

/-- Decimal digits, zeros in front allowed. -/
def decimalDigits : Pattern :=
  groups Char.isDigit false

/-- Hexadecimal digits. -/
def hexDigits : Pattern :=
  groups isHexDigit false

/-- The mark of a long integer. -/
def longMark : Pattern :=
  .optional (.oneOf ['l', 'L'])

/-- The mark of a floating point type. -/
def floatMark : Pattern :=
  .oneOf ['f', 'F', 'd', 'D']

/-- A sign, or nothing. -/
def signMark : Pattern :=
  .optional (.oneOf ['-', '+'])

/-- A decimal exponent. -/
def exponent : Pattern :=
  .sequence [.oneOf ['e', 'E'], signMark, decimalDigits]

/-- The start of a hexadecimal number. -/
def hexMark : Pattern :=
  .first [.exactly ['0', 'x'], .exactly ['0', 'X']]

/-- A decimal number that is not whole by its form. -/
def decimalFloat : Pattern :=
  .longest [
    .sequence [decimalDigits, .oneOf ['.'], .optional decimalDigits, .optional exponent,
      .optional floatMark],
    .sequence [.oneOf ['.'], decimalDigits, .optional exponent, .optional floatMark],
    .sequence [wholeDigits, exponent, .optional floatMark],
    .sequence [wholeDigits, .optional exponent, floatMark]]

/-- A hexadecimal number with a fraction or an exponent. -/
def hexFloat : Pattern :=
  .sequence [
    hexMark,
    .longest [
      .sequence [hexDigits, .optional (.oneOf ['.'])],
      .sequence [.optional hexDigits, .oneOf ['.'], hexDigits]],
    .optional (.sequence [.oneOf ['p', 'P'], signMark, wholeDigits, .optional floatMark])]

/-- The forms of a number, each with the kind of its node. -/
def numeralForms : List (String × Pattern) := [
  ("decimal_integer_literal", .sequence [wholeDigits, longMark]),
  ("hex_integer_literal", .sequence [hexMark, hexDigits, longMark]),
  ("octal_integer_literal", .sequence [
    .first [.exactly ['0', 'o'], .exactly ['0', 'O'], .exactly ['0']],
    groups isOctalDigit false, longMark]),
  ("binary_integer_literal", .sequence [
    .first [.exactly ['0', 'b'], .exactly ['0', 'B']],
    groups (fun c => c = '0' || c = '1') false, longMark]),
  ("decimal_floating_point_literal", decimalFloat),
  ("hex_floating_point_literal", hexFloat)]

/-- The better of two readings: the longer one, and the earlier among equals. -/
def betterReading (best next : Option (String × Nat)) : Option (String × Nat) :=
  match best, next with
  | none, _ => next
  | some _, none => best
  | some (_, n), some (_, m) => if n < m then next else best

/-- The number at the start of a text: the kind of its node and how many characters it has. -/
def numeral? (cs : List Char) : Option (String × Nat) :=
  (numeralForms.map fun (kind, form) => (form cs).map (kind, ·)).foldl betterReading none

end Gleaner.Java
