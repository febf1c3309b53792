import Gleaner.Text.Basic
import Gleaner.Text.Printable

/-!
# Quoted text

Quoted text shows a text between quotes in one line: the quote used and the backslash are escaped,
characters that are not printable are written as escapes with two, four or eight hexadecimal digits, and
so are surrogates. Single quotes are used unless the text has a single quote and no double one.
-/

namespace Gleaner.Text

/-- The hexadecimal digit of a number below sixteen. -/
def hexDigit (n : Nat) : Char :=
  if n < 10 then Char.ofNat (0x30 + n) else Char.ofNat (0x57 + n)

/-- A number in lower-case hexadecimal with exactly `width` digits, high ones lost. -/
def hexText : Nat → Nat → List Char
  | 0, _ => []
  | width + 1, n => hexText width (n / 16) ++ [hexDigit (n % 16)]

/-- The quote around a quoted text. -/
def quoteFor (cs : List CodePoint) : Char :=
  if cs.contains '\'' && !cs.contains '"' then '"' else '\''

/-- One character inside quotes. -/
def quoteChar (quote c : Char) : List Char :=
  let n := c.toNat
  if c = quote || c = '\\' then ['\\', c]
  else if c = '\t' then ['\\', 't']
  else if c = '\n' then ['\\', 'n']
  else if c = '\r' then ['\\', 'r']
  else if isPrintable c then [c]
  else if n < 0x100 then '\\' :: 'x' :: hexText 2 n
  else if n < 0x10000 then '\\' :: 'u' :: hexText 4 n
  else '\\' :: 'U' :: hexText 8 n

/-- One code point inside quotes. -/
def quotePoint (quote : Char) : CodePoint → List Char
  | .char c => quoteChar quote c
  | .surrogate offset => '\\' :: 'u' :: hexText 4 (0xd800 + offset)

/-- A text in quotes. -/
def quoted (s : Text) : String :=
  let quote := quoteFor s.toList
  String.ofList (quote :: s.toList.flatMap (quotePoint quote) ++ [quote])

end Gleaner.Text
