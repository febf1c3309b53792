import Gleaner.Text.Quoted

/-!
# Quoted text in JSON

Text stands between double quotes. Quotes, backslashes and control characters are escaped; on request
everything else outside the printable ASCII range is too, as one or two UTF-16 units. Surrogates are
escaped then as well, and else stand for themselves.

Main definitions: `Charset`, `escape`, `escapePoint` and `quote`.
-/

namespace Gleaner.Json

/-- Which characters may stand for themselves. -/
inductive Charset where
  | unicode
  | ascii
deriving DecidableEq, Repr

/-- The letter of a short escape. -/
def shortEscape? (c : Char) : Option Char :=
  if c = '"' then some '"'
  else if c = '\\' then some '\\'
  else if c = '\n' then some 'n'
  else if c = '\r' then some 'r'
  else if c = '\t' then some 't'
  else if c = '\x08' then some 'b'
  else if c = '\x0c' then some 'f'
  else none

/-- Whether a character without a short escape stands for itself. -/
def Charset.keeps (charset : Charset) (c : Char) : Bool :=
  match charset with
  | .unicode => 0x20 ≤ c.toNat
  | .ascii => 0x20 ≤ c.toNat && c.toNat < 0x7f

/-- The escape of one UTF-16 unit. -/
def unitEscape (unit : Nat) : List Char :=
  '\\' :: 'u' :: Text.hexText 4 unit

/-- The escape of a character as UTF-16 units. -/
def unicodeEscape (c : Char) : List Char :=
  if c.toNat < 0x10000 then unitEscape c.toNat
  else
    let offset := c.toNat - 0x10000
    unitEscape (0xd800 + offset / 0x400) ++ unitEscape (0xdc00 + offset % 0x400)

/-- A character inside quotes. -/
def escape (charset : Charset) (c : Char) : List Char :=
  match shortEscape? c with
  | some letter => ['\\', letter]
  | none => if charset.keeps c then [c] else unicodeEscape c

/-- A code point inside quotes. -/
def escapePoint (charset : Charset) : CodePoint → List CodePoint
  | .char c => (escape charset c).map .char
  | .surrogate offset =>
    match charset with
    | .unicode => [.surrogate offset]
    | .ascii => (unitEscape (0xd800 + offset)).map .char

/-- Text in quotes. -/
def quote (charset : Charset) (text : List CodePoint) : List CodePoint :=
  .char '"' :: text.flatMap (escapePoint charset) ++ [.char '"']

end Gleaner.Json
