import Gleaner.Java.Lexeme.Numeral

/-!
# Character and string literals

A string ends at the next quote that no backslash hides, a text block at three quotes. Both may embed
code between `\` with an opening brace and a closing brace, and that code may hold further strings; the
reader keeps the levels it is inside of on a stack. A character literal may hold several characters but
no line feed of its own.

Main definitions: `stringEnd?` and `characterEnd?`, which say how many characters a literal has.
-/

namespace Gleaner.Java

/-- A string ends at one quote, a text block at three. -/
inductive Quote where
  | plain
  | block
deriving DecidableEq, Repr

/-- What the reader is inside of: the text of a literal, or embedded code with open braces. -/
inductive Level where
  | text (quote : Quote)
  | code (braces : Nat)
deriving DecidableEq, Repr

/-- What may follow a backslash in a string. -/
def isEscape : List Char → Bool
  | 'x' :: a :: b :: _ => isHexDigit a && isHexDigit b
  | 'u' :: '{' :: rest =>
    let digits := rest.takeWhile isHexDigit
    !digits.isEmpty && (rest.drop digits.length).head? == some '}'
  | 'u' :: a :: b :: c :: d :: _ => isHexDigit a && isHexDigit b && isHexDigit c && isHexDigit d
  | c :: _ => c != 'x' && c != 'u'
  | [] => false

/-- Read on until every level is closed; gives the number of characters. -/
def levelsEnd? : List Level → (taken : Nat) → List Char → Option Nat
  | [], taken, _ => some taken
  | _ :: _, _, [] => none
  | .text .plain :: outer, taken, '"' :: rest => levelsEnd? outer (taken + 1) rest
  | .text .block :: outer, taken, '"' :: '"' :: '"' :: rest => levelsEnd? outer (taken + 3) rest
  | .text quote :: outer, taken, '\\' :: '{' :: rest =>
    levelsEnd? (.code 0 :: .text quote :: outer) (taken + 2) rest
  | .text quote :: outer, taken, '\\' :: c :: rest =>
    if quote = .block || isEscape (c :: rest) then levelsEnd? (.text quote :: outer) (taken + 2) rest
    else none
  | .text quote :: outer, taken, _ :: rest => levelsEnd? (.text quote :: outer) (taken + 1) rest
  | .code 0 :: outer, taken, '}' :: rest => levelsEnd? outer (taken + 1) rest
  | .code (n + 1) :: outer, taken, '}' :: rest => levelsEnd? (.code n :: outer) (taken + 1) rest
  | .code n :: outer, taken, '{' :: rest => levelsEnd? (.code (n + 1) :: outer) (taken + 1) rest
  | .code n :: outer, taken, '"' :: '"' :: '"' :: rest =>
    levelsEnd? (.text .block :: .code n :: outer) (taken + 3) rest
  | .code n :: outer, taken, '"' :: rest =>
    levelsEnd? (.text .plain :: .code n :: outer) (taken + 1) rest
  | .code n :: outer, taken, '\'' :: '\\' :: _ :: '\'' :: rest =>
    levelsEnd? (.code n :: outer) (taken + 4) rest
  | .code n :: outer, taken, '\'' :: _ :: '\'' :: rest =>
    levelsEnd? (.code n :: outer) (taken + 3) rest
  | .code n :: outer, taken, _ :: rest => levelsEnd? (.code n :: outer) (taken + 1) rest

/-- The length of the string or text block at the start of a text. -/
def stringEnd? : List Char → Option Nat
  | '"' :: '"' :: '"' :: rest => levelsEnd? [.text .block] 3 rest
  | '"' :: rest => levelsEnd? [.text .plain] 1 rest
  | _ => none

/-- Read on to the end of a character literal. -/
def characterEndFrom? (taken : Nat) : List Char → Option Nat
  | [] => none
  | '\'' :: _ => if taken > 1 then some (taken + 1) else none
  | '\n' :: _ => none
  | '\\' :: _ :: rest => characterEndFrom? (taken + 2) rest
  | '\\' :: [] => none
  | _ :: rest => characterEndFrom? (taken + 1) rest

/-- The length of the character literal at the start of a text. -/
def characterEnd? : List Char → Option Nat
  | '\'' :: rest => characterEndFrom? 1 rest
  | _ => none

end Gleaner.Java
