/-!
# Structural delimiters

A delimiter counts unless it stands in a comment or in a quoted literal. The text is read once from
left to right, in one of three modes. A line comment ends the reading, a block comment lasts up to the
next `*/`, a literal up to the next quote of its kind. A quote right after a backslash neither opens
nor closes a literal; nothing else is escaped.

Main definitions: `Mode`, `tally` and `countDelimiters`.
-/

namespace Gleaner.Schema

/-- Where the reader stands: among plain characters, inside a block comment, or inside a literal. -/
inductive Mode where
  | plain
  | comment
  | literal (quote : Char)
deriving DecidableEq, Repr

/-- The number of opening and of closing delimiters. -/
structure Tally where
  opens : Nat := 0
  closes : Nat := 0
deriving DecidableEq, Repr

/-- What the delimiters add to the depth. -/
def Tally.balance (t : Tally) : Int :=
  (t.opens : Int) - t.closes

/-- A pair of delimiters; an absent one is never met. -/
structure Delimiters where
  opening : Option Char
  closing : Option Char
deriving DecidableEq, Repr

/-- The braces of schema blocks. -/
def braces : Delimiters :=
  ⟨some '{', some '}'⟩

/-- Count one plain character: as an opening delimiter if it is one, else as a closing one. -/
def Tally.add (d : Delimiters) (c : Char) (t : Tally) : Tally :=
  if d.opening = some c then { t with opens := t.opens + 1 }
  else if d.closing = some c then { t with closes := t.closes + 1 }
  else t

/-- Quotes open literals. -/
def isQuote (c : Char) : Bool :=
  c == '"' || c == '\''

/-- Count the delimiters from a mode on; `escaped` says that the character before was a backslash. -/
def tally (d : Delimiters) : Mode → Bool → List Char → Tally
  | _, _, [] => {}
  | .comment, _, '*' :: '/' :: rest => tally d .plain false rest
  | .comment, _, _ :: rest => tally d .comment false rest
  | .literal quote, escaped, c :: rest =>
    if c = quote && !escaped then tally d .plain false rest
    else tally d (.literal quote) (c == '\\') rest
  | .plain, _, '/' :: '/' :: _ => {}
  | .plain, _, '/' :: '*' :: rest => tally d .comment false rest
  | .plain, escaped, c :: rest =>
    if isQuote c && !escaped then tally d (.literal c) false rest
    else (tally d .plain (c == '\\') rest).add d c

/-- The structural delimiters of a text. -/
def countDelimiters (d : Delimiters) (text : List Char) : Tally :=
  tally d .plain false text

/-- What the braces of a text add to the depth of a block. -/
def braceBalance (text : List Char) : Int :=
  (countDelimiters braces text).balance

end Gleaner.Schema
