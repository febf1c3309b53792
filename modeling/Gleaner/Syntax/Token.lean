/-!
# Tokens

A token is a piece of source that the grammar takes as a unit, with its range of bytes. What a token
says is its text; what it may be is its class.
-/

namespace Gleaner.Syntax

/-- What a token may be. A literal carries the kind of its node. -/
inductive TokenClass where
  | word
  | literal (kind : String)
  | symbol
  | invalid
deriving DecidableEq, Repr

/-- A token with its text and its range of bytes. -/
structure Token where
  sort : TokenClass
  text : String
  start : Nat
  stop : Nat
deriving DecidableEq, Repr

/-- Divide a token after its first byte, if it is a symbol that starts with `first` and is longer. -/
def Token.afterFirst? (first : Char) (t : Token) : Option Token :=
  match t.sort, t.text.toList with
  | .symbol, c :: d :: rest =>
    if c = first then some { t with text := String.ofList (d :: rest), start := t.start + 1 } else none
  | _, _ => none

end Gleaner.Syntax
