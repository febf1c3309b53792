/-!
# Patterns at the start of a text

A pattern says how many characters at the start of a text it matches, if it matches. Patterns are
greedy: each takes as much as it can and gives nothing back.
-/

namespace Gleaner.Text

/-- The number of characters matched at the start of a text. -/
abbrev Pattern := List Char → Option Nat

namespace Pattern

/-- One character of a class. -/
def one (p : Char → Bool) : Pattern
  | c :: _ => if p c then some 1 else none
  | [] => none

/-- One of the given characters. -/
def oneOf (choices : List Char) : Pattern :=
  one choices.contains

/-- Exactly this text. -/
def exactly (text : List Char) : Pattern :=
  fun cs => if text.isPrefixOf cs then some text.length else none

/-- One pattern and then another. -/
def andThen (a b : Pattern) : Pattern := fun cs =>
  match a cs with
  | none => none
  | some n => (b (cs.drop n)).map (n + ·)

/-- Several patterns one after the other. -/
def sequence : List Pattern → Pattern
  | [] => fun _ => some 0
  | p :: rest => p.andThen (sequence rest)

/-- The pattern, or nothing. -/
def optional (a : Pattern) : Pattern :=
  fun cs => some ((a cs).getD 0)

/-- The first pattern that matches. -/
def first (choices : List Pattern) : Pattern :=
  fun cs => choices.findSome? (· cs)

/-- The most that one of the patterns matches. -/
def longest (choices : List Pattern) : Pattern :=
  fun cs => (choices.filterMap (· cs)).max?

/-- Any number of characters of a class. -/
def run (p : Char → Bool) : Pattern :=
  fun cs => some (cs.takeWhile p).length

/-- At least so many characters of a class. -/
def runOf (least : Nat) (p : Char → Bool) : Pattern :=
  fun cs =>
    let n := (cs.takeWhile p).length
    if least ≤ n then some n else none

/-- As many of a pattern as there are, one after the other, but at most `count`. -/
def upTo (a : Pattern) : (count : Nat) → Pattern
  | 0 => fun _ => some 0
  | count + 1 => optional (andThen a (upTo a count))

/-- A pattern one or more times. -/
def many (a : Pattern) : Pattern :=
  fun cs => a.andThen (upTo a cs.length) cs

/-- Whether a pattern matches a whole text. -/
def matchesAll (a : Pattern) (cs : List Char) : Bool :=
  a cs = some cs.length

end Pattern

end Gleaner.Text
