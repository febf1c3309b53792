import Gleaner.Yaml.Fault

/-!
# A place in the text

Scanning goes through the text with a cursor that knows what is left and where it stands. Besides the
line feed, three more characters end a line; two of them stay what they are when lines are joined.

Main definitions: the character tests, `Cursor`, `Cursor.next`, `Cursor.skip`, `Cursor.lineBreak?`.
-/

namespace Gleaner.Yaml

/-! ## Characters -/

/-- Whether a character may stand in a text at all. -/
def isPrintable (c : Char) : Bool :=
  let n := c.toNat
  n = 0x09 || n = 0x0a || n = 0x0d || (0x20 ≤ n && n ≤ 0x7e) || n = 0x85 ||
    (0xa0 ≤ n && n ≤ 0xfffd) || 0x10000 ≤ n

/-- Whether a character ends a line. -/
def isBreak (c : Char) : Bool :=
  c = '\n' || c = '\x85' || c = '\u2028' || c = '\u2029'

/-- Whether a line ends here. -/
def endsLine : Option Char → Bool
  | none => true
  | some c => isBreak c

/-- Whether a word ends here; tabs do not count. -/
def endsPart : Option Char → Bool
  | none => true
  | some c => c = ' ' || isBreak c

/-- Whether a word ends here. -/
def endsWord : Option Char → Bool
  | none => true
  | some c => c = ' ' || c = '\t' || isBreak c

/-- The characters of names of anchors, directives and handles. -/
def isNameChar (c : Char) : Bool :=
  c.isAlphanum || c = '-' || c = '_'

/-! ## Cursors -/

/-- What is left of a text, and where that is. -/
structure Cursor where
  rest : List Char
  index : Nat := 0
  line : Nat := 0
  column : Nat := 0

namespace Cursor

/-- The next character. -/
def peek (c : Cursor) : Option Char :=
  c.rest.head?

/-- A character further on. -/
def peekAt (c : Cursor) (n : Nat) : Option Char :=
  c.rest[n]?

/-- Pass one character. A byte order mark takes no column. -/
def next (c : Cursor) : Cursor :=
  match c.rest with
  | [] => c
  | ch :: rest =>
    if isBreak ch then { rest, index := c.index + 1, line := c.line + 1, column := 0 }
    else
      { c with
        rest
        index := c.index + 1
        column := if ch = '\ufeff' then c.column else c.column + 1 }

/-- Pass some characters. -/
def skip (c : Cursor) : Nat → Cursor
  | 0 => c
  | n + 1 => c.next.skip n

/-- The characters from here on that pass a test. -/
def run (c : Cursor) (p : Char → Bool) : List Char :=
  c.rest.takeWhile p

/-- Pass all characters that pass a test. -/
def skipWhile (c : Cursor) (p : Char → Bool) : Cursor :=
  c.skip (c.run p).length

/-- Pass blanks. -/
def skipBlanks (c : Cursor) : Cursor :=
  c.skipWhile (· = ' ')

/-- Pass blanks up to a column. -/
def skipBlanksTo (c : Cursor) (column : Nat) : Cursor :=
  c.skip (min (c.run (· = ' ')).length (column - c.column))

/-- Pass what is left of a line. -/
def skipLine (c : Cursor) : Cursor :=
  c.skipWhile (!isBreak ·)

/-- The end of a line and what it becomes when lines are joined. -/
def lineBreak? (c : Cursor) : Option (Char × Cursor) :=
  match c.peek with
  | none => none
  | some ch =>
    if isBreak ch then some (if ch = '\x85' then '\n' else ch, c.next) else none

/-- Whether a mark between documents is here. -/
def atDocumentMark (c : Cursor) : Bool :=
  match c.rest with
  | a :: b :: d :: rest =>
    a = b && b = d && (a = '-' || a = '.') && endsWord rest.head?
  | _ => false

/-- Pass the rest of a line that may only hold a comment. -/
def commentLine (c : Cursor) : Except Fault Cursor :=
  let c := c.skipBlanks
  let c := if c.peek = some '#' then c.skipLine else c
  if endsLine c.peek then .ok ((c.lineBreak?.map Prod.snd).getD c) else .error .malformed

end Cursor

end Gleaner.Yaml
