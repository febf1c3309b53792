import Gleaner.Text.Utf16
import Gleaner.Yaml.Plain

/-!
# Quoted scalars

Between single quotes a quote is written twice. Between double quotes a backslash escapes: single
characters, code points by their number, and the end of a line. A line end without a backslash is folded
as in plain scalars, with the blanks around it.
-/

namespace Gleaner.Yaml

open Gleaner.Utf16

/-- The character of a short escape. -/
def shortEscape? (c : Char) : Option Char :=
  [('0', '\x00'), ('a', '\x07'), ('b', '\x08'), ('t', '\t'), ('\t', '\t'), ('n', '\n'), ('v', '\x0b'),
    ('f', '\x0c'), ('r', '\r'), ('e', '\x1b'), (' ', ' '), ('"', '"'), ('\\', '\\'), ('/', '/'),
    ('N', '\x85'), ('_', '\xa0'), ('L', '\u2028'), ('P', '\u2029')].lookup c

/-- The number of digits after the letter of a numeric escape. -/
def escapeWidth? (c : Char) : Option Nat :=
  [('x', 2), ('u', 4), ('U', 8)].lookup c

/-- The number in hexadecimal digits. -/
def hexNumber? (width : Nat) (cs : List Char) : Option Nat :=
  let digits := (cs.take width).filterMap hexValue?
  if digits.length = width then some (digits.foldl (fun n d => n * 16 + d) 0) else none

/-- The ends of lines from here on, with the blanks around them passed. -/
def quotedBreaks : (fuel : Nat) → (breaks : List Char) → Cursor → Except Fault (List Char × Cursor)
  | 0, breaks, c => .ok (breaks, c)
  | fuel + 1, breaks, c =>
    if c.atDocumentMark then .error .malformed
    else
      let c := c.skipWhile fun ch => ch = ' ' || ch = '\t'
      match c.lineBreak? with
      | none => .ok (breaks, c)
      | some (ch, c) => quotedBreaks fuel (breaks ++ [ch]) c

/-- The text of an escape, from its backslash on, and the place after it. -/
def quotedEscape (c : Cursor) : Except Fault (List CodePoint × Cursor) :=
  let c := c.next
  match c.peek with
  | none => .error .malformed
  | some letter =>
    match shortEscape? letter, escapeWidth? letter with
    | some ch, _ => .ok ([.char ch], c.next)
    | none, some width =>
      match hexNumber? width (c.rest.drop 1) with
      | none => .error .malformed
      | some code =>
        if code < 0x110000 then .ok ([unitPoint code], c.skip (width + 1)) else .error (.codePoint code)
    | none, none =>
      match c.lineBreak? with
      | none => .error .malformed
      | some (_, c) => do
        let (breaks, c) ← quotedBreaks (c.rest.length + 1) [] c
        return (breaks.map .char, c)

/-- The text for blanks and line ends, and the place after them. -/
def quotedGap (c : Cursor) : Except Fault (List Char × Cursor) := do
  let blanks := c.run fun ch => ch = ' ' || ch = '\t'
  let c := c.skip blanks.length
  match c.lineBreak? with
  | none => if c.rest.isEmpty then .error .malformed else return (blanks, c)
  | some (first, c) =>
    let (breaks, c) ← quotedBreaks (c.rest.length + 1) [] c
    return (foldBreaks first breaks, c)

/-- Scan a quoted scalar from after its opening quote. The text so far is held backwards. -/
def quotedScalar (double : Bool) : (fuel : Nat) → (text : List CodePoint) → Cursor →
    Except Fault (List CodePoint × Cursor)
  | 0, _, _ => .error .malformed
  | fuel + 1, text, c =>
    match c.peek with
    | none => .error .malformed
    | some ch =>
      if ch = (if double then '"' else '\'') then
        if !double && c.peekAt 1 = some '\'' then quotedScalar double fuel (.char '\'' :: text) (c.skip 2)
        else .ok (text.reverse, c.next)
      else if double && ch = '\\' then do
        let (found, c) ← quotedEscape c
        quotedScalar double fuel (found.reverse ++ text) c
      else if endsWord (some ch) then do
        let (found, c) ← quotedGap c
        quotedScalar double fuel (found.reverse.map .char ++ text) c
      else quotedScalar double fuel (.char ch :: text) c.next

end Gleaner.Yaml
