import Gleaner.Yaml.Cursor

/-!
# Plain scalars

A plain scalar has no quotes. It ends before a colon that ends a key, before a comment, and, inside
brackets, before the characters that divide items. It may go on over further lines as long as they are
indented; a line end inside it becomes a blank, or stays if empty lines follow.

Main definitions: `plainRun`, `plainGap` and `plainScalar`.
-/

namespace Gleaner.Yaml

/-- The brackets and the comma of lists and maps in brackets. -/
def isFlowMark (c : Char) : Bool :=
  [',', '[', ']', '\x7b', '\x7d'].contains c

/-- Whether a colon before this character ends a key. -/
def endsKey (flow : Bool) (following : Option Char) : Bool :=
  endsWord following || (flow && following.any isFlowMark)

/-- The characters of a plain scalar up to a blank or to its end. -/
def plainRun (flow : Bool) : List Char → List Char
  | [] => []
  | c :: rest =>
    if endsWord (some c) || (c = ':' && endsKey flow rest.head?) ||
        (flow && (isFlowMark c || c = '?')) then []
    else c :: plainRun flow rest

/-- Whether a plain scalar may start here. -/
def startsPlain (flow : Bool) (c : Cursor) : Bool :=
  match c.peek with
  | none => false
  | some ch =>
    let indicators := ['-', '?', ':', ',', '[', ']', '\x7b', '\x7d', '#', '&', '*', '!', '|', '>', '\'',
      '"', '%', '@', '\x60']
    (!endsWord (some ch) && !indicators.contains ch) ||
      (!endsWord (c.peekAt 1) && (ch = '-' || (!flow && (ch = '?' || ch = ':'))))

/-- What stands between two runs of a plain scalar. -/
structure Gap where
  text : List Char
  cursor : Cursor
  /-- Whether a line ended. -/
  newLine : Bool

/-- The ends of lines from here on; a mark between documents ends them, and then nothing counts. -/
def plainBreaks : (fuel : Nat) → (breaks : List Char) → Cursor → Option (List Char) × Cursor
  | 0, breaks, c => (some breaks, c)
  | fuel + 1, breaks, c =>
    if c.peek = some ' ' then plainBreaks fuel breaks c.next
    else
      match c.lineBreak? with
      | none => (some breaks, c)
      | some (ch, c) =>
        if c.atDocumentMark then (none, c) else plainBreaks fuel (breaks ++ [ch]) c

/-- The text for a line end and the empty lines after it. -/
def foldBreaks (first : Char) (breaks : List Char) : List Char :=
  if first ≠ '\n' then first :: breaks else if breaks.isEmpty then [' '] else breaks

/-- The gap after a run. -/
def plainGap (c : Cursor) : Gap :=
  let blanks := c.run (· = ' ')
  let c := c.skip blanks.length
  match c.lineBreak? with
  | none => ⟨blanks, c, false⟩
  | some (first, c) =>
    if c.atDocumentMark then ⟨[], c, true⟩
    else
      match plainBreaks c.rest.length [] c with
      | (none, c) => ⟨[], c, true⟩
      | (some breaks, c) => ⟨foldBreaks first breaks, c, true⟩

/-- A plain scalar that was scanned. -/
structure Plain where
  text : List Char
  cursor : Cursor
  /-- Whether its end is after the end of a line. -/
  newLine : Bool

/-- Scan a plain scalar whose further lines start at a column or behind it. -/
def plainScalar (flow : Bool) (column : Nat) : (fuel : Nat) → (found : Plain) → (gap : List Char) → Plain
  | 0, found, _ => found
  | fuel + 1, found, gap =>
    let c := found.cursor
    let run := plainRun flow c.rest
    if c.peek = some '#' || run.isEmpty then found
    else
      let next := plainGap (c.skip run.length)
      let found := ⟨found.text ++ gap ++ run, next.cursor, next.newLine⟩
      if next.text.isEmpty || next.cursor.peek = some '#' || (!flow && next.cursor.column < column) then
        found
      else plainScalar flow column fuel found next.text

end Gleaner.Yaml
