import Gleaner.Yaml.Cursor

/-!
# Block scalars

A block scalar is the indented lines under a bar or a greater-than sign. The indentation is that of the
first line that is not empty, unless a digit says it. After a bar line ends stay; after a greater-than
sign those between lines of text are folded. What stays of the line ends after the last line is said by
a sign: by default one, with a plus all, with a minus none.
-/

namespace Gleaner.Yaml

/-- What stays of the line ends after the last line. -/
inductive Chomping where
  | clip
  | keep
  | strip
deriving DecidableEq, Repr

/-- The head of a block scalar. -/
structure BlockHead where
  chomping : Chomping
  indentation : Option Nat
  cursor : Cursor

/-- The sign of a head. -/
def chompingSign? : Option Char → Option Chomping
  | some '+' => some .keep
  | some '-' => some .strip
  | _ => none

/-- The digit of a head. -/
def indentationDigit? : Option Char → Option Nat
  | some c => if c.isDigit then some (c.toNat - '0'.toNat) else none
  | none => none

/-- Scan the head of a block scalar: a sign and a digit in either order. -/
def blockHead (c : Cursor) : Except Fault BlockHead := do
  let sign := chompingSign? c.peek
  let c := if sign.isSome then c.next else c
  let digit := indentationDigit? c.peek
  let c := if digit.isSome then c.next else c
  let later := if sign.isNone && digit.isSome then chompingSign? c.peek else none
  let c := if later.isSome then c.next else c
  if digit = some 0 || !endsPart c.peek then .error .malformed
  else
    let cursor ← c.commentLine
    return { chomping := (sign <|> later).getD .clip, indentation := digit, cursor }

/-- The ends of lines and the blanks before the first line, and the deepest column reached. -/
def blockLead : (fuel deepest : Nat) → (breaks : List Char) → Cursor → Nat × List Char × Cursor
  | 0, deepest, breaks, c => (deepest, breaks, c)
  | fuel + 1, deepest, breaks, c =>
    if c.peek = some ' ' then blockLead fuel (max deepest c.next.column) breaks c.next
    else
      match c.lineBreak? with
      | none => (deepest, breaks, c)
      | some (ch, c) => blockLead fuel deepest (breaks ++ [ch]) c

/-- The ends of empty lines from here on. -/
def blockBreaks (column : Nat) : (fuel : Nat) → (breaks : List Char) → Cursor → List Char × Cursor
  | 0, breaks, c => (breaks, c)
  | fuel + 1, breaks, c =>
    let c := c.skipBlanksTo column
    match c.lineBreak? with
    | none => (breaks, c)
    | some (ch, c) => blockBreaks column fuel (breaks ++ [ch]) c

/-- Whether a character is a blank or a tab. -/
def isIndent (c : Option Char) : Bool :=
  c = some ' ' || c = some '\t'

/-- The lines of a block scalar that were scanned. -/
structure BlockText where
  text : List Char
  /-- The end of the last line. -/
  last : List Char
  /-- The ends of the empty lines after it. -/
  breaks : List Char
  cursor : Cursor

/-- Whether a line of a block scalar starts here. -/
def atBlockLine (column : Nat) (c : Cursor) : Bool :=
  c.column = column && !c.rest.isEmpty

/-- Scan the lines of a block scalar. -/
def blockLines (folded : Bool) (column : Nat) : (fuel : Nat) → BlockText → BlockText
  | 0, b => b
  | fuel + 1, b =>
    if atBlockLine column b.cursor then
      let line := b.cursor.run (!isBreak ·)
      let after := b.cursor.skip line.length
      let (last, c) := match after.lineBreak? with
        | none => ([], after)
        | some (ch, c) => ([ch], c)
      let (breaks, c) := blockBreaks column (c.rest.length + 1) [] c
      let text := b.text ++ b.breaks ++ line
      if atBlockLine column c then
        let joined := folded && last = ['\n'] && !isIndent b.cursor.peek && !isIndent c.peek
        let divider := if joined then if breaks.isEmpty then [' '] else [] else last
        blockLines folded column fuel ⟨text ++ divider, last, breaks, c⟩
      else ⟨text, last, breaks, c⟩
    else b

/-- Scan a block scalar from after its mark, inside a block at a column. -/
def blockScalar (folded : Bool) (least : Nat) (c : Cursor) : Except Fault (List Char × Cursor) := do
  let head ← blockHead c
  let c := head.cursor
  let (column, breaks, c) := match head.indentation with
    | none =>
      let (deepest, breaks, c) := blockLead c.rest.length 0 [] c
      (max least deepest, breaks, c)
    | some n =>
      let column := least + n - 1
      (column, blockBreaks column (c.rest.length + 1) [] c)
  let b := blockLines folded column (c.rest.length + 1) ⟨[], [], breaks, c⟩
  let tail := match head.chomping with
    | .clip => b.last
    | .keep => b.last ++ b.breaks
    | .strip => []
  return (b.text ++ tail, b.cursor)

end Gleaner.Yaml
