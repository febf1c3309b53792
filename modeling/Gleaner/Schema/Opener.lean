import Gleaner.Text.Alphabet
import Gleaner.Text.Blank
import Gleaner.Element

/-!
# Lines that open a block or name the package

A block opener is a line of the form `message Name {` or `enum Name {`, blanks allowed before, after
and between its parts and at least one blank after the keyword. A package line is
`package some.name;`. Both are recognised at the start of the line; what follows does not matter.

Main definitions: `Opener`, `opener?` and `package?`.
-/

namespace Gleaner.Schema

open Gleaner.Text

/-- Drop a given text from the front. -/
def dropPrefix? : List Char → List Char → Option (List Char)
  | [], cs => some cs
  | _ :: _, [] => none
  | p :: ps, c :: cs => if p = c then dropPrefix? ps cs else none

/-- Drop one or more blanks from the front. -/
def dropBlanks? : List Char → Option (List Char)
  | [] => none
  | c :: rest => if isBlank c then some (trimStart rest) else none

/-- The first character of a block name: an ASCII letter or an underscore. -/
def isNameStart (c : Char) : Bool :=
  c.isAlpha || c == '_'

/-- A block name and what follows it. -/
def blockName? : List Char → Option (List Char × List Char)
  | [] => none
  | c :: rest =>
    if isNameStart c then some (c :: rest.takeWhile isWord, rest.dropWhile isWord) else none

/-- An opening line: the kind and name of the block, and the rest of the line after the brace. -/
structure Opener where
  kind : ElementKind
  name : List Char
  rest : List Char
deriving DecidableEq, Repr

/-- The block keyword at the front. -/
def keyword? (cs : List Char) : Option (ElementKind × List Char) :=
  match dropPrefix? "message".toList cs with
  | some rest => some (.message, rest)
  | none => (dropPrefix? "enum".toList cs).map (.enum, ·)

/-- Read a line as a block opener. -/
def opener? (line : List Char) : Option Opener := do
  let (kind, afterKeyword) ← keyword? (trimStart line)
  let (name, afterName) ← blockName? (← dropBlanks? afterKeyword)
  let rest ← dropPrefix? ['{'] (trimStart afterName)
  return ⟨kind, name, rest⟩

/-- A character of a package name. -/
def isPackageChar (c : Char) : Bool :=
  isWord c || c == '.'

/-- Read a line as a package line, giving the name. -/
def package? (line : List Char) : Option (List Char) := do
  let start ← dropBlanks? (← dropPrefix? "package".toList (trimStart line))
  let name := start.takeWhile isPackageChar
  if name.isEmpty then none
  else
    let _ ← dropPrefix? [';'] (trimStart (start.dropWhile isPackageChar))
    return name

end Gleaner.Schema
