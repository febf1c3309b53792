import Gleaner.Text.Utf16
import Gleaner.Text.Utf8
import Gleaner.Yaml.Cursor
import Gleaner.Yaml.Token

/-!
# Tags, anchors and directives

Scanning of what may stand before a node, and of the directives before a document.
-/

namespace Gleaner.Yaml

/-- The characters of a tag. -/
def isTagChar (c : Char) : Bool :=
  c.isAlphanum || ['-', ';', '/', '?', ':', '@', '&', '=', '+', '$', ',', '_', '.', '!', '~', '*', '\'',
    '(', ')', '[', ']', '%'].contains c

/-- The bytes of escapes from here on. -/
def escapedBytes? : (fuel : Nat) → List Char → Option (Utf8.Bytes × List Char)
  | 0, cs => some ([], cs)
  | fuel + 1, cs =>
    match cs with
    | '%' :: rest =>
      match rest with
      | a :: b :: rest => do
        let byte := UInt8.ofNat ((← Utf16.hexValue? a) * 16 + (← Utf16.hexValue? b))
        let (bytes, rest) ← escapedBytes? fuel rest
        return (byte :: bytes, rest)
      | _ => none
    | _ => some ([], cs)

/-- The text of a tag in which a percent sign escapes bytes, and the place after it. -/
def tagText : (fuel : Nat) → (text : List Char) → Cursor → Except Fault (List Char × Cursor)
  | 0, _, _ => .error .malformed
  | fuel + 1, text, c =>
    match c.peek with
    | some ch =>
      if ch = '%' then
        match escapedBytes? c.rest.length c.rest with
        | none => .error .malformed
        | some (bytes, rest) =>
          match Utf8.decode bytes with
          | .error _ => .error .malformed
          | .ok s => tagText fuel (text ++ s.toList) (c.skip (c.rest.length - rest.length))
      else if isTagChar ch then tagText fuel (text ++ [ch]) c.next
      else if text.isEmpty then .error .malformed
      else .ok (text, c)
    | none => if text.isEmpty then .error .malformed else .ok (text, c)

/-- A handle: an exclamation mark alone, or a name between two of them. -/
def tagHandle (c : Cursor) : Except Fault (List Char × Cursor) :=
  if c.peek ≠ some '!' then .error .malformed
  else
    let after := c.next
    if after.peek = some ' ' then .ok (['!'], after)
    else
      let name := after.run isNameChar
      let last := after.skip name.length
      if last.peek = some '!' then .ok ('!' :: name ++ ['!'], last.next) else .error .malformed

/-- Scan a tag from its exclamation mark on. -/
def scanTag (c : Cursor) : Except Fault (TagName × Cursor) := do
  let (name, c) ←
    if c.peekAt 1 = some '<' then do
      let (text, c) ← tagText (c.rest.length + 1) [] (c.skip 2)
      if c.peek ≠ some '>' then .error .malformed
      else pure ((⟨none, String.ofList text⟩ : TagName), c.next)
    else if endsWord (c.peekAt 1) then pure (⟨none, "!"⟩, c.next)
    else do
      let word := (c.rest.drop 1).takeWhile fun ch => !endsPart (some ch)
      let (handle, c) ← if word.contains '!' then tagHandle c else pure (['!'], c.next)
      let (text, c) ← tagText (c.rest.length + 1) [] c
      pure (⟨some (String.ofList handle), String.ofList text⟩, c)
  if endsPart c.peek then return (name, c) else .error .malformed

/-- Scan the name of an anchor or an alias from its mark on. -/
def scanAnchor (c : Cursor) : Except Fault (String × Cursor) :=
  let c := c.next
  let name := c.run isNameChar
  let c := c.skip name.length
  let closers := ['?', ':', ',', ']', '\x7d', '%', '@', '\x60']
  if name.isEmpty || !(endsWord c.peek || c.peek.any closers.contains) then .error .malformed
  else .ok (String.ofList name, c)

/-- A decimal number, and the place after it. -/
def scanDecimal (c : Cursor) : Except Fault (Nat × Cursor) :=
  let digits := c.run Char.isDigit
  if digits.isEmpty then .error .malformed
  else .ok (digits.foldl (fun n d => n * 10 + (d.toNat - '0'.toNat)) 0, c.skip digits.length)

/-- Scan a directive from its percent sign on, to the end of its line. -/
def scanDirective (c : Cursor) : Except Fault (Directive × Cursor) := do
  let c := c.next
  let name := String.ofList (c.run isNameChar)
  let c := c.skip name.length
  if name.isEmpty || !endsPart c.peek then .error .malformed
  else if name = "YAML" then do
    let (major, c) ← scanDecimal c.skipBlanks
    if c.peek ≠ some '.' then .error .malformed
    else
      let (_, c) ← scanDecimal c.next
      if !endsPart c.peek then .error .malformed
      else return (.version major, ← c.commentLine)
  else if name = "TAG" then do
    let (handle, c) ← tagHandle c.skipBlanks
    if c.peek ≠ some ' ' then .error .malformed
    else
      let c := c.skipBlanks
      let (text, c) ← tagText (c.rest.length + 1) [] c
      if !endsPart c.peek then .error .malformed
      else return (.tag (String.ofList handle) (String.ofList text), ← c.commentLine)
  else return (.other, ← c.skipLine.commentLine)

end Gleaner.Yaml
