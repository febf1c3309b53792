import Gleaner.Yaml.Block
import Gleaner.Yaml.Quoted
import Gleaner.Yaml.Tag

/-!
# From text to tokens

Scanning goes token by token. Indentation opens and closes blocks, so the scanner keeps the columns of
the blocks around it. A key without a mark in front is known as a key only when its colon comes; until
then its place is kept, one for each level of brackets, and the marks are put there afterwards. Such a
key has to stay on one line and within 1024 characters.

Main definitions: `Scanner`, `fetch` and `tokens`.
-/

namespace Gleaner.Yaml

/-- A place that may turn out to be the start of a key. -/
structure KeyPlace where
  /-- The number of tokens before it. -/
  number : Nat
  /-- Whether it has to be a key, because it starts a line of the block. -/
  required : Bool
  cursor : Cursor

/-- The state of scanning. -/
structure Scanner where
  cursor : Cursor
  /-- The tokens so far, last first. -/
  found : List Token := []
  /-- The number of brackets around. -/
  flow : Nat := 0
  /-- The columns of the blocks around, innermost first. -/
  columns : List Nat := []
  /-- Whether a key may start here. -/
  keyAllowed : Bool := true
  /-- The places of possible keys by the number of brackets around them. -/
  places : List (Nat × KeyPlace) := []

namespace Scanner

/-- Add a token. -/
def push (s : Scanner) (t : Token) : Scanner :=
  { s with found := t :: s.found }

/-- Put a token before those that came after the first `number` ones. -/
def insertAt (s : Scanner) (number : Nat) (t : Token) : Scanner :=
  let later := s.found.length - number
  { s with found := s.found.take later ++ t :: s.found.drop later }

/-- Close the blocks that are deeper than a test allows. -/
def unwind (s : Scanner) (deeper : Nat → Bool) : Scanner :=
  if s.flow = 0 then
    let closed := (s.columns.takeWhile deeper).length
    { s with
      columns := s.columns.drop closed
      found := List.replicate closed .blockEnd ++ s.found }
  else s

/-- Close all blocks. -/
def unwindAll (s : Scanner) : Scanner :=
  s.unwind fun _ => true

/-- Whether a column is deeper than the innermost block. -/
def isDeeper (s : Scanner) (column : Nat) : Bool :=
  s.columns.head?.all (· < column)

/-- Open a block at a column. -/
def openBlock (s : Scanner) (column : Nat) : Scanner :=
  { s with columns := column :: s.columns }

/-- Forget the possible key at this level; one that has to be a key is a fault. -/
def dropPlace (s : Scanner) : Except Fault Scanner :=
  if (s.places.lookup s.flow).any (·.required) then .error .malformed
  else .ok { s with places := s.places.filter (·.1 ≠ s.flow) }

/-- Forget the possible keys that have become too long. -/
def dropStale (s : Scanner) : Except Fault Scanner :=
  let isStale (place : KeyPlace) : Bool :=
    place.cursor.line ≠ s.cursor.line || s.cursor.index - place.cursor.index > 1024
  if s.places.any fun (_, place) => isStale place && place.required then .error .malformed
  else .ok { s with places := s.places.filter fun (_, place) => !isStale place }

/-- Keep this place as a possible key. -/
def savePlace (s : Scanner) : Except Fault Scanner :=
  if s.keyAllowed then do
    let required := s.flow = 0 && s.columns.head? = some s.cursor.column
    let s ← s.dropPlace
    return { s with places := (s.flow, ⟨s.found.length, required, s.cursor⟩) :: s.places }
  else .ok s

/-- Pass blanks, comments and line ends. After a line end a key may start, unless inside brackets. -/
def skipGap : (fuel : Nat) → Scanner → Scanner
  | 0, s => s
  | fuel + 1, s =>
    let c := s.cursor.skipBlanks
    let c := if c.peek = some '#' then c.skipLine else c
    match c.lineBreak? with
    | none => { s with cursor := c }
    | some (_, c) => skipGap fuel { s with cursor := c, keyAllowed := s.keyAllowed || s.flow = 0 }

/-- A token of some characters, after which a key may start or not. -/
def mark (s : Scanner) (width : Nat) (t : Token) (keyAllowed : Bool) : Scanner :=
  { s with cursor := s.cursor.skip width, keyAllowed }.push t

/-- A mark between documents. -/
def documentMark (s : Scanner) (t : Token) : Except Fault Scanner := do
  return (← s.unwindAll.dropPlace).mark 3 t false

/-- A directive. -/
def directive (s : Scanner) : Except Fault Scanner := do
  let s ← s.unwindAll.dropPlace
  let (d, cursor) ← scanDirective s.cursor
  return { s with cursor, keyAllowed := false }.push (.directive d)

/-- An opening bracket. -/
def openFlow (s : Scanner) (t : Token) : Except Fault Scanner := do
  let s ← s.savePlace
  return { s with flow := s.flow + 1 }.mark 1 t true

/-- A closing bracket. -/
def closeFlow (s : Scanner) (t : Token) : Except Fault Scanner := do
  let s ← s.dropPlace
  return { s with flow := s.flow - 1 }.mark 1 t false

/-- A comma. -/
def flowEntry (s : Scanner) : Except Fault Scanner := do
  return (← s.dropPlace).mark 1 .flowEntry true

/-- A dash before an item. -/
def blockEntry (s : Scanner) : Except Fault Scanner := do
  if s.flow = 0 && !s.keyAllowed then .error .malformed
  else
    let column := s.cursor.column
    let s := if s.flow = 0 && s.isDeeper column then (s.openBlock column).push .blockSequenceStart else s
    return (← s.dropPlace).mark 1 .blockEntry true

/-- Open a block of keys and values here if it is deeper than the block around. -/
def openMapping (s : Scanner) : Scanner :=
  let column := s.cursor.column
  if s.flow = 0 && s.isDeeper column then (s.openBlock column).push .blockMappingStart else s

/-- A question mark before a key. -/
def keyMark (s : Scanner) : Except Fault Scanner := do
  if s.flow = 0 && !s.keyAllowed then .error .malformed
  else return (← s.openMapping.dropPlace).mark 1 .key (s.flow = 0)

/-- A colon before a value. If a possible key stands before it, that is a key now. -/
def valueMark (s : Scanner) : Except Fault Scanner := do
  match s.places.lookup s.flow with
  | some place =>
    let column := place.cursor.column
    let opens := s.flow = 0 && s.isDeeper column
    let s := s.insertAt place.number .key
    let s := if opens then (s.openBlock column).insertAt place.number .blockMappingStart else s
    return { s with places := s.places.filter (·.1 ≠ s.flow) }.mark 1 .value false
  | none =>
    if s.flow = 0 && !s.keyAllowed then .error .malformed
    else return (← s.openMapping.dropPlace).mark 1 .value (s.flow = 0)

/-- A token that may be a key, with the place after it. -/
def keyToken (s : Scanner) (scan : Cursor → Except Fault (Token × Cursor)) : Except Fault Scanner := do
  let s ← s.savePlace
  let (t, cursor) ← scan s.cursor
  return { s with cursor, keyAllowed := false }.push t

/-- A quoted scalar. -/
def quoted (s : Scanner) (double : Bool) : Except Fault Scanner :=
  s.keyToken fun c => do
    let (text, c) ← quotedScalar double (c.rest.length + 1) [] c.next
    return (.scalar (.ofList text) false, c)

/-- A block scalar. -/
def block (s : Scanner) (folded : Bool) : Except Fault Scanner := do
  let s ← s.dropPlace
  let least := max 1 ((s.columns.head?.map (· + 1)).getD 0)
  let (text, cursor) ← blockScalar folded least s.cursor.next
  return { s with cursor, keyAllowed := true }.push (.scalar (String.ofList text) false)

/-- A plain scalar. -/
def plain (s : Scanner) : Except Fault Scanner := do
  let s ← s.savePlace
  let column := (s.columns.head?.map (· + 1)).getD 0
  let p := plainScalar (s.flow ≠ 0) column (s.cursor.rest.length + 1) ⟨[], s.cursor, false⟩ []
  return { s with cursor := p.cursor, keyAllowed := p.newLine }.push (.scalar (String.ofList p.text) true)

/-- The next token, from its first character on. -/
def token (s : Scanner) (ch : Char) : Except Fault Scanner :=
  let c := s.cursor
  let inFlow := s.flow ≠ 0
  let wordEnds := endsWord (c.peekAt 1)
  if ch = '%' && c.column = 0 then s.directive
  else if c.column = 0 && c.atDocumentMark then
    s.documentMark (if ch = '-' then .documentStart else .documentEnd)
  else if ch = '[' then s.openFlow .flowSequenceStart
  else if ch = '\x7b' then s.openFlow .flowMappingStart
  else if ch = ']' then s.closeFlow .flowSequenceEnd
  else if ch = '\x7d' then s.closeFlow .flowMappingEnd
  else if ch = ',' then s.flowEntry
  else if ch = '-' && wordEnds then s.blockEntry
  else if ch = '?' && (inFlow || wordEnds) then s.keyMark
  else if ch = ':' && (inFlow || wordEnds) then s.valueMark
  else if ch = '*' then s.keyToken fun c => do
    let (name, c) ← scanAnchor c
    return (.alias name, c)
  else if ch = '&' then s.keyToken fun c => do
    let (name, c) ← scanAnchor c
    return (.anchor name, c)
  else if ch = '!' then s.keyToken fun c => do
    let (name, c) ← scanTag c
    return (.tag name, c)
  else if ch = '|' && !inFlow then s.block false
  else if ch = '>' && !inFlow then s.block true
  else if ch = '\'' then s.quoted false
  else if ch = '"' then s.quoted true
  else if startsPlain inFlow c then s.plain
  else .error .malformed

/-- Scan to the end of the text. -/
def run : (fuel : Nat) → Scanner → Except Fault (List Token)
  | 0, _ => .error .malformed
  | fuel + 1, s => do
    let s ← (s.skipGap (s.cursor.rest.length + 1)).dropStale
    let s := s.unwind (s.cursor.column < ·)
    match s.cursor.peek with
    | none => return (.streamEnd :: (← s.unwindAll.dropPlace).found).reverse
    | some ch => run fuel (← s.token ch)

end Scanner

/-- The tokens of a text. A byte order mark at its start is passed. -/
def tokens (text : List Char) : Except Fault (List Token) :=
  if text.all isPrintable then
    let cursor : Cursor := { rest := text }
    let cursor := if cursor.peek = some '\ufeff' then cursor.next else cursor
    Scanner.run (text.length + 2) { cursor }
  else .error .malformed

end Gleaner.Yaml
