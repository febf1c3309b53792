import Gleaner.Diagnostic
import Gleaner.Schema.Delimiter
import Gleaner.Schema.Opener
import Gleaner.Text.Lines

/-!
# Scanning a schema file

The scan reads a schema file line by line. While it seeks a block it collects the run of comment lines
that touches the current line, and the first package line; an opener starts a draft, which takes over
the comments as documentation. Inside a block only the brace depth counts. A block ends on the line
that brings the depth back to zero; a line that closes more than was open ends it too, as a problem.

`step` is a function of the state and one line, so a scan is a fold; `finish` reports a block that the
end of the file left open. Comments and literals do not reach over line ends, so a block comment over
several lines that holds braces upsets the depth.

Main definitions: `State`, `Step`, `step`, `finish`, `scanLines` and `scanText`.
-/

namespace Gleaner.Schema

open Gleaner.Text

/-- A comment line on its own, seen while seeking a block. -/
structure Comment where
  lineNumber : Int
  raw : String
  text : String
deriving DecidableEq, Repr

/-- A block whose end has not been reached. -/
structure Draft where
  kind : ElementKind
  name : String
  declarationLine : Int
  startLine : Int
  documentation : Option String
  package : Option String
  lines : List String
deriving DecidableEq, Repr

/-- The state between two lines. Without a draft the scan seeks a block. -/
structure State where
  filePath : Text
  fileName : Text
  depth : Int := 0
  pending : List Comment := []
  draft : Option Draft := none
  package : Option String := none
deriving DecidableEq, Repr

/-- The result of one line: the next state, and what the line completed or broke. -/
structure Step where
  state : State
  element : Option Element := none
  diagnostic : Option Diagnostic := none
deriving DecidableEq, Repr

/-- The state before the first line of a file. -/
def State.initial (filePath fileName : Text) : State :=
  { filePath, fileName }

/-- A block is open. -/
def State.inBlock (s : State) : Bool :=
  s.draft.isSome

/-- Seek the next block, the package kept. -/
def State.reset (s : State) : State :=
  { s with depth := 0, pending := [], draft := none }

/-- The marker of a comment line. -/
def commentMarker : List Char :=
  ['/', '/']

/-- The text of a comment line, if the line is one. -/
def commentText? (line : List Char) : Option (List Char) :=
  (dropPrefix? commentMarker (trim line)).map trim

/-- The documentation that a run of comments gives: their texts on lines of their own, trimmed, absent
if nothing remains. -/
def documentation? (comments : List Comment) : Option String :=
  let text := trimmed (join "\n" (comments.map (·.text)))
  if text.isEmpty then none else some text

/-- The element of a draft that ends on a given line. -/
def Draft.element (d : Draft) (s : State) (endLine : Int) : Element where
  name := d.name
  kind := d.kind
  declarationLine := d.declarationLine
  startLine := d.startLine
  endLine := endLine
  documentation := d.documentation
  context :=
    { filePath := s.filePath
      fileName := s.fileName
      snippet := joinLines d.lines
      package := d.package }

/-- The report of a block that closed more braces than it opened. -/
def Draft.overclosed (d : Draft) (s : State) (line : Int) : Diagnostic where
  filePath := s.filePath
  message :=
    s!"Mismatched braces in {d.kind.noun} '{d.name}' starting at line {d.startLine}; " ++
      "block discarded"
  kind := .unbalancedBlock
  line := some line

/-- The report of a block that is open at the end of the file. -/
def Draft.unclosed (d : Draft) (s : State) : Diagnostic where
  filePath := s.filePath
  message :=
    s!"Reached end of file with unclosed {d.kind.noun} '{d.name}' starting at line {d.startLine}"
  kind := .unterminatedBlock

/-- Go on with a draft at a new depth, which decides whether the block ends here. While it stays open,
nothing else changes. -/
def advance (s : State) (d : Draft) (depth : Int) (lineNumber : Int) : Except LineRangeError Step :=
  if depth = 0 then do
    let element ← (d.element s lineNumber).checked
    return { state := s.reset, element := some element }
  else if depth < 0 then
    return { state := s.reset, diagnostic := some (d.overclosed s lineNumber) }
  else
    return { state := { s with depth, draft := some d } }

/-- The draft that an opening line starts. -/
def State.openDraft (s : State) (o : Opener) (line : String) (lineNumber : Int) : Draft where
  kind := o.kind
  name := String.ofList o.name
  declarationLine := lineNumber
  startLine := lineNumber - s.pending.length
  documentation := documentation? s.pending
  package := s.package
  lines := s.pending.map (·.raw) ++ [line]

/-- Take the package from a line, unless one is known. -/
def State.notePackage (s : State) (line : String) : State :=
  match s.package with
  | some _ => s
  | none => { s with package := (package? (trim line.toList)).map String.ofList }

/-- One line while seeking a block. The comments before an opener are in its draft, and not pending any
more. -/
def seekLine (s : State) (line : String) (lineNumber : Int) : Except LineRangeError Step :=
  let s := s.notePackage line
  match commentText? line.toList with
  | some text =>
    let comment := ⟨lineNumber, line, String.ofList text⟩
    return { state := { s with pending := s.pending ++ [comment] } }
  | none =>
    match opener? line.toList with
    | some o =>
      advance { s with pending := [] } (s.openDraft o line lineNumber) (1 + braceBalance o.rest)
        lineNumber
    | none => return { state := { s with pending := [] } }

/-- One line inside a block. -/
def blockLine (s : State) (d : Draft) (line : String) (lineNumber : Int) :
    Except LineRangeError Step :=
  advance s { d with lines := d.lines ++ [line] } (s.depth + braceBalance line.toList) lineNumber

/-- One line of a schema file. It fails only when it ends a block on a line number before the block's
declaration, which numbers that count up never do. -/
def step (s : State) (line : String) (lineNumber : Int) : Except LineRangeError Step :=
  match s.draft with
  | some d => blockLine s d line lineNumber
  | none => seekLine s line lineNumber

/-- The report of a block that is still open after the last line. -/
def finish (s : State) : Option Diagnostic :=
  s.draft.map (·.unclosed s)

/-- Scan lines whose first has the given number, from a state on. -/
def scanFrom (s : State) (lineNumber : Int) : List String → Except LineRangeError FileResult
  | [] => return { diagnostics := (finish s).toList }
  | line :: rest => do
    let now ← step s line lineNumber
    let later ← scanFrom now.state (lineNumber + 1) rest
    return {
      elements := now.element.toList ++ later.elements
      diagnostics := now.diagnostic.toList ++ later.diagnostics }

/-- Scan all lines of a schema file. -/
def scanLines (filePath fileName : Text) (lines : List String) :
    Except LineRangeError FileResult :=
  scanFrom (.initial filePath fileName) 1 lines

/-- Scan the text of a schema file. -/
def scanText (filePath fileName : Text) (text : String) : Except LineRangeError FileResult :=
  scanLines filePath fileName (splitLines text)

end Gleaner.Schema
