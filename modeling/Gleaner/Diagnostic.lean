import Gleaner.Element

/-!
# Diagnostics

A diagnostic reports a failure that did not stop the run: a file that could not be read or parsed, a
block that is not balanced, a directory that could not be listed. A sink collects the diagnostics of
one run in the order in which they were recorded.
-/

namespace Gleaner

/-- The categories of recoverable failures. -/
inductive DiagnosticKind where
  | syntaxError
  | runtimeError
  | unbalancedBlock
  | unterminatedBlock
  | readError
  | traversalError
deriving DecidableEq, Repr

/-- The written name of a category. -/
def DiagnosticKind.name : DiagnosticKind → String
  | .syntaxError => "syntax_error"
  | .runtimeError => "runtime_error"
  | .unbalancedBlock => "unbalanced_block"
  | .unterminatedBlock => "unterminated_block"
  | .readError => "read_error"
  | .traversalError => "traversal_error"

/-- The category with a given written name. -/
def DiagnosticKind.ofName? (name : Text) : Option DiagnosticKind :=
  [.syntaxError, .runtimeError, .unbalancedBlock, .unterminatedBlock, .readError,
    .traversalError].find? (·.name = name)

/-- Why a written category name is refused. -/
def DiagnosticKind.unknownMessage (name : Text) : String :=
  Text.quoted name ++ " is not a valid DiagnosticKind"

/-- One report, with the line it is about if there is one. -/
structure Diagnostic where
  filePath : Text
  message : String
  kind : DiagnosticKind
  line : Option Int := none
deriving DecidableEq, Repr

/-- A report as one line of the error log. -/
def Diagnostic.render (d : Diagnostic) : Text :=
  match d.line with
  | some line => s!"ERROR: {d.message} (line {line}): " ++ d.filePath
  | none => s!"ERROR: {d.message}: " ++ d.filePath

/-- The diagnostics of a run, oldest first. -/
structure Sink where
  entries : List Diagnostic := []
deriving DecidableEq, Repr

/-- Add one diagnostic at the end. -/
def Sink.record (sink : Sink) (d : Diagnostic) : Sink :=
  ⟨sink.entries ++ [d]⟩

/-- Add diagnostics at the end, in order. -/
def Sink.extend (sink : Sink) (ds : List Diagnostic) : Sink :=
  ds.foldl Sink.record sink

/-- The lines of the error log. -/
def Sink.lines (sink : Sink) : List Text :=
  sink.entries.map Diagnostic.render

/-- The number of diagnostics recorded. -/
def Sink.size (sink : Sink) : Nat :=
  sink.entries.length

/-- What one source file yields: its elements, its diagnostics, and whether the whole file was
given up. -/
structure FileResult where
  elements : List Element := []
  diagnostics : List Diagnostic := []
  failed : Bool := false
deriving DecidableEq, Repr

end Gleaner
