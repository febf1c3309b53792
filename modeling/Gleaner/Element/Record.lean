import Gleaner.Data.Value
import Gleaner.Element

/-!
# Elements as records

The written form of an element: a map with its fields in a fixed order, in which absent fields are left
out.
-/

namespace Gleaner

/-- A field that is always there. -/
def requiredField (name : String) (value : Value) : List (Value × Value) :=
  [(.text name, value)]

/-- A field that is left out when absent. -/
def optionalField (name : String) : Option Text → List (Value × Value)
  | none => []
  | some s => [(.text name, .text s)]

/-- The fields of a context. -/
def Context.entries (c : Context Text) : List (Value × Value) :=
  requiredField "file_path" (.text c.filePath)
    ++ requiredField "file_name" (.text c.fileName)
    ++ requiredField "snippet" (.text c.snippet)
    ++ optionalField "module" c.package
    ++ optionalField "enclosing_type_name" c.enclosingType

/-- The fields of an element. -/
def Element.entries (e : Element Text) : List (Value × Value) :=
  requiredField "name" (.text e.name)
    ++ requiredField "kind" (.text e.kind.name)
    ++ optionalField "signature" e.signature
    ++ optionalField "documentation" e.documentation
    ++ requiredField "declaration_line" (.int e.declarationLine)
    ++ requiredField "start_line" (.int e.startLine)
    ++ requiredField "end_line" (.int e.endLine)
    ++ requiredField "context" (.map e.context.entries)

/-- An element as a record. -/
def Element.toValue (e : Element Text) : Value :=
  .map e.entries

/-- A context with its strings as texts. -/
def Context.texts (c : Context) : Context Text where
  filePath := c.filePath
  fileName := c.fileName
  snippet := c.snippet
  package := c.package.map Text.ofString
  enclosingType := c.enclosingType.map Text.ofString

/-- An element with its strings as texts. -/
def Element.texts (e : Element) : Element Text where
  name := e.name
  kind := e.kind
  declarationLine := e.declarationLine
  startLine := e.startLine
  endLine := e.endLine
  context := e.context.texts
  signature := e.signature.map Text.ofString
  documentation := e.documentation.map Text.ofString

end Gleaner
