import Gleaner.Syntax.Node
import Gleaner.Text.Blank

/-!
# Method signatures

The signature of a method or constructor is its name and the types of its parameters, without
modifiers, annotations and parameter names. Blank runs inside a type become one blank. A variadic
parameter shows its type followed by three dots; receiver parameters and comments do not count.
-/

namespace Gleaner.Java

open Gleaner.Syntax
open Gleaner.Utf8 (Bytes)

/-- The kinds of comment nodes. -/
def isCommentKind (kind : String) : Bool :=
  ["block_comment", "line_comment", "comment"].contains kind

/-- The children of a variadic parameter that are not its type. -/
def isBesideType (kind : String) : Bool :=
  ["modifiers", "variable_declarator", "annotation", "marker_annotation"].contains kind ||
    isCommentKind kind

/-- The text of a parameter's type, if the node is a parameter that has one. -/
def parameterType (source : Bytes) (parameter : Node) : Except Utf8.Malformed (Option String) :=
  if parameter.kind = "formal_parameter" then
    match parameter.childByRole? "type" with
    | none => return none
    | some type => do
      let text ← type.text source
      match parameter.childByRole? "dimensions" with
      | none => return some text
      | some dimensions => return some (text ++ (← dimensions.text source))
  else if parameter.kind = "spread_parameter" then
    match parameter.namedChildren.find? (!isBesideType ·.kind) with
    | none => return none
    | some type => return some ((← type.text source) ++ "...")
  else return none

/-- A type in one line. -/
def oneLine (text : String) : String :=
  String.ofList (Text.trim (Text.collapse text.toList))

/-- The types shown for a list of parameter nodes. -/
def parameterTypes (source : Bytes) : List Node → Except Utf8.Malformed (List String)
  | [] => return []
  | parameter :: rest => do
    let type ← parameterType source parameter
    let types ← parameterTypes source rest
    match type with
    | none => return types
    | some text => return if text.isEmpty then types else oneLine text :: types

/-- The signature of a declaration, absent if it has no name. -/
def signature? (source : Bytes) (declaration : Node) : Except Utf8.Malformed (Option String) :=
  match declaration.childByRole? "name" with
  | none => return none
  | some name => do
    let types ← match declaration.childByRole? "parameters" with
      | none => pure []
      | some parameters => parameterTypes source parameters.namedChildren
    return some ((← name.text source) ++ "(" ++ Text.join ", " types ++ ")")

end Gleaner.Java
