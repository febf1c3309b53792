import Gleaner.Java.Grammar.Basic

/-!
# Types and annotations

A bare type has no annotation in front; annotations before a declaration's type belong to its
modifiers. Dimensions after a type make it an array type.
-/

namespace Gleaner.Java.Grammar

open Gleaner.Syntax.Rule

/-- Any number of annotations. -/
def annotations : Rule := .many (ref .annotationUse)

/-- A name that stands for a type. -/
def typeName : Rule := .name "type_identifier" expressionWords

/-- A name that stands for a type in the scope before it. -/
def innerTypeName : Rule := .name "type_identifier" ["class", "new", "super", "this"]

/-- The types that are keywords. -/
def primitiveType : Rule := .alt [
  .leaf "void_type" ["void"],
  .leaf "integral_type" ["byte", "short", "int", "long", "char"],
  .leaf "floating_point_type" ["float", "double"],
  .leaf "boolean_type" ["boolean"]]

/-- A named type, with scopes and type arguments. -/
def namedType : Rule :=
  .chain typeName [
    ("scoped_type_identifier", [], .seq [word ".", annotations, innerTypeName]),
    ("generic_type", ["type_identifier", "scoped_type_identifier"], ref .typeArguments)]

/-- A type that is no array. -/
def simpleType : Rule := .alt [primitiveType, namedType]

/-- Empty brackets. -/
def dimensions : Rule :=
  .node "dimensions" (many1 (.seq [annotations, word "[", word "]"]))

/-- A type without annotations in front. -/
def bareType : Rule := .chain simpleType [("array_type", [], dimensions)]

/-- The type of a member or variable, which a declaration of a type goes before. -/
def memberType : Rule := .seq [.unless (.words declarationWords), ref .bareType]

/-- A type, annotated or not. -/
def type : Rule := .alt [
  .node "annotated_type" (.seq [ref .annotationUse, annotations, ref .bareType]),
  ref .bareType]

/-- A type argument that stands for some type. -/
def wildcard : Rule :=
  .node "wildcard" (.seq [annotations, word "?", optional (.alt [
    .seq [word "extends", ref .type],
    .seq [superLeaf, ref .type]])])

/-- Type arguments, which may be left empty. -/
def typeArguments : Rule :=
  .node "type_arguments"
    (.seq [word "<", commas (.alt [wildcard, ref .type]), .closeAngle])

/-- A type parameter with its bounds. -/
def typeParameter : Rule :=
  .node "type_parameter" (.seq [annotations, .name "type_identifier" [], optional (.node "type_bound"
    (.seq [word "extends", separated1 "&" (ref .type)]))])

/-- Type parameters. -/
def typeParameters : Rule :=
  .node "type_parameters" (.seq [word "<", commas1 typeParameter, .closeAngle])

/-- Types with commas between. -/
def typeList : Rule := .node "type_list" (commas1 (ref .type))

/-! ## Annotations -/

/-- A named argument of an annotation. -/
def elementValuePair : Rule :=
  .node "element_value_pair" (.seq [.role "key" variableName, word "=", .role "value" (ref .elementValue)])

/-- Several values of an annotation argument. -/
def elementValueArray : Rule :=
  .node "element_value_array_initializer"
    (braces (.seq [commas (ref .elementValue), optional (word ",")]))

/-- The value of an annotation argument. -/
def elementValue : Rule := .alt [elementValueArray, ref .annotationUse, ref .expression]

/-- The arguments of an annotation: named ones, or one value. -/
def annotationArguments : Rule :=
  .node "annotation_argument_list"
    (parens (.alt [commas1 elementValuePair, ref .elementValue, .seq []]))

/-- An annotation, with or without arguments. -/
def annotationUse : Rule := .alt [
  .node "annotation"
    (.seq [word "@", .role "name" qualifiedName, .role "arguments" annotationArguments]),
  .node "marker_annotation" (.seq [word "@", .role "name" qualifiedName])]

/-- The modifiers of a declaration, if it has any. -/
def modifiers : Rule :=
  optional (.node "modifiers" (many1 (.alt [
    ref .annotationUse,
    .words ("sealed" :: modifierWords),
    .seq [word "non", word "-", word "sealed"]])))

end Gleaner.Java.Grammar
