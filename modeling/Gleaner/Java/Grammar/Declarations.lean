import Gleaner.Java.Grammar.Statements

/-!
# Declarations

Types and their members. Members share no common rule: what a body may
hold depends on the kind of its type. In an enum, everything from the semicolon after the constants on
is a node of its own.

Main definitions: `classBody`, `methodDeclaration`, `declaration` and `topLevel`.
-/

namespace Gleaner.Java.Grammar

open Gleaner.Syntax.Rule

/-- The exceptions of a method. -/
def throwsClause : Rule := .node "throws" (.seq [word "throws", commas1 (ref .type)])

/-- A method. -/
def methodDeclaration : Rule :=
  .node "method_declaration" (.seq [
    modifiers, optional (.seq [.role "type_parameters" typeParameters, annotations]),
    .role "type" memberType, .role "name" declaredName, .role "parameters" formalParameters,
    optional (.role "dimensions" dimensions), optional throwsClause,
    .alt [.role "body" (ref .block), word ";"]])

/-- The call of another constructor that may open a constructor. -/
def constructorInvocation : Rule :=
  .node "explicit_constructor_invocation" (.seq [
    .alt [
      .seq [optional (ref .typeArguments), .alt [thisLeaf, superLeaf]],
      .seq [primary, word ".", optional (ref .typeArguments), superLeaf]],
    argumentList, word ";"])

/-- A constructor. -/
def constructorDeclaration : Rule :=
  .node "constructor_declaration" (.seq [
    modifiers, optional (.role "type_parameters" typeParameters), .role "name" constructorName,
    .role "parameters" formalParameters, optional throwsClause,
    .role "body" (.node "constructor_body"
      (braces (.seq [optional constructorInvocation, .many (ref .statement)])))])

/-- A constructor of a record without parameters of its own. -/
def compactConstructor : Rule :=
  .node "compact_constructor_declaration"
    (.seq [modifiers, .role "name" constructorName, .role "body" (ref .block)])

/-! ## Types -/

/-- The interfaces of a class. -/
def superInterfaces : Rule := .node "super_interfaces" (.seq [word "implements", typeList])

/-- The subtypes that a sealed type allows. -/
def permits : Rule := .node "permits" (.seq [word "permits", typeList])

/-- A class. -/
def classDeclaration : Rule :=
  .node "class_declaration" (.seq [
    modifiers, word "class", .role "name" identifier,
    optional (.role "type_parameters" typeParameters),
    optional (.role "superclass" (.node "superclass" (.seq [word "extends", ref .type]))),
    optional (.role "interfaces" superInterfaces), optional (.role "permits" permits),
    .role "body" (ref .classBody)])

/-- A record. -/
def recordDeclaration : Rule :=
  .node "record_declaration" (.seq [
    modifiers, word "record", .role "name" identifier,
    optional (.role "type_parameters" typeParameters), .role "parameters" formalParameters,
    optional (.role "interfaces" superInterfaces), .role "body" (ref .classBody)])

/-- A constant of an enum. -/
def enumConstant : Rule :=
  .node "enum_constant" (.seq [
    modifiers, .role "name" (nameExcept modifierWords), optional (.role "arguments" argumentList),
    optional (.role "body" (ref .classBody))])

/-- A declaration of a type, from anywhere in the grammar. -/
def typeDeclaration : Rule := ref .declaration

/-- A member of a class. -/
def classMember : Rule := .alt [
  word ";",
  ref .block,
  .node "static_initializer" (.seq [word "static", ref .block]),
  typeDeclaration,
  methodDeclaration,
  constructorDeclaration,
  compactConstructor,
  variablesOf "field_declaration"]

/-- The body of a class. -/
def classBody : Rule := .node "class_body" (braces (.many classMember))

/-- An enum. -/
def enumDeclaration : Rule :=
  .node "enum_declaration" (.seq [
    modifiers, word "enum", .role "name" identifier, optional (.role "interfaces" superInterfaces),
    .role "body" (.node "enum_body" (braces (.seq [
      commas enumConstant, optional (word ","),
      optional (.node "enum_body_declarations" (.seq [word ";", .many classMember]))])))])

/-- An interface. -/
def interfaceDeclaration : Rule :=
  .node "interface_declaration" (.seq [
    modifiers, word "interface", .role "name" identifier,
    optional (.role "type_parameters" typeParameters),
    optional (.node "extends_interfaces" (.seq [word "extends", typeList])),
    optional (.role "permits" permits),
    .role "body" (.node "interface_body" (braces (.many (.alt [
      word ";", typeDeclaration, methodDeclaration, variablesOf "constant_declaration"]))))])

/-- An element of an annotation type. -/
def annotationElement : Rule :=
  .node "annotation_type_element_declaration" (.seq [
    modifiers, .role "type" memberType, .role "name" declaredName, word "(", word ")",
    optional (.role "dimensions" dimensions),
    optional (.seq [word "default", .role "value" (ref .elementValue)]), word ";"])

/-- An annotation type. -/
def annotationTypeDeclaration : Rule :=
  .node "annotation_type_declaration" (.seq [
    modifiers, word "@interface", .role "name" identifier,
    .role "body" (.node "annotation_type_body" (braces (.many (.alt [
      word ";", typeDeclaration, annotationElement, variablesOf "constant_declaration"]))))])

/-- A declaration of a type. -/
def declaration : Rule := .alt [
  classDeclaration,
  interfaceDeclaration,
  enumDeclaration,
  recordDeclaration,
  annotationTypeDeclaration]

/-- What a file consists of. A record is no method, though it has the form of one. -/
def topLevel : Rule := .alt [
  ref .declaration,
  .seq [.unless (.words statementWords), methodDeclaration],
  ref .statement]

end Gleaner.Java.Grammar
