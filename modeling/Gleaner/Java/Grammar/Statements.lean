import Gleaner.Java.Grammar.Expressions
import Gleaner.Java.Grammar.Packages

/-!
# Statements

Declarations are statements too, so they may stand anywhere a statement may. A local declaration is
tried before an expression: two names in a row can only be a type and a variable.
-/

namespace Gleaner.Java.Grammar

open Gleaner.Syntax.Rule

/-- Statements between braces. -/
def block : Rule := .node "block" (braces (.many (ref .statement)))

/-- Variables with commas between. -/
def variableDeclarators : Rule := commas1 (.role "declarator" variableDeclarator)

/-- The declaration of variables of one type; fields and constants have the same form. -/
def variablesOf (kind : String) : Rule :=
  .node kind (.seq [modifiers, .role "type" memberType, variableDeclarators, word ";"])

/-- The declaration of local variables. -/
def localVariables : Rule := variablesOf "local_variable_declaration"

/-- A statement that jumps, perhaps to a label. -/
def jump (kind text : String) : Rule :=
  .node kind (.seq [word text, optional identifier, word ";"])

/-- A condition, then the statement that depends on it. -/
def ifStatement : Rule :=
  .node "if_statement" (.seq [
    word "if", .role "condition" parenthesized, .role "consequence" (ref .statement),
    .alt [
      .seq [word "else", .role "alternative" (ref .statement)],
      .unless (word "else")]])

/-- A loop over the items of something. -/
def enhancedFor : Rule :=
  .node "enhanced_for_statement" (.seq [
    word "for", word "(", modifiers, .role "type" (ref .bareType), declaratorName, word ":",
    .role "value" (ref .expression), word ")", .role "body" (ref .statement)])

/-- A loop with a start, a condition and an update. -/
def basicFor : Rule :=
  .node "for_statement" (.seq [
    word "for", word "(",
    .alt [.role "init" localVariables, .seq [commas (.role "init" (ref .expression)), word ";"]],
    optional (.role "condition" (ref .expression)), word ";",
    commas (.role "update" (ref .expression)), word ")", .role "body" (ref .statement)])

/-- The handling of an exception. -/
def catchClause : Rule :=
  .node "catch_clause" (.seq [
    word "catch",
    parens (.node "catch_formal_parameter" (.seq [
      modifiers, .node "catch_type" (separated1 "|" (ref .bareType)), declaratorName])),
    .role "body" (ref .block)])

/-- What is done in any case. -/
def finallyClause : Rule := .node "finally_clause" (.seq [word "finally", ref .block])

/-- The end of a statement with handlers. -/
def lastClause : Rule := .alt [finallyClause, .unless (.words ["catch", "finally"])]

/-- A resource that is closed at the end. -/
def resource : Rule :=
  .node "resource" (.alt [
    .seq [modifiers, .role "type" (ref .bareType), declaratorName, word "=",
      .role "value" (ref .expression)],
    .chain (.alt [variableName, thisLeaf]) [("field_access", [], .seq [word ".", memberName])]])

/-- A block with resources and handlers. -/
def tryWithResources : Rule :=
  .node "try_with_resources_statement" (.seq [
    word "try",
    .role "resources" (.node "resource_specification"
      (parens (.seq [separated1 ";" resource, optional (word ";")]))),
    .role "body" (ref .block), .many catchClause, lastClause])

/-- A block with at least one handler. -/
def tryStatement : Rule :=
  .node "try_statement" (.seq [
    word "try", .role "body" (ref .block),
    .alt [.seq [many1 catchClause, lastClause], finallyClause]])

/-- A statement. -/
def statement : Rule := .alt [
  ref .block,
  word ";",
  ifStatement,
  .node "while_statement" (.seq [
    word "while", .role "condition" parenthesized, .role "body" (ref .statement)]),
  enhancedFor,
  basicFor,
  .node "do_statement" (.seq [
    word "do", .role "body" (ref .statement), word "while", .role "condition" parenthesized,
    word ";"]),
  .node "return_statement" (.seq [word "return", optional (ref .expression), word ";"]),
  throwStatement,
  jump "break_statement" "break",
  jump "continue_statement" "continue",
  .node "yield_statement" (.seq [word "yield", ref .expression, word ";"]),
  .node "assert_statement" (.seq [
    word "assert", ref .expression, optional (.seq [word ":", ref .expression]), word ";"]),
  .node "synchronized_statement" (.seq [
    word "synchronized", parenthesized, .role "body" (ref .block)]),
  tryWithResources,
  tryStatement,
  switchExpression,
  ref .declaration,
  importDeclaration,
  packageDeclaration,
  moduleDeclaration,
  .seq [.unless (.words statementWords), .alt [
    localVariables,
    .seq [.unless (.words modifierWords), .alt [
      .node "labeled_statement" (.seq [variableName, word ":", ref .statement]),
      expressionStatement]]]]]

end Gleaner.Java.Grammar
