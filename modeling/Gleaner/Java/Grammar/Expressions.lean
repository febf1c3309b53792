import Gleaner.Java.Grammar.Types

/-!
# Expressions

Binary operators are chains, one for each level of precedence, so that operators of one level lean to
the left. A lambda stands only where a whole expression may stand; labels of a switch, which an arrow
ends as well, take expressions without one.

Main definitions: `primary`, `unary`, `expression` and `labelExpression`.
-/

namespace Gleaner.Java.Grammar

open Gleaner.Syntax.Rule

/-- The arguments of a call. -/
def argumentList : Rule := .node "argument_list" (parens (commas (ref .expression)))

/-- What opens a parenthesis that is no list of parameters. -/
def openParen : Rule := .seq [word "(", .unless (.words modifierWords)]

/-- An expression between parentheses. -/
def parenthesized : Rule :=
  .node "parenthesized_expression" (.seq [openParen, ref .expression, word ")"])

/-- The values of an array. -/
def arrayInitializer : Rule :=
  .node "array_initializer" (braces (.seq [commas (ref .initializer), optional (word ",")]))

/-- What a variable may start as. -/
def initializer : Rule := .alt [arrayInitializer, ref .expression]

/-- The creation of an array. -/
def arrayCreation : Rule :=
  .node "array_creation_expression" (.seq [
    word "new", annotations, .role "type" simpleType,
    .alt [
      .seq [
        many1 (.node "dimensions_expr" (.seq [annotations, word "[", ref .expression, word "]"])),
        optional dimensions],
      .seq [dimensions, .role "value" arrayInitializer]]])

/-- The creation of an object, from the word `new` on. -/
def creation : Rule :=
  .seq [
    word "new", annotations, optional (.seq [ref .typeArguments, annotations]),
    .role "type" simpleType, .role "arguments" argumentList, optional (ref .classBody)]

/-- A type that is followed by a reference to one of its methods or by its class. -/
def typeOperand : Rule := .alt [
  .node "method_reference" (.seq [
    ref .type, word "::", optional (ref .typeArguments), .alt [word "new", nameExcept ["new"]]]),
  .node "class_literal" (.seq [ref .bareType, word ".", word "class"])]

/-- The operands that a primary expression starts with. -/
def operand : Rule := .alt [
  .literal,
  .leaf "true" ["true"],
  .leaf "false" ["false"],
  .leaf "null_literal" ["null"],
  thisLeaf,
  .seq [superLeaf, .ahead (.words [".", "::"])],
  parenthesized,
  arrayCreation,
  .node "object_creation_expression" creation,
  typeOperand,
  .node "method_invocation" (.seq [.role "name" variableName, .role "arguments" argumentList]),
  variableName]

/-- An operand and what may follow it: calls, fields, elements and references. -/
def primary : Rule :=
  .chain operand [
    ("class_literal", ["identifier", "field_access"], .seq [word ".", word "class"]),
    ("method_invocation", [], .seq [
      word ".", optional (.seq [superLeaf, word "."]), optional (ref .typeArguments),
      .role "name" memberName, .role "arguments" argumentList]),
    ("field_access", [], .seq [
      word ".", optional (.seq [superLeaf, word "."]), .role "field" (.alt [memberName, thisLeaf])]),
    ("array_access", [], .seq [word "[", .role "index" (ref .expression), word "]"]),
    ("method_reference", [], .seq [
      word "::", optional (ref .typeArguments), .alt [word "new", nameExcept ["new"]]]),
    ("object_creation_expression", [], .seq [word ".", creation]),
    ("template_expression", [], .seq [word ".", .literal])]

/-- The operators that assign. -/
def assignmentOperators : List String :=
  ["=", "+=", "-=", "*=", "/=", "&=", "|=", "^=", "%=", "<<=", ">>=", ">>>="]

/-- A primary expression that may be counted up or down, or assigned to. -/
def postfixed : Rule :=
  .chain primary [
    ("update_expression", [], .words ["++", "--"]),
    ("assignment_expression", ["identifier", "field_access", "array_access"], .seq [
      .words assignmentOperators, .role "right" (ref .expression)])]

/-- The name of a variable, perhaps with brackets. -/
def declaratorName : Rule :=
  .seq [.role "name" declaredName, optional (.role "dimensions" dimensions)]

/-- A variable with its first value. -/
def variableDeclarator : Rule :=
  .node "variable_declarator"
    (.seq [declaratorName, optional (.seq [word "=", .role "value" (ref .initializer)])])

/-- The parameter that names the object itself. -/
def receiverParameter : Rule :=
  .node "receiver_parameter"
    (.seq [annotations, ref .bareType, .many (.seq [declaredName, word "."]), thisLeaf])

/-- A parameter, variadic or not. -/
def parameter : Rule := .alt [
  .node "formal_parameter" (.seq [modifiers, .role "type" (ref .bareType), declaratorName]),
  .node "spread_parameter"
    (.seq [modifiers, ref .bareType, word "...", annotations, variableDeclarator])]

/-- The parameters of a method or lambda. -/
def formalParameters : Rule :=
  .node "formal_parameters" (parens (.alt [
    .seq [receiverParameter, optional (.seq [word ",", commas parameter])],
    commas parameter]))

/-- A lambda. -/
def lambda : Rule :=
  .node "lambda_expression" (.seq [
    .role "parameters" (.alt [
      .seq [variableName, .ahead (word "->")],
      .seq [
        .node "inferred_parameters"
          (parens (commas1 (nameExcept (expressionWords ++ modifierWords)))),
        .ahead (word "->")],
      formalParameters]),
    word "->",
    .role "body" (.alt [ref .block, ref .expression])])

/-- A cast to a primitive type or an array of one. -/
def primitiveCast : Rule :=
  .node "cast_expression" (.seq [
    word "(", .role "type" (.chain primitiveType [("array_type", [], dimensions)]), word ")",
    .role "value" (.alt [lambda, ref .unary])])

/-- A cast to any type, with something between its parentheses and its value. -/
def castAfter (between : Rule) : Rule :=
  .node "cast_expression" (.seq [
    openParen, separated1 "&" (.role "type" (ref .type)), word ")", between,
    .role "value" (.alt [lambda, ref .unary])])

/-- A cast. A sign after a type in parentheses is taken for a binary operator. -/
def cast : Rule := .alt [primitiveCast, castAfter (.unless (.words ["+", "-"]))]

/-! ## Switches -/

/-- A component of a record pattern. -/
def recordPatternComponent : Rule := .alt [
  ref .recordPattern,
  .node "record_pattern_component" (.alt [
    .seq [ref .bareType, declaredName],
    .leaf "underscore_pattern" ["_"]])]

/-- A record taken apart. -/
def recordPattern : Rule :=
  .node "record_pattern" (.seq [
    .chain variableName [("generic_type", [], ref .typeArguments)],
    .node "record_pattern_body" (parens (commas recordPatternComponent))])

/-- What a label matches besides constants. -/
def pattern : Rule :=
  .node "pattern" (.alt [
    ref .recordPattern,
    .node "type_pattern" (.seq [ref .bareType, nameExcept ["instanceof", "when"]])])

/-- A label of a switch. -/
def switchLabel : Rule :=
  .node "switch_label" (.alt [
    .seq [
      word "case",
      .alt [
        pattern,
        commas1 (ref .labelExpression)],
      optional (.node "guard" (.seq [word "when", ref .labelExpression]))],
    word "default"])

/-- An expression as a statement. -/
def expressionStatement : Rule :=
  .node "expression_statement" (.seq [ref .expression, word ";"])

/-- The throwing of an exception. -/
def throwStatement : Rule :=
  .node "throw_statement" (.seq [word "throw", ref .expression, word ";"])

/-- A case with an arrow. -/
def switchRule : Rule :=
  .node "switch_rule" (.seq [
    switchLabel, word "->", .alt [ref .block, throwStatement, expressionStatement]])

/-- Labels with the statements after them. -/
def switchGroup : Rule :=
  .node "switch_block_statement_group"
    (.seq [
      many1 (.seq [switchLabel, word ":"]),
      .many (.seq [.unless (word "case"), ref .statement])])

/-- A switch, whose cases have arrows or groups of statements but not both. -/
def switchExpression : Rule :=
  .node "switch_expression" (.seq [
    word "switch", .role "condition" parenthesized,
    .role "body" (.node "switch_block" (.seq [
      word "\x7b",
      .alt [.seq [.many switchRule, word "\x7d"], .seq [.many switchGroup, word "\x7d"]]]))])

/-! ## Operators -/

/-- An operand with what stands before it. A cast of a signed value is the last resort. -/
def unary : Rule := .alt [
  .node "unary_expression" (.seq [.words ["+", "-", "!", "~"], .role "operand" (ref .unary)]),
  .node "update_expression" (.seq [.words ["++", "--"], ref .unary]),
  cast,
  switchExpression,
  postfixed,
  castAfter (.seq [])]

/-- A level of binary operators over the operands of the next level. -/
def binary (operators : List String) (operand : Rule) : Rule :=
  .chain operand [("binary_expression", [], .seq [.words operators, .role "right" operand])]

/-- Multiplication, addition and shifts. -/
def arithmetic : Rule :=
  binary ["<<", ">>", ">>>"] (binary ["+", "-"] (binary ["*", "/", "%"] (ref .unary)))

/-- Comparison of size and of type. -/
def comparison : Rule :=
  .chain arithmetic [
    ("binary_expression", [], .seq [.words ["<", ">", "<=", ">="], .role "right" arithmetic]),
    ("instanceof_expression", [], .seq [
      word "instanceof", optional (word "final"),
      .alt [ref .recordPattern, .seq [ref .type, optional declaredName]]])]

/-- The binary operators from equality down to alternatives. -/
def disjunction : Rule :=
  binary ["||"] (binary ["&&"] (binary ["|"] (binary ["^"] (binary ["&"]
    (binary ["==", "!="] comparison)))))

/-- A choice between two expressions by a condition. -/
def ternary (last : Rule) : Rule :=
  .chain disjunction [
    ("ternary_expression", [], .seq [word "?", ref .expression, word ":", last])]

/-- An expression. -/
def expression : Rule := .alt [lambda, ternary (ref .expression)]

/-- An expression that an arrow may follow. -/
def labelExpression : Rule := ternary (ref .labelExpression)

end Gleaner.Java.Grammar
