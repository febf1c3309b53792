import Gleaner.Syntax.Rule

/-!
# Parts of the Java grammar

The symbols name the rules that refer to each other in circles; every other rule is a plain definition.
Braces and names are shared by all parts of the grammar.

No word is reserved everywhere. A word with a meaning of its own keeps that meaning where it could be
used in it, and is a name like any other elsewhere, so every name says which words it cannot be.
-/

namespace Gleaner.Java.Grammar

/-- The rules that others refer to by name. -/
inductive Symbol where
  | annotationUse
  | elementValue
  | typeArguments
  | bareType
  | type
  | expression
  | labelExpression
  | unary
  | recordPattern
  | initializer
  | block
  | statement
  | classBody
  | declaration
deriving DecidableEq, Repr

/-- A rule of the Java grammar. -/
abbrev Rule := Gleaner.Syntax.Rule Symbol

open Gleaner.Syntax.Rule

/-- Refer to a rule by name. -/
def ref (symbol : Symbol) : Rule := .call symbol

/-- A rule between parentheses. -/
def parens (rule : Rule) : Rule := .seq [word "(", rule, word ")"]

/-- A rule between braces. -/
def braces (rule : Rule) : Rule := .seq [word "\x7b", rule, word "\x7d"]

/-- Items with commas between. -/
def commas (rule : Rule) : Rule := separated "," rule

/-- At least one item, with commas between. -/
def commas1 (rule : Rule) : Rule := separated1 "," rule

/-- The types that are words. -/
def primitiveWords : List String :=
  ["void", "byte", "short", "int", "long", "char", "float", "double", "boolean"]

/-- The words that an expression may start with. -/
def expressionWords : List String :=
  ["new", "this", "super", "true", "false", "null", "switch"] ++ primitiveWords

/-- The words that modify a declaration. -/
def modifierWords : List String := [
  "public", "protected", "private", "abstract", "static", "final", "strictfp", "default",
  "synchronized", "native", "transient", "volatile"]

/-- The words that a declaration of a type starts with, after its modifiers. -/
def declarationWords : List String := ["class", "interface", "enum"]

/-- The words that only a statement starts with. -/
def statementWords : List String := [
  "assert", "break", "continue", "do", "for", "if", "import", "package", "return", "throw", "try",
  "while"] ++ declarationWords

/-- A name that is none of these words. -/
def nameExcept (words : List String) : Rule := .name "identifier" words

/-- A name where nothing but a name may stand. -/
def identifier : Rule := nameExcept []

/-- The name of what is declared, after its type. -/
def declaredName : Rule := nameExcept ["instanceof", "this"]

/-- The name of a constructor, before which modifiers may stand. -/
def constructorName : Rule := nameExcept (modifierWords ++ declarationWords ++ primitiveWords)

/-- A name that is used as an expression. -/
def variableName : Rule := nameExcept expressionWords

/-- A name after the dot of an expression. -/
def memberName : Rule := nameExcept ["new", "super", "this"]

/-- A name with a dotted scope before it. -/
def qualifiedName : Rule :=
  .chain identifier [("scoped_identifier", [], .seq [word ".", identifier])]

/-- The object itself. -/
def thisLeaf : Rule := .leaf "this" ["this"]

/-- The object seen as its superclass. -/
def superLeaf : Rule := .leaf "super" ["super"]

end Gleaner.Java.Grammar
