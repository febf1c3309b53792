import Gleaner.Java.Grammar.Declarations

/-!
# The Java grammar

The rule of each symbol, and the rule of a whole file: any number of statements and methods.
-/

namespace Gleaner.Java.Grammar

/-- The rule of each symbol. -/
def rules : Gleaner.Syntax.Grammar Symbol
  | .annotationUse => annotationUse
  | .elementValue => elementValue
  | .typeArguments => typeArguments
  | .bareType => bareType
  | .type => type
  | .expression => expression
  | .labelExpression => labelExpression
  | .unary => unary
  | .recordPattern => recordPattern
  | .initializer => initializer
  | .block => block
  | .statement => statement
  | .classBody => classBody
  | .declaration => declaration

/-- A whole file. -/
def program : Rule := .many topLevel

end Gleaner.Java.Grammar
