import Gleaner.Java.Grammar
import Gleaner.Java.Lexeme
import Gleaner.Syntax.Machine

/-!
# Syntax trees of Java source

Tokens are parsed without comments; each comment is then put into the innermost node that reaches
beyond it on both sides, in the place its position gives it. A file that does not parse to its end has
an error node from the first declaration that fails, and its root is marked.

Main definitions: `attach` and `parse`.
-/

namespace Gleaner.Java

open Gleaner.Syntax
open Gleaner.Utf8 (Bytes)

/-- Whether a node reaches beyond another on both sides. -/
def spans (outer inner : Info) : Bool :=
  outer.start < inner.start && inner.stop < outer.stop

mutual

/-- Put a comment into the innermost node around it. -/
def attach (comment : Node) : Node → Node
  | .node info children => .node info (attachAmong comment children)

/-- Put a comment among children in source order, or into the child around it. -/
def attachAmong (comment : Node) : List Node → List Node
  | [] => [comment]
  | child :: rest =>
    if comment.info.stop ≤ child.info.start then comment :: child :: rest
    else if spans child.info comment.info then attach comment child :: rest
    else child :: attachAmong comment rest

end

/-- The kind of the root. -/
def rootKind : String := "program"

/-- The node of source that does not parse. -/
def errorNode (start stop : Nat) : Node :=
  .node { kind := "ERROR", start, stop, hasError := true } []

/-- The root over parsed nodes and the tokens that are left. -/
def rootOf (length : Nat) (nodes : List Node) : List Token → Node
  | [] => .node { kind := rootKind, start := 0, stop := length } nodes
  | t :: _ =>
    .node { kind := rootKind, start := 0, stop := length, hasError := true }
      (nodes ++ [errorNode t.start length])

/-- The syntax tree of a file. -/
def parse (bytes : Bytes) : Node :=
  let lexemes := Lexemes.ofBytes bytes
  let root :=
    match run Grammar.rules Grammar.program lexemes.tokens with
    | none => rootOf bytes.length [] lexemes.tokens
    | some p => rootOf bytes.length p.nodes.reverse p.tokens
  if root.info.hasError then root else lexemes.comments.foldl (fun tree c => attach c tree) root

end Gleaner.Java
