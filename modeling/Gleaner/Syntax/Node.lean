import Gleaner.Text.Utf8

/-!
# Syntax trees

A syntax tree covers a source file: each node has a kind and a range of bytes. Anonymous nodes are
tokens that carry no meaning of their own; only named nodes are seen by extraction. A parser marks what
it could not fit as `ERROR` nodes or missing nodes, and every node above such a one as having an error.

A row is the number of line feeds before a byte, so the first row is zero.
-/

namespace Gleaner.Syntax

open Gleaner.Utf8 (Bytes)

/-- What a node says about itself. The field is its role in its parent. -/
structure Info where
  kind : String
  start : Nat
  stop : Nat
  named : Bool := true
  missing : Bool := false
  hasError : Bool := false
  role : Option String := none
deriving DecidableEq, Repr, Inhabited

/-- A node with its children in source order. -/
inductive Node where
  | node (info : Info) (children : List Node)
deriving Repr, Inhabited

namespace Node

/-- What the node says about itself. -/
def info : Node → Info
  | .node info _ => info

/-- All children. -/
def children : Node → List Node
  | .node _ children => children

/-- The kind of the node. -/
def kind (n : Node) : String := n.info.kind

/-- The role of the node in its parent. -/
def role (n : Node) : Option String := n.info.role

/-- The named children. -/
def namedChildren (n : Node) : List Node :=
  n.children.filter (·.info.named)

/-- The first child with a role. -/
def childByRole? (n : Node) (role : String) : Option Node :=
  n.children.find? (·.role = some role)

mutual

/-- The number of nodes in a tree. -/
def size : Node → Nat
  | .node _ children => sizeAll children + 1

/-- The number of nodes in several trees. -/
def sizeAll : List Node → Nat
  | [] => 0
  | n :: rest => size n + sizeAll rest

end

end Node

/-- The bytes from one offset up to another; none if they are out of order. -/
def cut (source : Bytes) (start stop : Nat) : Bytes :=
  (source.drop start).take (stop - start)

/-- The row of a byte offset. -/
def rowOf (source : Bytes) (offset : Nat) : Nat :=
  (source.take offset).count 0x0a

namespace Node

/-- The bytes of a node. -/
def bytes (source : Bytes) (n : Node) : Bytes :=
  cut source n.info.start n.info.stop

/-- The text of a node. -/
def text (source : Bytes) (n : Node) : Except Utf8.Malformed String :=
  Utf8.decode (n.bytes source)

/-- The row of the first byte. -/
def startRow (source : Bytes) (n : Node) : Nat :=
  rowOf source n.info.start

/-- The row after the last byte. -/
def endRow (source : Bytes) (n : Node) : Nat :=
  rowOf source n.info.stop

end Node

end Gleaner.Syntax
