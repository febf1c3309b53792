import Gleaner.Syntax.Node
import Gleaner.Text.Blank

/-!
# Syntax problems

A tree with errors has one problem for each outermost node that is an `ERROR` or is missing. The search
keeps the nodes still to visit on a stack and goes down only into nodes marked as having an error; a
tree that is marked but has no such node gives a single problem without a place.

Main definitions: `Problem`, `describe`, `search` and `problems`.
-/

namespace Gleaner.Syntax

open Gleaner.Utf8 (Bytes)

/-- A problem, with its line counted from one if it has a place. -/
structure Problem where
  line : Option Int
  message : String
deriving DecidableEq, Repr

/-- The longest excerpt of source in a message. -/
def excerptLimit : Nat := 40

/-- Source text in one line: its words with one blank between them, cut at the limit. -/
def excerpt (cs : List Char) : List Char :=
  let text := List.intercalate [' '] (Text.words cs)
  if text.length > excerptLimit then text.take excerptLimit ++ ['.', '.', '.'] else text

/-- What is wrong at a node. -/
def describe (source : Bytes) (n : Node) : String :=
  if n.info.missing then s!"Missing '{n.kind}'"
  else
    let text := excerpt (Utf8.decodeLossy (n.bytes source))
    if text.isEmpty then "Unexpected end of input"
    else s!"Syntax error near '{String.ofList text}'"

/-- The node itself is a problem. -/
def Node.isProblem (n : Node) : Bool :=
  n.kind == "ERROR" || n.info.missing

/-- The node may hold a problem. -/
def Node.isSuspect (n : Node) : Bool :=
  n.info.hasError || n.info.missing

/-- The problem at a node. -/
def problemAt (source : Bytes) (n : Node) : Problem :=
  ⟨some (n.startRow source + 1), describe source n⟩

theorem Node.sizeAll_append (xs ys : List Node) :
    Node.sizeAll (xs ++ ys) = Node.sizeAll xs + Node.sizeAll ys := by
  induction xs with
  | nil => simp [Node.sizeAll]
  | cons x xs ih => simp [Node.sizeAll, ih, Nat.add_assoc]

theorem Node.sizeAll_filter_le (p : Node → Bool) (xs : List Node) :
    Node.sizeAll (xs.filter p) ≤ Node.sizeAll xs := by
  induction xs with
  | nil => simp [Node.sizeAll]
  | cons x xs ih =>
    by_cases h : p x <;> simp [Node.sizeAll, h] <;> omega

/-- Search the nodes on a stack, top first, and what they hold. -/
def search (source : Bytes) : List Node → List Problem
  | [] => []
  | n :: rest =>
    if n.isProblem then problemAt source n :: search source rest
    else search source (n.children.filter Node.isSuspect ++ rest)
termination_by stack => Node.sizeAll stack
decreasing_by
  · cases n
    simp only [Node.sizeAll, Node.size]
    omega
  · cases n with
    | node info children =>
      have := Node.sizeAll_filter_le Node.isSuspect children
      simp only [Node.sizeAll_append, Node.sizeAll, Node.size, Node.children]
      omega

/-- The problem of a tree that is marked and has no place for it. -/
def unlocated : Problem := ⟨none, "Unlocated syntax error"⟩

/-- The problems of a tree, in source order. -/
def problems (source : Bytes) (root : Node) : List Problem :=
  if root.info.hasError then
    match search source [root] with
    | [] => [unlocated]
    | found => found
  else []

end Gleaner.Syntax
