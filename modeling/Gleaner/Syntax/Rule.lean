/-!
# Grammar rules

A grammar gives each of its symbols a rule. Rules are ordered: an alternative is tried only if those
before it fail, and what succeeds first is kept. Left recursion is written as a chain: a base and the
tails that may follow it, each of which takes everything before it as its first child.

Main definitions: `Rule`, `Grammar`, and the usual combinations `optional`, `many1`, `separated`.
-/

namespace Gleaner.Syntax

/-- What source may look like, and which nodes it leaves. -/
inductive Rule (σ : Type) where
  /-- One token with one of these texts; it leaves no node. -/
  | words (texts : List String)
  /-- One token with one of these texts, as a node. -/
  | leaf (kind : String) (texts : List String)
  /-- One word that is none of these, as a node. -/
  | name (kind : String) (except : List String)
  /-- One literal, as a node of its own kind. -/
  | literal
  /-- One closing angle bracket, also as the start of a longer symbol. -/
  | closeAngle
  /-- Each rule after the one before. -/
  | seq (rules : List (Rule σ))
  /-- The first rule that succeeds. -/
  | alt (rules : List (Rule σ))
  /-- The rule as often as it succeeds. -/
  | many (rule : Rule σ)
  /-- The rule, its nodes becoming the children of one node. -/
  | node (kind : String) (rule : Rule σ)
  /-- The rule, its nodes given a role. -/
  | role (name : String) (rule : Rule σ)
  /-- The rule of a symbol. -/
  | call (symbol : σ)
  /-- The base and then tails as long as one succeeds. A tail is the kind of the node it makes, the
  kinds of node it may follow (any, if none is listed), and its rule. -/
  | chain (base : Rule σ) (tails : List (String × List String × Rule σ))
  /-- Nothing, where the rule would fail. -/
  | unless (rule : Rule σ)
  /-- Nothing, where the rule would succeed. -/
  | ahead (rule : Rule σ)

/-- A rule for each symbol. -/
abbrev Grammar (σ : Type) := σ → Rule σ

/-- A tail of a chain. -/
abbrev Tail (σ : Type) := String × List String × Rule σ

namespace Rule

variable {σ : Type}

/-- One token with this text. -/
def word (text : String) : Rule σ := .words [text]

/-- The rule, or nothing. -/
def optional (rule : Rule σ) : Rule σ := .alt [rule, .seq []]

/-- The rule once or more. -/
def many1 (rule : Rule σ) : Rule σ := .seq [rule, .many rule]

/-- The rule once or more, with a separator between. -/
def separated1 (separator : String) (rule : Rule σ) : Rule σ :=
  .seq [rule, .many (.seq [word separator, rule])]

/-- The rule any number of times, with a separator between. -/
def separated (separator : String) (rule : Rule σ) : Rule σ :=
  optional (separated1 separator rule)

end Rule

end Gleaner.Syntax
