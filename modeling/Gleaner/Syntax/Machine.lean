import Gleaner.Syntax.Node
import Gleaner.Syntax.Rule
import Gleaner.Syntax.Token

/-!
# Running a grammar

Tokens are matched against rules by a machine that keeps what is still to do on a stack of frames, so
that source of any nesting is parsed without deep recursion. A configuration is about to run a rule, has
just succeeded, or has just failed; success and failure both consult the frame on top. Choice is
committed: once an alternative succeeds, the others are forgotten.

A run is bounded by a number of steps. Rules that use up no token are not repeated, so for a given
grammar a bound that is linear in the number of tokens is enough in practice; a run that exceeds its
bound counts as failed.

Main definitions: `Position`, `Frame`, `Config`, `step` and `run`.
-/

namespace Gleaner.Syntax

/-- A place in the tokens: those to come, the end of the last one taken, and the nodes made so far in
the current parent, last first. -/
structure Position where
  tokens : List Token
  stop : Nat := 0
  nodes : List Node := []

/-- Where the next token starts. -/
def Position.start (p : Position) : Nat :=
  match p.tokens with
  | [] => p.stop
  | t :: _ => t.start

/-- What is still to do. -/
inductive Frame (σ : Type) where
  /-- Rules to run next. -/
  | sequence (rules : List (Rule σ))
  /-- Alternatives to try on failure. -/
  | choice (rules : List (Rule σ)) (back : Position)
  /-- Repeat the rule on success, stop on failure. -/
  | repetition (rule : Rule σ) (back : Position)
  /-- Make the nodes children of a new node. -/
  | close (kind : String) (start : Nat) (outer : List Node)
  /-- Give the nodes a role. -/
  | label (role : String) (outer : List Node)
  /-- Go back, whatever happened; fail unless it was the expected outcome. -/
  | look (success : Bool) (back : Position)
  /-- The base of a chain is being run. -/
  | base (tails : List (Tail σ)) (start : Nat) (outer : List Node)
  /-- A tail of a chain is being run. -/
  | tail (kind : String) (others all : List (Tail σ)) (start : Nat) (outer : List Node)
    (back : Position)

/-- What the machine is about to do. -/
inductive Mode (σ : Type) where
  | execute (rule : Rule σ)
  | success
  | failure

/-- A state of the machine. -/
structure Config (σ : Type) where
  mode : Mode σ
  position : Position
  frames : List (Frame σ)

variable {σ : Type}

namespace Config

/-- Go on with a rule. -/
def execute (rule : Rule σ) (position : Position) (frames : List (Frame σ)) : Config σ :=
  ⟨.execute rule, position, frames⟩

/-- Go on after a success. -/
def succeed (position : Position) (frames : List (Frame σ)) : Config σ :=
  ⟨.success, position, frames⟩

/-- Go on after a failure. -/
def fail (position : Position) (frames : List (Frame σ)) : Config σ :=
  ⟨.failure, position, frames⟩

end Config

/-- The leaf of a token. -/
def Token.leaf (kind : String) (t : Token) : Node :=
  .node { kind, start := t.start, stop := t.stop } []

/-- The position after one token, which leaves the given nodes. -/
def Position.advance (p : Position) (t : Token) (rest : List Token) (made : List Node) : Position :=
  { tokens := rest, stop := t.stop, nodes := made ++ p.nodes }

/-- Match one token. -/
def Position.take? (p : Position) (accept : Token → Option (List Node)) : Option Position :=
  match p.tokens with
  | [] => none
  | t :: rest => (accept t).map (p.advance t rest)

/-- Match a closing angle bracket; of a longer symbol the rest stays. -/
def Position.closeAngle? (p : Position) : Option Position :=
  match p.tokens with
  | [] => none
  | t :: rest =>
    if t.text = ">" then some (p.advance t rest [])
    else (t.afterFirst? '>').map fun later =>
      { p with tokens := later :: rest, stop := t.start + 1 }

/-- A node over what was made since it was opened. -/
def Position.closeNode (p : Position) (kind : String) (start : Nat) (outer : List Node) : Position :=
  { p with nodes := .node { kind, start, stop := p.stop } p.nodes.reverse :: outer }

/-- A node with a role. -/
def Node.withRole (role : String) : Node → Node
  | .node info children => .node { info with role := some role } children

/-- Run the next tail of a chain that fits, or end the chain. -/
def Config.chain (all : List (Tail σ)) (start : Nat) (outer : List Node) (p : Position)
    (frames : List (Frame σ)) : List (Tail σ) → Config σ
  | [] => .succeed { p with nodes := p.nodes ++ outer } frames
  | (kind, after, rule) :: others =>
    if after.isEmpty || (p.nodes.head?.map Node.kind).any after.contains then
      .execute rule p (.tail kind others all start outer p :: frames)
    else Config.chain all start outer p frames others

/-- The outcome of matching one token. -/
def Config.ofMatch (p : Position) (frames : List (Frame σ)) : Option Position → Config σ
  | some next => .succeed next frames
  | none => .fail p frames

/-- Run a rule. -/
def executeStep (grammar : Grammar σ) (p : Position) (frames : List (Frame σ)) :
    Rule σ → Config σ
  | .words texts =>
    .ofMatch p frames (p.take? fun t => if texts.contains t.text then some [] else none)
  | .leaf kind texts =>
    .ofMatch p frames (p.take? fun t => if texts.contains t.text then some [t.leaf kind] else none)
  | .name kind except =>
    .ofMatch p frames (p.take? fun t =>
      if t.sort = .word && !except.contains t.text then some [t.leaf kind] else none)
  | .literal =>
    .ofMatch p frames (p.take? fun t =>
      match t.sort with
      | .literal kind => some [t.leaf kind]
      | _ => none)
  | .closeAngle => .ofMatch p frames p.closeAngle?
  | .seq [] => .succeed p frames
  | .seq (rule :: rules) => .execute rule p (.sequence rules :: frames)
  | .alt [] => .fail p frames
  | .alt (rule :: rules) => .execute rule p (.choice rules p :: frames)
  | .many rule => .execute rule p (.repetition rule p :: frames)
  | .node kind rule =>
    .execute rule { p with nodes := [] } (.close kind p.start p.nodes :: frames)
  | .role name rule => .execute rule { p with nodes := [] } (.label name p.nodes :: frames)
  | .call symbol => .execute (grammar symbol) p frames
  | .chain base tails =>
    .execute base { p with nodes := [] } (.base tails p.start p.nodes :: frames)
  | .unless rule => .execute rule p (.look false p :: frames)
  | .ahead rule => .execute rule p (.look true p :: frames)

/-- Go on after a success. -/
def successStep (p : Position) (frames : List (Frame σ)) : Frame σ → Config σ
  | .sequence [] => .succeed p frames
  | .sequence (rule :: rules) => .execute rule p (.sequence rules :: frames)
  | .choice _ _ => .succeed p frames
  | .repetition rule back =>
    if back.stop < p.stop then .execute rule p (.repetition rule p :: frames) else .succeed p frames
  | .close kind start outer => .succeed (p.closeNode kind start outer) frames
  | .label role outer => .succeed { p with nodes := p.nodes.map (·.withRole role) ++ outer } frames
  | .look success back => if success then .succeed back frames else .fail back frames
  | .base tails start outer => .chain tails start outer p frames tails
  | .tail kind _ all start outer _ => .chain all start outer (p.closeNode kind start []) frames all

/-- Go on after a failure. -/
def failureStep (p : Position) (frames : List (Frame σ)) : Frame σ → Config σ
  | .sequence _ => .fail p frames
  | .choice [] _ => .fail p frames
  | .choice (rule :: rules) back => .execute rule back (.choice rules back :: frames)
  | .repetition _ back => .succeed back frames
  | .close .. => .fail p frames
  | .label .. => .fail p frames
  | .look success back => if success then .fail back frames else .succeed back frames
  | .base .. => .fail p frames
  | .tail _ others all start outer back => .chain all start outer back frames others

/-- One step, or the outcome if nothing is left to do. -/
def step (grammar : Grammar σ) (c : Config σ) : Option Position ⊕ Config σ :=
  match c.mode, c.frames with
  | .execute rule, frames => .inr (executeStep grammar c.position frames rule)
  | .success, [] => .inl (some c.position)
  | .failure, [] => .inl none
  | .success, frame :: frames => .inr (successStep c.position frames frame)
  | .failure, frame :: frames => .inr (failureStep c.position frames frame)

/-- Run the machine for at most so many steps. -/
def runConfig (grammar : Grammar σ) : (steps : Nat) → Config σ → Option Position
  | 0, _ => none
  | steps + 1, c =>
    match step grammar c with
    | .inl outcome => outcome
    | .inr next => runConfig grammar steps next

/-- The steps allowed for so many tokens. -/
def stepLimit (tokens : Nat) : Nat :=
  20000 * (tokens + 100)

/-- Match a rule against tokens. -/
def run (grammar : Grammar σ) (rule : Rule σ) (tokens : List Token) : Option Position :=
  runConfig grammar (stepLimit tokens.length) (.execute rule { tokens } [])

end Gleaner.Syntax
