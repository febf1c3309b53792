import Gleaner.Yaml.Kind
import Gleaner.Yaml.Scan

/-!
# Nodes

A document is one node: a scalar, a list of nodes, or a map of pairs of nodes, each with its kind. Nodes
are read from tokens by recursive descent. A node with an anchor can be used again by an alias further
on; the alias then stands for the same node. A missing node is an empty plain scalar.

Main definitions: `Node`, `NodeReader`, `readNode` and `document`.
-/

namespace Gleaner.Yaml

/-- A node of a document. -/
inductive Node where
  | scalar (kind : Kind) (text : Text)
  | sequence (kind : Kind) (items : List Node)
  | mapping (kind : Kind) (entries : List (Node × Node))
deriving Repr

/-- The kind of a node. -/
def Node.kind : Node → Kind
  | .scalar kind _ => kind
  | .sequence kind _ => kind
  | .mapping kind _ => kind

/-- The node that stands where none is written. -/
def Node.missing : Node :=
  .scalar (plainKind "") ""

/-- The tokens that are left, the meanings of tag handles, and the nodes with anchors. -/
structure NodeReader where
  left : List Token
  handles : List (String × String)
  anchors : List (String × Node) := []

namespace NodeReader

/-- The next token. -/
def peek (r : NodeReader) : Token :=
  r.left.headD .streamEnd

/-- Pass a token. -/
def next (r : NodeReader) : NodeReader :=
  { r with left := r.left.drop 1 }

/-- The whole tag of a written one; `none` stands for a tag that leaves the kind open. -/
def fullTag (r : NodeReader) (name : TagName) : Except Fault (Option String) :=
  match name.handle with
  | none => .ok (if name.suffix = "!" then none else some name.suffix)
  | some handle =>
    match r.handles.lookup handle with
    | none => .error .malformed
    | some start => .ok (if start ++ name.suffix = "!" then none else some (start ++ name.suffix))

end NodeReader

/-- What stands before a node. -/
structure Properties where
  anchor : Option String := none
  /-- The tag, if there is one; inside, nothing for a tag that leaves the kind open. -/
  tag : Option (Option String) := none

/-- The anchor and the tag before a node, in either order. -/
def properties (r : NodeReader) : Except Fault (Properties × NodeReader) := do
  match r.peek with
  | .anchor name =>
    let r := r.next
    match r.peek with
    | .tag t => return ({ anchor := some name, tag := some (← r.fullTag t) }, r.next)
    | _ => return ({ anchor := some name }, r)
  | .tag t =>
    let tag ← r.fullTag t
    let r := r.next
    match r.peek with
    | .anchor name => return ({ anchor := some name, tag := some tag }, r.next)
    | _ => return ({ tag := some tag }, r)
  | _ => return ({}, r)

/-- The kind of a list or map. -/
def Properties.kindOr (p : Properties) (kind : Kind) : Kind :=
  match p.tag with
  | some (some tag) => .ofTag tag
  | _ => kind

/-- The kind of a scalar. Without a tag it is a text, unless it is plain; a tag that leaves the kind open
makes it count as plain. -/
def Properties.scalarKind (p : Properties) (plain : Bool) (text : Text) : Kind :=
  match p.tag with
  | some (some tag) => .ofTag tag
  | some none => plainKind text.lossy
  | none => if plain then plainKind text.lossy else .text

/-- Keep a node under its anchor, which has to be new. -/
def keep (p : Properties) (node : Node) (r : NodeReader) : Except Fault (Node × NodeReader) :=
  match p.anchor with
  | none => .ok (node, r)
  | some name =>
    if (r.anchors.lookup name).isSome then .error .malformed
    else .ok (node, { r with anchors := (name, node) :: r.anchors })

/-- What a place may hold: any node, a node of a block, or also a list that is not indented. -/
inductive Context where
  | flow
  | block
  | entry
deriving DecidableEq, Repr

/-- How deep nodes may be nested. -/
def maxLevels : Nat := 490

mutual

/-- Read a node. -/
def readNode : (fuel levels : Nat) → Context → NodeReader → Except Fault (Node × NodeReader)
  | 0, _, _, _ => .error .tooDeep
  | _, 0, _, _ => .error .tooDeep
  | fuel + 1, levels + 1, context, r => do
    match r.peek with
    | .alias name =>
      match r.anchors.lookup name with
      | some node => return (node, r.next)
      | none => .error .malformed
    | _ =>
      let (p, r) ← properties r
      match r.peek with
      | .scalar text plain => keep p (.scalar (p.scalarKind plain text) text) r.next
      | .flowSequenceStart =>
        let (items, r) ← readFlowItems fuel levels true [] r.next
        keep p (.sequence (p.kindOr .sequence) items) r
      | .flowMappingStart =>
        let (entries, r) ← readFlowEntries fuel levels true [] r.next
        keep p (.mapping (p.kindOr .mapping) entries) r
      | .blockEntry =>
        if context = .entry then
          let (items, r) ← readLooseItems fuel levels [] r
          keep p (.sequence (p.kindOr .sequence) items) r
        else readEmpty p r
      | .blockSequenceStart =>
        if context = .flow then readEmpty p r
        else
          let (items, r) ← readBlockItems fuel levels [] r.next
          keep p (.sequence (p.kindOr .sequence) items) r
      | .blockMappingStart =>
        if context = .flow then readEmpty p r
        else
          let (entries, r) ← readBlockEntries fuel levels [] r.next
          keep p (.mapping (p.kindOr .mapping) entries) r
      | _ => readEmpty p r

/-- A node of which only the anchor or the tag is written. -/
def readEmpty (p : Properties) (r : NodeReader) : Except Fault (Node × NodeReader) :=
  if p.anchor.isNone && p.tag.isNone then .error .malformed
  else keep p (.scalar (p.scalarKind true "") "") r

/-- A node, or a missing one if one of the given tokens follows. -/
def readNodeUnless : (fuel levels : Nat) → Context → List Token → NodeReader →
    Except Fault (Node × NodeReader)
  | 0, _, _, _, _ => .error .tooDeep
  | fuel + 1, levels, context, closers, r =>
    if closers.contains r.peek then .ok (.missing, r) else readNode fuel levels context r

/-- The items of a block, each after its dash. -/
def readBlockItems : (fuel levels : Nat) → (done : List Node) → NodeReader →
    Except Fault (List Node × NodeReader)
  | 0, _, _, _ => .error .tooDeep
  | fuel + 1, levels, done, r => do
    match r.peek with
    | .blockEntry =>
      let (node, r) ← readNodeUnless fuel levels .block [.blockEntry, .blockEnd] r.next
      readBlockItems fuel levels (node :: done) r
    | .blockEnd => return (done.reverse, r.next)
    | _ => .error .malformed

/-- The items of a list that is not indented. It ends where no dash follows. -/
def readLooseItems : (fuel levels : Nat) → (done : List Node) → NodeReader →
    Except Fault (List Node × NodeReader)
  | 0, _, _, _ => .error .tooDeep
  | fuel + 1, levels, done, r => do
    match r.peek with
    | .blockEntry =>
      let closers := [.blockEntry, .key, .value, .blockEnd]
      let (node, r) ← readNodeUnless fuel levels .block closers r.next
      readLooseItems fuel levels (node :: done) r
    | _ => return (done.reverse, r)

/-- The entries of a block, each with the mark of its key and perhaps the mark of its value. -/
def readBlockEntries : (fuel levels : Nat) → (done : List (Node × Node)) → NodeReader →
    Except Fault (List (Node × Node) × NodeReader)
  | 0, _, _, _ => .error .tooDeep
  | fuel + 1, levels, done, r => do
    match r.peek with
    | .key =>
      let closers := [.key, .value, .blockEnd]
      let (key, r) ← readNodeUnless fuel levels .entry closers r.next
      let (value, r) ←
        if r.peek = .value then readNodeUnless fuel levels .entry closers r.next
        else pure (.missing, r)
      readBlockEntries fuel levels ((key, value) :: done) r
    | .blockEnd => return (done.reverse, r.next)
    | _ => .error .malformed

/-- The items of a list in brackets. An item with the mark of a key is a map of one entry. -/
def readFlowItems : (fuel levels : Nat) → (isFirst : Bool) → (done : List Node) → NodeReader →
    Except Fault (List Node × NodeReader)
  | 0, _, _, _, _ => .error .tooDeep
  | fuel + 1, levels, isFirst, done, r => do
    if r.peek = .flowSequenceEnd then return (done.reverse, r.next)
    else if !isFirst && r.peek ≠ .flowEntry then .error .malformed
    else
      let r := if isFirst then r else r.next
      match r.peek with
      | .flowSequenceEnd => return (done.reverse, r.next)
      | .key =>
        match levels with
        | 0 => .error .tooDeep
        | levels + 1 =>
          let (key, r) ← readNodeUnless fuel levels .flow [.value, .flowEntry, .flowSequenceEnd] r.next
          let (value, r) ←
            if r.peek = .value then readNodeUnless fuel levels .flow [.flowEntry, .flowSequenceEnd] r.next
            else pure (.missing, r)
          readFlowItems fuel (levels + 1) false (.mapping .mapping [(key, value)] :: done) r
      | _ =>
        let (node, r) ← readNode fuel levels .flow r
        readFlowItems fuel levels false (node :: done) r

/-- The entries of a map in brackets. An entry without the mark of a key has no value. -/
def readFlowEntries : (fuel levels : Nat) → (isFirst : Bool) → (done : List (Node × Node)) →
    NodeReader → Except Fault (List (Node × Node) × NodeReader)
  | 0, _, _, _, _ => .error .tooDeep
  | fuel + 1, levels, isFirst, done, r => do
    if r.peek = .flowMappingEnd then return (done.reverse, r.next)
    else if !isFirst && r.peek ≠ .flowEntry then .error .malformed
    else
      let r := if isFirst then r else r.next
      match r.peek with
      | .flowMappingEnd => return (done.reverse, r.next)
      | .key =>
        let (key, r) ← readNodeUnless fuel levels .flow [.value, .flowEntry, .flowMappingEnd] r.next
        let (value, r) ←
          if r.peek = .value then readNodeUnless fuel levels .flow [.flowEntry, .flowMappingEnd] r.next
          else pure (.missing, r)
        readFlowEntries fuel levels false ((key, value) :: done) r
      | _ =>
        let (node, r) ← readNode fuel levels .flow r
        readFlowEntries fuel levels false ((node, .missing) :: done) r

end

/-! ## Documents -/

/-- The handles that every document knows. -/
def standardHandles : List (String × String) := [("!", "!"), ("!!", standardTag)]

/-- Take in the directives before a document. -/
def readDirectives : (versioned : Bool) → (handles : List (String × String)) → List Token →
    Except Fault (List (String × String) × List Token)
  | versioned, handles, .directive d :: rest =>
    match d with
    | .version major =>
      if versioned || major ≠ 1 then .error .malformed else readDirectives true handles rest
    | .tag handle start =>
      if (handles.lookup handle).isSome then .error .malformed
      else readDirectives versioned ((handle, start) :: handles) rest
    | .other => readDirectives versioned handles rest
  | _, handles, rest => .ok (handles, rest)

/-- The node of a document that starts with its content, and what follows. -/
def readContent (handles : List (String × String)) (left : List Token) :
    Except Fault (Node × List Token) := do
  let (node, r) ← readNode (4 * left.length + 4) maxLevels .block { left, handles }
  return (node, r.left)

/-- Whether a token ends the content of a document. -/
def endsContent : Token → Bool
  | .directive _ => true
  | .documentStart => true
  | .documentEnd => true
  | .streamEnd => true
  | _ => false

/-- The node of a document, and what follows it. -/
def readDocument (left : List Token) : Except Fault (Node × List Token) := do
  match left.headD .streamEnd with
  | .directive _ | .documentStart =>
    let (handles, left) ← readDirectives false [] left
    match left with
    | .documentStart :: left =>
      if endsContent (left.headD .streamEnd) then return (.missing, left)
      else readContent (handles ++ standardHandles) left
    | _ => .error .malformed
  | _ => readContent standardHandles left

/-- The one document of a text, if there is one. -/
def document (text : List Char) : Except Fault (Option Node) := do
  let all ← tokens text
  match all with
  | [.streamEnd] => return none
  | _ =>
    let (node, left) ← readDocument all
    match left.dropWhile (· = .documentEnd) with
    | [.streamEnd] => return some node
    | _ => .error .malformed

end Gleaner.Yaml
