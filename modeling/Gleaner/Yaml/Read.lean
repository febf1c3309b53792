import Gleaner.Yaml.Node
import Gleaner.Yaml.Scalar

/-!
# Values of documents

Scalars become values by their kind, lists and maps become lists and maps. An entry under a merge key
brings in the entries of other maps, before the map's own; of several maps the first wins. Keys have to
be values that cannot change.

Values are made level by level: what is wrong at an outer level is found before what is wrong further
inside, so a failure carries the level at which it happens.

Main definitions: `Node.value` and `read`.
-/

namespace Gleaner.Yaml

/-- A fault and the level at which it is found. -/
structure Late where
  level : Nat
  fault : Fault

/-- A value, or the fault that is found first. -/
abbrev Making (α : Type) := Except Late α

namespace Making

/-- A fault at a level. -/
def fail {α : Type} (level : Nat) (fault : Fault) : Making α :=
  .error ⟨level, fault⟩

/-- Both of two values. Of two faults the one at the outer level counts, and the first of one level. -/
def both {α β : Type} : Making α → Making β → Making (α × β)
  | .ok a, .ok b => .ok (a, b)
  | .error e, .error f => .error (if f.level < e.level then f else e)
  | .error e, _ => .error e
  | _, .error f => .error f

end Making

mutual

/-- Whether what is under merge keys is maps only. -/
def Node.mergesMaps : Node → Bool
  | .mapping _ entries => entriesMerge entries
  | _ => false

/-- Whether all nodes are maps that can be merged. -/
def allMergeMaps : List Node → Bool
  | [] => true
  | n :: rest => n.mergesMaps && allMergeMaps rest

/-- Whether each merge key of entries has a map or a list of maps. -/
def entriesMerge : List (Node × Node) → Bool
  | [] => true
  | (key, value) :: rest =>
    (key.kind ≠ .merge || match value with
      | .mapping _ entries => entriesMerge entries
      | .sequence _ items => allMergeMaps items
      | .scalar _ _ => false) && entriesMerge rest

end

/-- The text of a scalar, or of the entry of a map that stands for the map. -/
def Node.text? : Node → Option Text
  | .scalar _ text => some text
  | .sequence _ _ => none
  | .mapping _ entries => defaultText? entries
where
  /-- The text of the first entry under the key for the default. -/
  defaultText? : List (Node × Node) → Option Text
    | [] => none
    | (key, value) :: rest => if key.kind = .default then value.text? else defaultText? rest

/-- A map from pairs whose keys may repeat. -/
def mapOf (pairs : List (Value × Value)) : Value :=
  .map (Value.entriesOf pairs)

/-- A set of keys that may repeat. -/
def setOf (pairs : List (Value × Value)) : Value :=
  .set ((Value.entriesOf pairs).map Prod.fst)

mutual

/-- The value of a node that is made at a level; what is inside it is made at the next. -/
def Node.value (level : Nat) (n : Node) : Making Value :=
  match n with
  | .scalar kind text =>
    match kind with
    | .sequence | .mapping | .set | .orderedMap | .pairs => .fail (level + 1) .malformed
    | _ => (scalarValue kind text).mapError fun fault => ⟨level, fault⟩
  | .sequence kind items =>
    match kind with
    | .sequence => (valuesOf (level + 1) items).map .list
    | .orderedMap | .pairs => (pairValues (level + 1) items).map .list
    | .mapping | .set => .fail (level + 1) .malformed
    | _ => .fail level .malformed
  | .mapping kind entries =>
    match kind with
    | .mapping => (entryValues (level + 1) entries).map mapOf
    | .set => (entryValues (level + 1) entries).map setOf
    | .sequence | .orderedMap | .pairs => .fail (level + 1) .malformed
    | kind =>
      match (Node.mapping kind entries).text? with
      | none => .fail level .malformed
      | some text => (scalarValue kind text).mapError fun fault => ⟨level, fault⟩

/-- The values of nodes. -/
def valuesOf (level : Nat) : List Node → Making (List Value)
  | [] => .ok []
  | n :: rest => ((n.value level).both (valuesOf level rest)).map fun (v, vs) => v :: vs

/-- The pairs of a list of maps with one entry each. -/
def pairValues (level : Nat) : List Node → Making (List Value)
  | [] => .ok []
  | .mapping _ [(key, value)] :: rest =>
    (((key.value level).both (value.value level)).both (pairValues level rest)).map
      fun ((k, v), vs) => .tuple [k, v] :: vs
  | _ :: _ => .fail level .malformed

/-- The pairs of a map, those of merged maps first. -/
def entryValues (level : Nat) (entries : List (Node × Node)) : Making (List (Value × Value)) :=
  if entriesMerge entries then
    ((mergedValues level entries).both (ownValues level entries)).map fun (a, b) => a ++ b
  else .fail level .malformed

/-- The pairs under merge keys. -/
def mergedValues (level : Nat) : List (Node × Node) → Making (List (Value × Value))
  | [] => .ok []
  | (key, value) :: rest =>
    let here : Making (List (Value × Value)) :=
      if key.kind = .merge then
        match value with
        | .mapping _ entries =>
          ((mergedValues level entries).both (ownValues level entries)).map fun (a, b) => a ++ b
        | .sequence _ items => mergedItems level items
        | .scalar _ _ => .ok []
      else .ok []
    (here.both (mergedValues level rest)).map fun (a, b) => a ++ b

/-- The pairs of a list of maps, those of the last map first. -/
def mergedItems (level : Nat) : List Node → Making (List (Value × Value))
  | [] => .ok []
  | n :: rest =>
    let here : Making (List (Value × Value)) :=
      match n with
      | .mapping _ entries =>
        ((mergedValues level entries).both (ownValues level entries)).map fun (a, b) => a ++ b
      | _ => .ok []
    ((mergedItems level rest).both here).map fun (a, b) => a ++ b

/-- The pairs that are not under merge keys. -/
def ownValues (level : Nat) : List (Node × Node) → Making (List (Value × Value))
  | [] => .ok []
  | (key, value) :: rest =>
    if key.kind = .merge then ownValues level rest
    else
      let made : Making Value := match key with
        | .scalar .default text => .ok (.text text)
        | key => match key.value level with
          | .ok k => if k.isKey then .ok k else .fail level .malformed
          | .error e => if e.level = level then .error e else .fail level .malformed
      ((made.both (value.value level)).both (ownValues level rest)).map fun ((k, v), more) => (k, v) :: more

end

/-- The value that a text holds. An empty text holds nothing. -/
def read (text : String) : Except Fault Value := do
  match ← document text.toList with
  | none => return .null
  | some node => (node.value 0).mapError Late.fault

end Gleaner.Yaml
