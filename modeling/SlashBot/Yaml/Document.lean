import SlashBot.Value.Key
import SlashBot.Yaml.Node
import SlashBot.Yaml.Scalar

/-!
# The value of a document

A tree of nodes becomes a value. A mapping first takes in the pairs of its merge
keys, in front of its own. Several nodes of a tree may be at fault: the fault that
counts is the one nearest to the root, and of those the first in the text.
-/

namespace SlashBot.Yaml

/-- A value, or a fault with its distance from the node in question. -/
abbrev Outcome := Except (Nat × Fault)

/-- The outcome seen from the node above. -/
def deeper {α : Type} (outcome : Outcome α) : Outcome α :=
  outcome.mapError fun (distance, fault) => (distance + 1, fault)

/-- Both values, or of two faults the nearer one and the first of equals. -/
def both {α β : Type} (first : Outcome α) (second : Outcome β) : Outcome (α × β) :=
  match first, second with
  | .ok first, .ok second => .ok (first, second)
  | .error fault, .ok _ => .error fault
  | .ok _, .error fault => .error fault
  | .error fault, .error fault' => .error (if fault'.1 < fault.1 then fault' else fault)

/-- All values, or the fault that counts. -/
def collect {α : Type} : (outcomes : List (Outcome α)) → Outcome (List α)
  | [] => .ok []
  | outcome :: rest => (both outcome (collect rest)).map fun (value, values) => value :: values

/-- A fault of the node itself. -/
def here {α : Type} (fault : Fault) : Outcome α :=
  .error (0, fault)

/-- A fault that is found when the parts of a collection are read. -/
def within {α : Type} (fault : Fault) : Outcome α :=
  .error (1, fault)

namespace Node

/-- The tag of a node. -/
def tag : Node → Tag
  | scalar tag _ => tag
  | sequence tag _ => tag
  | mapping tag _ => tag

/-- The node as a key: the sign of a default value is a key like any other. -/
def asKey : Node → Node
  | scalar .value text => scalar .str text
  | sequence .value items => sequence .str items
  | mapping .value pairs => mapping .str pairs
  | node => node

mutual

/-- The pairs of a mapping, merged ones first, unless a merge key has a value that
is neither a mapping nor a sequence of mappings. -/
def mergedPairs? : Node → Option (List (Node × Node))
  | scalar .. | sequence .. => none
  | mapping _ pairs =>
      (splitPairs? pairs).map fun (merged, own) => merged ++ own

/-- The pairs that merge keys bring in, and the other pairs. -/
def splitPairs? : (pairs : List (Node × Node)) →
    Option (List (Node × Node) × List (Node × Node))
  | [] => some ([], [])
  | (key, value) :: rest => do
      if key.tag == .merge then
        let source ←
          match value with
          | scalar .. => none
          | mapping _ pairs => (splitPairs? pairs).map fun (merged, own) => merged ++ own
          | sequence _ items => (mergeSources? items).map fun sources => sources.reverse.flatten
        let (merged, own) ← splitPairs? rest
        return (source ++ merged, own)
      else
        let (merged, own) ← splitPairs? rest
        return (merged, (key.asKey, value) :: own)

/-- The pairs of each mapping of a sequence. -/
def mergeSources? : (items : List Node) → Option (List (List (Node × Node)))
  | [] => some []
  | item :: rest => do
      let source ← item.mergedPairs?
      let sources ← mergeSources? rest
      return source :: sources

end

mutual

/-- The number of levels of a tree. -/
def height : Node → Nat
  | scalar .. => 1
  | sequence _ items => itemsHeight items + 1
  | mapping _ pairs => pairsHeight pairs + 1

/-- The number of levels below a sequence. -/
def itemsHeight : (items : List Node) → Nat
  | [] => 0
  | item :: rest => max item.height (itemsHeight rest)

/-- The number of levels below a mapping. -/
def pairsHeight : (pairs : List (Node × Node)) → Nat
  | [] => 0
  | (key, value) :: rest => max (max key.height value.height) (pairsHeight rest)

end

/-- The text of a node that is read as a scalar. A mapping lends the text of its
default value. -/
def scalarText? : (fuel : Nat) → Node → Option String
  | 0, _ => none
  | _, scalar _ text => some text
  | _, sequence .. => none
  | fuel + 1, mapping _ pairs =>
      match pairs.find? fun (key, _) => key.tag == .value with
      | some (_, value) => scalarText? fuel value
      | none => none

/-- A scalar value from a node, whatever the node is. A timestamp needs a text of
its own. -/
def scalarValue (fuel : Nat) (node : Node) : Except Fault Value :=
  match node.tag, node with
  | .timestamp, mapping .. =>
      .error (if (scalarText? fuel node).isSome then .wrongKind else .malformedConfig)
  | tag, node =>
      match scalarText? fuel node with
      | some text => readScalar tag text
      | none => .error .malformedConfig

/-- A tag whose nodes become collections, and therefore no keys. -/
def isCollectionTag (tag : Tag) : Bool :=
  tag == .seq || tag == .map || tag == .set || tag == .omap || tag == .pairs

/-- The items of a sequence. -/
def items? : Node → Option (List Node)
  | sequence _ items => some items
  | _ => none

/-- The pair of a mapping that has just one. -/
def onlyPair? : Node → Option (Node × Node)
  | mapping _ [pair] => some pair
  | _ => none

/-- The value of a node, one level of the tree for each unit of fuel. -/
def build : (fuel : Nat) → Node → Outcome Value
  | 0, _ => here .malformedConfig
  | fuel + 1, node =>
      let entries : Outcome (List (Value × Value)) :=
        match node.mergedPairs? with
        | none => within .malformedConfig
        | some pairs =>
            collect (pairs.map fun (key, value) =>
              let key :=
                if isCollectionTag key.tag then within .malformedConfig
                else deeper (build fuel key)
              both key (deeper (build fuel value)))
      let pairItems : Outcome (List Value) :=
        match node.items? with
        | none => within .malformedConfig
        | some items =>
            collect (items.map fun item =>
              match item.onlyPair? with
              | none => within .malformedConfig
              | some (key, value) =>
                  (both (deeper (build fuel key)) (deeper (build fuel value))).map
                    fun (key, value) => .pair key value)
      match node.tag with
      | .map => entries.map fun pairs => .map (Value.entriesOf pairs)
      | .set => entries.map fun pairs => .set ((Value.entriesOf pairs).map (·.1))
      | .seq =>
          match node.items? with
          | none => within .malformedConfig
          | some items => (collect (items.map fun item => deeper (build fuel item))).map .list
      | .omap | .pairs => pairItems.map .list
      | _ =>
          match node.scalarValue (fuel + 1) with
          | .ok value => .ok value
          | .error fault => here fault

end Node

/-- The value of a document. An empty one is null. -/
def valueOf (text : String) : Except Fault Value := do
  match ← Node.ofText text.toList with
  | none => return .null
  | some node => (node.build node.height).mapError (·.2)

end SlashBot.Yaml
