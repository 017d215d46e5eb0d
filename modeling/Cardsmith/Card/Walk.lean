import Cardsmith.Card.Path
import Cardsmith.Card.View

/-!
# Walking a card

The mappings of a card in breadth-first order: the card itself, then the mappings directly under
its fields or in arrays under its fields, then those below them.  Arrays inside arrays are not
searched.  Each node comes with its path, its parent and its inherited view.
-/

namespace Cardsmith
namespace Card

open Json

/-! ## Children -/

/-- The mappings among the items of the array under a key, the first item having the index
given. -/
def itemChildren (key : String) : Nat → List Value → List (Step × Mapping)
  | _, [] => []
  | index, .object child :: rest =>
      (.element key index, child) :: itemChildren key (index + 1) rest
  | index, _ :: rest => itemChildren key (index + 1) rest

def fieldChildren (key : String) : Value → List (Step × Mapping)
  | .object child => [(.field key, child)]
  | .array items => itemChildren key 0 items
  | _ => []

def children (node : Mapping) : List (Step × Mapping) :=
  node.flatMap fun (key, value) => fieldChildren key value

/-! ## Counting -/

mutual

/-- How many mappings a walk finds in a value that stands where one is looked for. -/
def valueNodeCount : Value → Nat
  | .object fields => 1 + fieldsNodeCount fields
  | _ => 0
termination_by structural v => v

def itemsNodeCount : List Value → Nat
  | [] => 0
  | item :: rest => valueNodeCount item + itemsNodeCount rest
termination_by structural items => items

def fieldsNodeCount : List (String × Value) → Nat
  | [] => 0
  | (_, .array items) :: rest => itemsNodeCount items + fieldsNodeCount rest
  | (_, v) :: rest => valueNodeCount v + fieldsNodeCount rest
termination_by structural fields => fields

end

def nodeCount (node : Mapping) : Nat := 1 + fieldsNodeCount node

/-! ## Nodes -/

structure Node where
  path : Path
  key : Option String
  node : Mapping
  parent : Option Mapping
  view : Mapping
  deriving Repr, DecidableEq

namespace Node

def depth (n : Node) : Nat := n.path.length

def root (card : Card) : Node := ⟨[], none, card, none, card⟩

def below (n : Node) : List Node :=
  (children n.node).map fun (step, child) =>
    ⟨n.path ++ [step], some step.key, child, some n.node, inherit n.view child⟩

end Node

/-! ## The walk -/

/-- Take at most the number of nodes given from a queue; a node taken puts the nodes below it at
the end of the queue. -/
def walkFrom : Nat → List Node → List Node
  | 0, _ => []
  | _ + 1, [] => []
  | limit + 1, n :: queue => n :: walkFrom limit (queue ++ n.below)

def walkFirst (limit : Nat) (card : Card) : List Node := walkFrom limit [Node.root card]

def walk (card : Card) : List Node := walkFirst (nodeCount card) card

end Card
end Cardsmith
