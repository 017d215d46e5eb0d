import Cardsmith.Card.Revision

/-!
# Rules for revising cards

A rule says which mappings it is for and which edits it makes there.  Rules are tried in order on
every mapping a walk comes to, each on what the rules before it left.
-/

namespace Cardsmith
namespace Card

open Json

/-! ## Edits -/

inductive Edit where
  | set (key : String) (value : Value)
  /-- Take a field away; the others keep their order. -/
  | remove (key : String)
  | clear
  deriving Repr, DecidableEq

def Edit.apply (edit : Edit) (node : Mapping) : Mapping :=
  match edit with
  | .set key value => node.insert key value
  | .remove key => node.remove key
  | .clear => []

def Edit.replaced? (edit : Edit) (node : Mapping) : Option Value :=
  match edit with
  | .set key _ => node.get? key
  | .remove key => node.get? key
  | .clear => none

def Edit.at? (edit : Edit) (path : Path) (card : Card) : Option (Option Value × Card) :=
  editAt? (fun node => (edit.replaced? node, edit.apply node)) path card

/-! ## Rules -/

/-- Edits, and the conditions that a mapping has to meet for them; a condition not given is
met. -/
structure Rule where
  key : Option (Option String)
  path : Option String
  has : Option String
  viewHas : Option String
  edits : List Edit
  deriving Repr

namespace Rule

def holds {α : Type} (condition : Option α) (test : α → Bool) : Bool :=
  match condition with
  | some a => test a
  | none => true

def applies (rule : Rule) (visit : Visit) (now : Mapping) : Bool :=
  holds rule.key (fun key => key = visit.key) &&
    holds rule.path (fun path => path = Path.pointer visit.path) &&
    holds rule.has (fun key => (now.get? key).isSome) &&
    holds rule.viewHas (fun key => (visit.view.get? key).isSome)

/-- Make the edits of the rules, the first of which has the number given, that are for a mapping:
the mapping left and the numbers of those rules. -/
def applyFrom (visit : Visit) : Nat → List Rule → Mapping → Mapping × List Nat
  | _, [], now => (now, [])
  | number, rule :: rest, now =>
      if rule.applies visit now then
        let edited := rule.edits.foldl (fun node edit => edit.apply node) now
        let (left, numbers) := applyFrom visit (number + 1) rest edited
        (left, number :: numbers)
      else applyFrom visit (number + 1) rest now

/-- What a visitor that follows rules remembers: at how many more mappings it may edit, and the
numbers of the rules it applied at each visit so far, last visit first. -/
structure Memory where
  left : Nat
  applied : List (List Nat)
  deriving Repr

def visitor (rules : List Rule) : Visitor Memory := fun memory visit =>
  match memory.left with
  | 0 => (visit.node, ⟨0, [] :: memory.applied⟩)
  | left + 1 =>
      let (node, numbers) := applyFrom visit 0 rules visit.node
      (node, ⟨left, numbers :: memory.applied⟩)

/-- Revise a card by rules that are followed at the first `limit` visits: the visits with the
numbers of the rules applied there, and the card at the end. -/
def revise (rules : List Rule) (limit : Nat) (card : Card) : List (Visit × List Nat) × Card :=
  let (early, middle) := Revision.run (visitor rules) limit (Revision.start card ⟨limit, []⟩)
  let (late, last) := Revision.finish (visitor rules) middle
  (((early ++ late).map Turn.visit).zip last.memory.applied.reverse, last.card)

end Rule

end Card
end Cardsmith
