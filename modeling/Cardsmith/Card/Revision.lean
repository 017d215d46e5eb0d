import Cardsmith.Card.Walk

/-!
# Revising a card during a walk

A breadth-first walk in which a visitor may change every mapping it comes to.  The nodes below a
mapping are looked for after its visit, so the walk goes on into whatever the visitor left there,
and they inherit from the mapping as its visit left it.  A visitor may remember what it has seen;
nothing forces a revision to end, so it is given turn by turn.
-/

namespace Cardsmith
namespace Card

open Json

/-! ## Visits -/

structure Visit where
  path : Path
  key : Option String
  node : Mapping
  view : Mapping
  deriving Repr, DecidableEq

/-- A visitor: from what it remembers and a visit, the mapping it leaves and what it remembers
then. -/
abbrev Visitor (σ : Type) := σ → Visit → Mapping × σ

def Visitor.idle : Visitor Unit := fun memory visit => (visit.node, memory)

/-- A path that waits for its visit, with the view of the mapping above it. -/
structure Waiting where
  path : Path
  above : Mapping
  deriving Repr, DecidableEq

def Waiting.visit (w : Waiting) (node : Mapping) : Visit :=
  ⟨w.path, Path.lastKey? w.path, node, inherit w.above node⟩

/-- The paths below a mapping, as its visit left it. -/
def Waiting.below (w : Waiting) (left : Mapping) : List Waiting :=
  (children left).map fun (step, _) => ⟨w.path ++ [step], inherit w.above left⟩

structure Turn where
  visit : Visit
  left : Mapping
  deriving Repr, DecidableEq

/-! ## Turns -/

structure Revision (σ : Type) where
  card : Card
  queue : List Waiting
  memory : σ
  deriving Repr

namespace Revision

def start {σ : Type} (card : Card) (memory : σ) : Revision σ := ⟨card, [⟨[], []⟩], memory⟩

/-- Visit the mapping at the front of the queue.  A path that leads nowhere is passed over; after
the last turn there is none. -/
def turn {σ : Type} (visitor : Visitor σ) (r : Revision σ) : Option (Option Turn × Revision σ) :=
  match r.queue with
  | [] => none
  | w :: queue =>
      let edit := fun node =>
        let visit := w.visit node
        let (left, memory) := visitor r.memory visit
        ((visit, memory), left)
      match editAt? edit w.path r.card with
      | none => some (none, { r with queue := queue })
      | some ((visit, memory), card) =>
          match resolve? card w.path with
          | none => some (none, ⟨card, queue, memory⟩)
          | some left => some (some ⟨visit, left⟩, ⟨card, queue ++ w.below left, memory⟩)

def run {σ : Type} (visitor : Visitor σ) : Nat → Revision σ → List Turn × Revision σ
  | 0, r => ([], r)
  | limit + 1, r =>
      match turn visitor r with
      | none => ([], r)
      | some (turn?, next) =>
          let (turns, last) := run visitor limit next
          (turn?.toList ++ turns, last)

/-- How many nodes there are below the paths that wait, themselves included. -/
def remaining {σ : Type} (r : Revision σ) : Nat :=
  (r.queue.map fun w =>
    match resolve? r.card w.path with
    | some node => nodeCount node
    | none => 1).foldr (· + ·) 0

/-- Go on to the end with a visitor that adds no nodes. -/
def finish {σ : Type} (visitor : Visitor σ) (r : Revision σ) : List Turn × Revision σ :=
  run visitor r.remaining r

end Revision

end Card
end Cardsmith
