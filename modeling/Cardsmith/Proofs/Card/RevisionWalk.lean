import Cardsmith.Proofs.Card.BreadthFirst
import Cardsmith.Proofs.Card.Revision

/-!
# Revisions and walks

A revision that ends has visited exactly the paths of a walk of the card it ends with, in the
order of that walk: what a visit leaves keeps its outline, so the children found then are the
children the finished card has.  A visitor that changes nothing is shown what a walk lists.
-/

namespace Cardsmith
namespace Card

open Json

variable {σ : Type}

namespace Revision

/-! ## The paths visited -/

theorem map_path_below {w : Waiting} {left : Mapping} {n : Node} (hpath : n.path = w.path)
    (houtline : outline n.node = outline left) :
    n.below.map Node.path = (w.below left).map Waiting.path := by
  have hsteps := congrArg (List.map fun step => w.path ++ [step]) (map_fst_children_eq houtline)
  rw [List.map_map, List.map_map] at hsteps
  rw [Node.below, Waiting.below, List.map_map, List.map_map, hpath]
  exact hsteps

/-- The turns of a run that ends visit the paths of a walk through the last card that starts with
the same paths. -/
theorem Runs.map_path_eq_walkFrom {visitor : Visitor σ} {r last : Revision σ}
    {turns : List Turn} (hruns : Runs visitor r turns last) (h : r.Coherent)
    (hend : last.queue = []) {ns : List Node}
    (hpaths : ns.map Node.path = r.queue.map Waiting.path)
    (hnodes : ∀ n ∈ ns, resolve? last.card n.path = some n.node) (extra : Nat) :
    (walkFrom (turns.length + extra) ns).map Node.path =
      turns.map fun t => t.visit.path := by
  induction hruns generalizing ns with
  | stop r =>
      rw [hend, List.map_nil, List.map_eq_nil_iff] at hpaths
      rw [hpaths, walkFrom_nil]
      rfl
  | @turn card w queue memory memory' node left turns last hnode hvisit hwell hrest ih =>
      have hlast := hrest.coherent (h.turn hnode hwell)
      rcases (Runs.turn hnode hvisit hwell hrest).resolve?_left h _ List.mem_cons_self with
        ⟨final, hfinal, houtline⟩
      cases ns with
      | nil => simp at hpaths
      | cons n rest =>
          simp only [List.map_cons, List.cons.injEq] at hpaths
          have hn : resolve? last.card w.path = some n.node := by
            rw [← hpaths.left]
            exact hnodes n List.mem_cons_self
          have hsame : final = n.node := by
            have hboth : some final = some n.node := hfinal.symm.trans hn
            exact Option.some.inj hboth
          rw [hsame] at houtline
          have hnext : ∀ m ∈ rest ++ n.below, resolve? last.card m.path = some m.node := by
            intro m hm
            rcases List.mem_append.mp hm with hold | hnew
            · exact hnodes m (List.mem_cons_of_mem _ hold)
            · exact Node.resolve?_below hlast.card (hnodes n List.mem_cons_self) hnew
          have hqueue : (rest ++ n.below).map Node.path =
              (queue ++ w.below left).map Waiting.path := by
            rw [List.map_append, List.map_append, hpaths.right,
              map_path_below hpaths.left houtline]
          rw [List.length_cons, Nat.add_right_comm, walkFrom, List.map_cons, List.map_cons,
            hpaths.left, ih (h.turn hnode hwell) hend hqueue hnext]
          rfl

theorem Runs.map_path_eq_walk {visitor : Visitor σ} {card : Card} {memory : σ}
    {last : Revision σ} {turns : List Turn}
    (hruns : Runs visitor (start card memory) turns last) (h : Mapping.WellFormed card)
    (hend : last.queue = []) :
    (turns.map fun t => t.visit.path) = (walk last.card).map Node.path := by
  have hnodes : ∀ n ∈ [Node.root last.card], resolve? last.card n.path = some n.node := by
    intro n hn
    rw [List.mem_singleton] at hn
    rw [hn]
    rfl
  rw [walk_eq_walkFrom (Nat.le_add_left (nodeCount last.card) turns.length)]
  exact (hruns.map_path_eq_walkFrom (coherent_start h memory) hend rfl hnodes _).symm

end Revision

/-! ## A visitor that changes nothing -/

def Node.visit (n : Node) : Visit := ⟨n.path, n.key, n.node, n.view⟩

/-- A path waits for the visit that shows a node of the card. -/
structure Waiting.Shows (card : Card) (w : Waiting) (n : Node) : Prop where
  node : resolve? card w.path = some n.node
  visit : w.visit n.node = n.visit

theorem Waiting.Shows.path {card : Card} {w : Waiting} {n : Node} (h : w.Shows card n) :
    w.path = n.path :=
  congrArg Visit.path h.visit

theorem Waiting.Shows.below {card : Card} (hcard : Mapping.WellFormed card) {w : Waiting}
    {n : Node} (h : w.Shows card n) :
    List.Forall₂ (Waiting.Shows card) (w.below n.node) n.below := by
  rw [Waiting.below, Node.below, List.forall₂_map_left_iff, List.forall₂_map_right_iff,
    List.forall₂_same]
  rintro ⟨step, child⟩ hchild
  have hstep := (mem_children (resolve?_wellFormed hcard h.node).distinct).mp hchild
  have hview : inherit w.above n.node = n.view := congrArg Visit.view h.visit
  constructor
  · exact resolve?_concat h.node hstep
  · rw [Waiting.visit, Node.visit, lastKey?_concat, hview, h.path]

theorem Waiting.shows_root {card : Card} (hcard : Mapping.WellFormed card) :
    (⟨[], []⟩ : Waiting).Shows card (Node.root card) := by
  constructor
  · rfl
  · have hview : inherit [] card = card := Mapping.merge_nil_left hcard.distinct
    exact congrArg (fun view => (⟨[], none, card, view⟩ : Visit)) hview

namespace Revision

/-- A visitor that changes nothing is shown the nodes that a walk with the same queue lists, and
the card stays as it is. -/
theorem run_of_unchanged {visitor : Visitor σ}
    (hsame : ∀ memory visit, (visitor memory visit).1 = visit.node) {card : Card}
    (hcard : Mapping.WellFormed card) (limit : Nat) {queue : List Waiting} {ns : List Node}
    (hqueue : List.Forall₂ (Waiting.Shows card) queue ns) (memory : σ) :
    ∃ turns rest memory', run visitor limit ⟨card, queue, memory⟩ = (turns, ⟨card, rest, memory'⟩) ∧
      turns.map Turn.visit = (walkFrom limit ns).map Node.visit ∧
      (totalNodes ns ≤ limit → rest = []) := by
  induction limit generalizing queue ns memory with
  | zero =>
      refine ⟨[], queue, memory, rfl, rfl, ?_⟩
      intro hlimit
      cases hqueue with
      | nil => rfl
      | @cons w n queue ns _ _ =>
          rw [totalNodes_cons, nodeCount] at hlimit
          omega
  | succ limit ih =>
      cases hqueue with
      | nil => exact ⟨[], [], memory, rfl, rfl, fun _ => rfl⟩
      | @cons w n queue ns hfront hrest =>
          cases hvisit : visitor memory (w.visit n.node) with
          | mk left memory' =>
              have hleft : left = n.node := by
                have hunchanged := hsame memory (w.visit n.node)
                rw [hvisit] at hunchanged
                exact hunchanged
              have hnext := List.rel_append hrest (hfront.below hcard)
              rcases ih hnext memory' with ⟨turns, rest, memory'', hrun, hturns, hend⟩
              refine ⟨⟨w.visit n.node, left⟩ :: turns, rest, memory'', ?_, ?_, ?_⟩
              · rw [run, turn_cons hfront.node hvisit, hleft, put_self hfront.node]
                simp [hrun]
              · rw [walkFrom, List.map_cons, List.map_cons, hturns, hfront.visit]
              · intro hlimit
                apply hend
                rw [totalNodes_cons, nodeCount_eq_totalNodes_below] at hlimit
                rw [totalNodes_append]
                omega

/-! ## Main result -/

/-- A revision that ends has visited the paths of a walk of the last card, in order, and every
mapping it visited has ended with the fields in the order in which the visit left them, and with
the same plain values in them.  A visitor that changes nothing comes to an end, leaves the card as
it is, and is shown the nodes of a walk of the card. -/
theorem revision_visits_walk_of_last_card (visitor : Visitor σ) (memory : σ) (card : Card)
    (hcard : Mapping.WellFormed card) :
    (∀ limit turns last, run visitor limit (start card memory) = (turns, last) →
      (∀ t ∈ turns, Mapping.WellFormed t.left) → last.queue = [] →
        (turns.map fun t => t.visit.path) = (walk last.card).map Node.path ∧
          ∀ t ∈ turns, ∃ final, resolve? last.card t.visit.path = some final ∧
            final.keys = t.left.keys ∧
            ∀ key value, IsPlain value →
              (final.get? key = some value ↔ t.left.get? key = some value)) ∧
      ((∀ memory visit, (visitor memory visit).1 = visit.node) →
        ∃ turns last, run visitor (nodeCount card) (start card memory) = (turns, last) ∧
          last.queue = [] ∧ last.card = card ∧
          turns.map Turn.visit = (walk card).map Node.visit) := by
  constructor
  · intro limit turns last hrun hleft hend
    have hstart := coherent_start hcard memory
    have hruns := runs_of_run hstart hrun hleft
    refine ⟨hruns.map_path_eq_walk hcard hend, ?_⟩
    intro t ht
    rcases hruns.resolve?_left hstart t ht with ⟨final, hfinal, houtline⟩
    refine ⟨final, hfinal, ?_, ?_⟩
    · rw [← keys_outline final, houtline, keys_outline]
    · intro key value hplain
      exact get?_eq_some_iff_of_outline_eq houtline key hplain
  · intro hsame
    have hqueue : List.Forall₂ (Waiting.Shows card) [⟨[], []⟩] [Node.root card] :=
      List.Forall₂.cons (Waiting.shows_root hcard) List.Forall₂.nil
    rcases run_of_unchanged hsame hcard (nodeCount card) hqueue memory with
      ⟨turns, rest, memory', hrun, hturns, hend⟩
    refine ⟨turns, ⟨card, rest, memory'⟩, hrun, ?_, rfl, hturns⟩
    exact hend (Nat.le_of_eq (totalNodes_root card))

/-- A visitor that counts its visits: at the first it puts a mapping in front of what the card
holds, and at the second it replaces what is below the mapping by two others. -/
def regrafting : Visitor Nat := fun visits visit =>
  match visits with
  | 0 => (("graft", .object [("old", .object [])]) :: visit.node, 1)
  | 1 => ([("twig", .array [.null, .object []]), ("leaf", .object [])], 2)
  | visits + 2 => (visit.node, visits + 3)

theorem regrafting_visits_walk_of_last_card :
    Mapping.WellFormed twins ∧
      (∃ turns last, run regrafting 8 (start twins 0) = (turns, last) ∧
        (∀ t ∈ turns, Mapping.WellFormed t.left) ∧ last.queue = [] ∧
        (turns.map fun t => t.visit.path) = (walk last.card).map Node.path) ∧
      ∃ turns last, run Visitor.idle (nodeCount twins) (start twins ()) = (turns, last) ∧
        last.queue = [] ∧ last.card = twins ∧
        turns.map Turn.visit = (walk twins).map Node.visit := by
  have hwell : Mapping.WellFormed twins := by decide
  have hleft : ∀ t ∈ (run regrafting 8 (start twins 0)).1, Mapping.WellFormed t.left := by
    decide
  have hend : (run regrafting 8 (start twins 0)).2.queue = [] := by decide
  have hmain := (revision_visits_walk_of_last_card regrafting 0 twins hwell).left 8 _ _ rfl
  have hidle := (revision_visits_walk_of_last_card Visitor.idle () twins hwell).right
  exact ⟨hwell, ⟨_, _, rfl, hleft, hend, (hmain hleft hend).left⟩, hidle fun _ _ => rfl⟩

end Revision
end Card
end Cardsmith
