import Cardsmith.Proofs.Card.BreadthFirst
import Cardsmith.Proofs.Card.View

/-!
# Views of a walk

The view of a node is made from the view of the node above it, one step at a time.  Along a whole
path that comes to the view of the mappings on the way: every key has the value that the closest
of them gives it, and stands where the outermost of them has it.
-/

namespace Cardsmith
namespace Card

open Json

def Node.Framed (card : Card) (n : Node) : Prop :=
  ∃ above : List Mapping,
    OnTheWay card n.path (above ++ [n.node]) ∧ n.view = viewOf (above ++ [n.node])

theorem viewOf_singleton {m : Mapping} (h : Mapping.Distinct m) : viewOf [m] = m :=
  Mapping.merge_nil_left h

theorem Node.framed_root {card : Card} (h : Mapping.WellFormed card) :
    (Node.root card).Framed card :=
  ⟨[], onTheWay_nil_iff.mpr rfl, (viewOf_singleton h.distinct).symm⟩

theorem Node.Framed.below {card : Card} {n m : Node} (h : n.Framed card)
    (hm : m ∈ n.below) (hnode : resolve? card m.path = some m.node) : m.Framed card := by
  rcases h with ⟨above, habove, hview⟩
  rcases List.mem_map.mp hm with ⟨⟨step, child⟩, _, rfl⟩
  refine ⟨above ++ [n.node], habove.concat hnode, ?_⟩
  rw [viewOf_concat, ← hview]

theorem framed_of_mem_walk {card : Card} (h : Mapping.WellFormed card) :
    ∀ n ∈ walk card, n.Framed card := by
  have hboth : ∀ n ∈ walk card, resolve? card n.path = some n.node ∧ n.Framed card := by
    apply forall_mem_walkFrom
    · intro n hn m hm
      have hnode := Node.resolve?_below h hn.left hm
      exact ⟨hnode, hn.right.below hm hnode⟩
    · intro n hn
      rw [List.mem_singleton] at hn
      rw [hn]
      exact ⟨rfl, Node.framed_root h⟩
  intro n hn
  exact (hboth n hn).right

theorem OnTheWay.distinct {card : Card} (h : Mapping.WellFormed card) {path : Path}
    {chain : List Mapping} (hchain : OnTheWay card path chain) :
    ∀ m ∈ chain, Mapping.Distinct m := by
  intro m hm
  rcases hchain.mem hm with ⟨above, _, habove⟩
  exact (resolve?_wellFormed h habove).distinct

/-! ## Main result -/

/-- Every node that a walk comes to shows, under each key, the value that the closest mapping on
the way to it gives the key, whole, and no other keys; the keys stand where they appear first on
the way inwards, so those of a node above come first, in the same order, whoever overrides them.
The card shows itself. -/
theorem view_of_walk_node (card : Card) (h : Mapping.WellFormed card) :
    ∀ n ∈ walk card,
      (∃ above : List Mapping,
        n.path.inits.map (resolve? card) = (above ++ [n.node]).map some ∧
          (∀ key, n.view.get? key = closest? (above ++ [n.node]) key) ∧
          n.view.keys = ((above ++ [n.node]).flatMap Mapping.keys).eraseDups) ∧
        (∀ m ∈ walk card, m.path <+: n.path → m.view.keys <+: n.view.keys) ∧
        (n.path = [] → n.view = card) := by
  intro n hn
  rcases framed_of_mem_walk h n hn with ⟨above, hway, hview⟩
  have hkeys : n.view.keys = ((above ++ [n.node]).flatMap Mapping.keys).eraseDups := by
    rw [hview]
    exact keys_viewOf _
  refine ⟨⟨above, hway, ?_, hkeys⟩, ?_, ?_⟩
  · intro key
    rw [hview]
    exact get?_viewOf (hway.distinct h) key
  · intro m hm habove
    rcases framed_of_mem_walk h m hm with ⟨outer, houter, houterView⟩
    rw [hview, houterView]
    exact keys_viewOf_outer (houter.chain_above hway habove)
  · intro hroot
    rw [hroot] at hway
    rw [hview, onTheWay_nil_iff.mp hway]
    exact viewOf_singleton h.distinct

/-- A card with a key that is there on all levels, each time with another mapping under it. -/
def overridden : Card :=
  [("a", .array [.null,
      .object [("x", .object [("y", .null)]), ("b", .object [("c", .null), ("x", .object [])])]]),
    ("x", .object [("z", .null)])]

theorem overridden_view_of_inner_node :
    Mapping.WellFormed overridden ∧
      ∃ n ∈ walk overridden, n.path = [.element "a" 1, .field "b"] ∧
        n.view.get? "x" = some (.object []) ∧ n.view.keys = ["a", "x", "b", "c"] := by
  have hwell : Mapping.WellFormed overridden := by decide
  let inner : Node := (walk overridden).get ⟨4, by decide⟩
  have hmem : inner ∈ walk overridden := List.get_mem _ _
  rcases (view_of_walk_node overridden hwell _ hmem).left with ⟨above, hway, hget, hkeys⟩
  have hchain : (above ++ [inner.node]).map some =
      [overridden, [("x", .object [("y", .null)]), ("b", .object [("c", .null), ("x", .object [])])],
        [("c", .null), ("x", .object [])]].map some := by
    rw [← hway]
    decide
  have habove := List.map_injective_iff.mpr (fun _ _ => Option.some.inj) hchain
  refine ⟨hwell, _, hmem, by decide, ?_, ?_⟩
  · rw [hget, habove]
    decide
  · rw [hkeys, habove]
    decide

end Card
end Cardsmith
