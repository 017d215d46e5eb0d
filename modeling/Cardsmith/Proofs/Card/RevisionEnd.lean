import Cardsmith.Proofs.Card.RevisionRun
import Cardsmith.Proofs.Card.RevisionView
import Cardsmith.Proofs.Card.RevisionWalk
import Cardsmith.Proofs.Card.Trimming

/-!
# Revisions that end

The nodes at and below the paths that wait bound the turns that are still to come, as long as no
visit leaves more nodes than it found: the visited mapping leaves the queue, and the nodes below
what its visit left come to it.  So a revision ends if its visitor stops adding nodes at some
visit, and in particular if it makes finitely many changes or only trims.
-/

namespace Cardsmith
namespace Card

open Json

namespace Revision

variable {σ : Type}

/-! ## Nodes that are still to come -/

/-- The mappings that the paths of a queue lead to. -/
def Awaits (card : Card) (queue : List Waiting) (nodes : List Mapping) : Prop :=
  (queue.map fun w => resolve? card w.path) = nodes.map some

theorem Coherent.exists_awaits {r : Revision σ} (h : r.Coherent) :
    ∃ nodes, Awaits r.card r.queue nodes := by
  refine ⟨r.queue.map fun w => (resolve? r.card w.path).getD [], ?_⟩
  rw [Awaits, List.map_map]
  apply List.map_congr_left
  intro w hw
  rcases h.resolves w hw with ⟨node, hnode⟩
  simp [hnode]

theorem remaining_eq {r : Revision σ} {nodes : List Mapping} (h : Awaits r.card r.queue nodes) :
    r.remaining = (nodes.map nodeCount).sum := by
  obtain ⟨card, queue, memory⟩ := r
  induction queue generalizing nodes with
  | nil =>
      have hnodes : nodes = [] := List.map_eq_nil_iff.mp h.symm
      rw [hnodes]
      rfl
  | cons w queue ih =>
      cases nodes with
      | nil => cases h
      | cons node nodes =>
          rw [Awaits, List.map_cons, List.map_cons, List.cons.injEq] at h
          rw [List.map_cons, List.sum_cons, ← ih h.right]
          simp only [remaining, List.map_cons, List.foldr_cons, h.left]

/-- After a visit the queue leads where it led before, but for the visited mapping, and to the
mappings below what the visit left. -/
theorem Coherent.awaits_turn {card : Card} {w : Waiting} {queue : List Waiting} {memory : σ}
    {node left : Mapping} {nodes : List Mapping} (h : Coherent ⟨card, w :: queue, memory⟩)
    (hnode : resolve? card w.path = some node) (hleft : Mapping.WellFormed left)
    (hnodes : Awaits card queue nodes) :
    Awaits (put card w.path left) (queue ++ w.below left)
      (nodes ++ (children left).map Prod.snd) := by
  have hold : (queue.map fun v => resolve? (put card w.path left) v.path) =
      queue.map fun v => resolve? card v.path := by
    apply List.map_congr_left
    intro v hv
    have hapart := (List.pairwise_cons.mp h.apart).left v hv
    exact resolve?_put_beside hnode hapart.left hapart.right left
  have hnew : ((w.below left).map fun v => resolve? (put card w.path left) v.path) =
      ((children left).map Prod.snd).map some := by
    rw [Waiting.below, List.map_map, List.map_map]
    apply List.map_congr_left
    rintro ⟨step, child⟩ hchild
    have hstep := (mem_children hleft.distinct).mp hchild
    exact resolve?_concat (resolve?_put_self hnode left) hstep
  rw [Awaits, List.map_append, List.map_append, hold, hnew, hnodes]

theorem sum_nodeCount_children (left : Mapping) :
    1 + (((children left).map Prod.snd).map nodeCount).sum = nodeCount left := by
  rw [nodeCount_eq, List.map_map]
  rfl

theorem remaining_pos (card : Card) (w : Waiting) (queue : List Waiting) (memory : σ) :
    0 < (⟨card, w :: queue, memory⟩ : Revision σ).remaining := by
  rw [remaining, List.map_cons, List.foldr_cons]
  apply Nat.add_pos_left
  split
  · rw [nodeCount]
    omega
  · omega

/-- A visit that leaves no more nodes than it found leaves fewer to come. -/
theorem Coherent.remaining_turn_lt {card : Card} {w : Waiting} {queue : List Waiting}
    {memory : σ} {node left : Mapping} (h : Coherent ⟨card, w :: queue, memory⟩)
    (hnode : resolve? card w.path = some node) (hleft : Mapping.WellFormed left)
    (hcount : nodeCount left ≤ nodeCount node) (memory' : σ) :
    (⟨put card w.path left, queue ++ w.below left, memory'⟩ : Revision σ).remaining <
      (⟨card, w :: queue, memory⟩ : Revision σ).remaining := by
  rcases h.exists_awaits with ⟨nodes, hnodes⟩
  cases nodes with
  | nil => cases hnodes
  | cons first nodes =>
      have hsplit := List.cons.inj hnodes
      have hfirst : some node = some first := hnode.symm.trans hsplit.left
      cases hfirst
      have hnext := remaining_eq (r := ⟨_, _, memory'⟩) (h.awaits_turn hnode hleft hsplit.right)
      have hbelow := sum_nodeCount_children left
      rw [hnext, remaining_eq hnodes, List.map_append, List.sum_append, List.map_cons,
        List.sum_cons]
      omega

/-! ## Coming to an end -/

theorem Coherent.queue_run_eq_nil {visitor : Visitor σ} {limit : Nat} {r : Revision σ}
    (h : r.Coherent) (hlimit : r.remaining ≤ limit)
    (hleft : ∀ t, Takes visitor r t → Mapping.WellFormed t.left)
    (hcount : ∀ t, Takes visitor r t → nodeCount t.left ≤ nodeCount t.visit.node) :
    (run visitor limit r).2.queue = [] := by
  induction limit generalizing r with
  | zero =>
      obtain ⟨card, queue, memory⟩ := r
      cases queue with
      | nil => rfl
      | cons w queue =>
          have hpos := remaining_pos card w queue memory
          omega
  | succ limit ih =>
      obtain ⟨card, queue, memory⟩ := r
      cases queue with
      | nil => rw [run_of_nil rfl]
      | cons w queue =>
          rcases h.resolves w List.mem_cons_self with ⟨node, hnode⟩
          cases hvisit : visitor memory (w.visit node) with
          | mk left memory' =>
              have hturn := turn_cons hnode hvisit queue
              have hwell : Mapping.WellFormed left := hleft _ (takes_of_turn hturn)
              have hless := h.remaining_turn_lt hnode hwell (hcount _ (takes_of_turn hturn)) memory'
              rw [run_succ_of_turn hturn]
              apply ih (h.turn hnode hwell)
              · omega
              · intro t ht
                exact hleft t (ht.after_turn hturn)
              · intro t ht
                exact hcount t (ht.after_turn hturn)

def changes (turns : List Turn) : Nat := turns.countP fun t => t.left ≠ t.visit.node

theorem changes_append (before after : List Turn) :
    changes (before ++ after) = changes before + changes after :=
  List.countP_append

/-- A revision of which only so many turns change something changes nothing from some turn on. -/
theorem exists_unchanged {visitor : Visitor σ} {bound : Nat} {r : Revision σ}
    (h : ∀ count, changes (run visitor count r).1 ≤ bound) :
    ∃ limit, ∀ t, Takes visitor (run visitor limit r).2 t → t.left = t.visit.node := by
  -- The induction is on the changes still to come: after one of them there are fewer.
  induction bound generalizing r with
  | zero =>
      refine ⟨0, ?_⟩
      rintro t ⟨count, ht⟩
      have hnone := List.countP_eq_zero.mp (Nat.le_zero.mp (h count)) t ht
      simpa using hnone
  | succ bound ih =>
      by_cases hsame : ∀ t, Takes visitor r t → t.left = t.visit.node
      · exact ⟨0, hsame⟩
      · simp only [not_forall] at hsame
        rcases hsame with ⟨t, ⟨first, ht⟩, hchange⟩
        have hfirst : 0 < changes (run visitor first r).1 :=
          List.countP_pos_iff.mpr ⟨t, ht, by simpa using hchange⟩
        have hfewer : ∀ count,
            changes (run visitor count (run visitor first r).2).1 ≤ bound := by
          intro count
          have hboth := h (first + count)
          rw [run_add, changes_append] at hboth
          omega
        rcases ih hfewer with ⟨limit, hlimit⟩
        refine ⟨first + limit, ?_⟩
        rw [run_add]
        exact hlimit

theorem coherent_run {visitor : Visitor σ} {memory : σ} {card : Card}
    (hcard : Mapping.WellFormed card)
    (hleft : ∀ t, Takes visitor (start card memory) t → Mapping.WellFormed t.left)
    (limit : Nat) : (run visitor limit (start card memory)).2.Coherent := by
  have hstart := coherent_start hcard memory
  have hturns : ∀ t ∈ (run visitor limit (start card memory)).1, Mapping.WellFormed t.left := by
    intro t ht
    exact hleft t ⟨limit, ht⟩
  exact (runs_of_run hstart rfl hturns).coherent hstart

theorem queue_finish_eq_nil {visitor : Visitor σ} {memory : σ} {card : Card}
    (hcard : Mapping.WellFormed card)
    (hleft : ∀ t, Takes visitor (start card memory) t → Mapping.WellFormed t.left) (limit : Nat)
    (hcount : ∀ t, Takes visitor (run visitor limit (start card memory)).2 t →
      nodeCount t.left ≤ nodeCount t.visit.node) :
    (finish visitor (run visitor limit (start card memory)).2).2.queue = [] := by
  apply (coherent_run hcard hleft limit).queue_run_eq_nil (Nat.le_refl _)
  · intro t ht
    exact hleft t ht.of_later
  · exact hcount

theorem uncovering_trims (visit : Visit) : Trimmed visit.node (uncovering () visit).1 := by
  rw [uncovering]
  split_ifs
  · have hremove : Trim (.object visit.node)
        (.object ((Edit.remove "x").apply visit.node)) := Trim.edit trivial
    have hset : Trim (.object ((Edit.remove "x").apply visit.node))
        (.object ((Edit.set "y" (.bool true)).apply ((Edit.remove "x").apply visit.node))) :=
      Trim.edit trivial
    exact (Relation.ReflTransGen.single hremove).tail hset
  · exact Relation.ReflTransGen.refl

/-! ## Main result -/

/-- From any turn on, as long as no visit leaves more nodes than it found, a revision ends, and
takes no more turns than there are nodes at and below the paths that wait at that turn.  So a
revision ends if only so many of its visits change something, and if its visits only trim what
they find. -/
theorem revision_ends_unless_nodes_are_added (visitor : Visitor σ) (memory : σ) (card : Card)
    (hcard : Mapping.WellFormed card)
    (hleft : ∀ t, Takes visitor (start card memory) t → Mapping.WellFormed t.left) :
    (∀ limit turns r, run visitor limit (start card memory) = (turns, r) →
      (∀ t, Takes visitor r t → (walk t.left).length ≤ (walk t.visit.node).length) →
        ∃ (nodes : List Mapping) (later : List Turn) (last : Revision σ),
          (r.queue.map fun w => resolve? r.card w.path) = nodes.map some ∧
          r.remaining = (nodes.map fun node => (walk node).length).sum ∧
          finish visitor r = (later, last) ∧ later.length ≤ r.remaining ∧ last.queue = [] ∧
          run visitor (limit + r.remaining) (start card memory) = (turns ++ later, last)) ∧
      ((∃ bound, ∀ count, changes (run visitor count (start card memory)).1 ≤ bound) →
        Ends visitor (start card memory)) ∧
      ((∀ t, Takes visitor (start card memory) t → Trimmed t.visit.node t.left) →
        Ends visitor (start card memory)) := by
  refine ⟨?_, ?_, ?_⟩
  · intro limit turns r hrun hcount
    have hlast : (run visitor limit (start card memory)).2 = r := congrArg Prod.snd hrun
    rw [← hlast] at hcount ⊢
    rcases (coherent_run hcard hleft limit).exists_awaits with ⟨nodes, hnodes⟩
    refine ⟨nodes, _, _, hnodes, ?_, rfl, length_run_le visitor _ _, ?_, ?_⟩
    · simp only [length_walk]
      exact remaining_eq hnodes
    · apply queue_finish_eq_nil hcard hleft limit
      intro t ht
      have hwalk := hcount t ht
      rwa [length_walk, length_walk] at hwalk
    · rw [run_add, hrun]
  · rintro ⟨bound, hbound⟩
    rcases exists_unchanged hbound with ⟨limit, hlimit⟩
    refine Ends.of_later ⟨_, queue_finish_eq_nil hcard hleft limit ?_⟩
    intro t ht
    rw [hlimit t ht]
  · intro htrim
    refine ⟨_, queue_finish_eq_nil hcard hleft 0 ?_⟩
    intro t ht
    exact (htrim t ht).nodeCount_le

theorem regrafting_and_uncovering_end :
    Mapping.WellFormed twins ∧ Mapping.WellFormed layered ∧
      (∀ t, Takes regrafting (start twins 0) t → Mapping.WellFormed t.left) ∧
      (∀ t, Takes regrafting (run regrafting 2 (start twins 0)).2 t →
        (walk t.left).length ≤ (walk t.visit.node).length) ∧
      (finish regrafting (run regrafting 2 (start twins 0)).2).2.queue = [] ∧
      (∀ count, changes (run regrafting count (start twins 0)).1 ≤ 2) ∧
      Ends regrafting (start twins 0) ∧
      (∀ t, Takes uncovering (start layered ()) t → Trimmed t.visit.node t.left) ∧
      Ends uncovering (start layered ()) := by
  have hend : (run regrafting 8 (start twins 0)).2.queue = [] := by decide
  have hrest : (run regrafting 6 (run regrafting 2 (start twins 0)).2).2.queue = [] := by decide
  have hdone : (run uncovering 3 (start layered ())).2.queue = [] := by decide
  have hleft : ∀ t, Takes regrafting (start twins 0) t → Mapping.WellFormed t.left := by
    have hturns : ∀ t ∈ (run regrafting 8 (start twins 0)).1, Mapping.WellFormed t.left := by
      decide
    intro t ht
    exact hturns t (ht.mem_of_end hend)
  have hcount : ∀ t, Takes regrafting (run regrafting 2 (start twins 0)).2 t →
      (walk t.left).length ≤ (walk t.visit.node).length := by
    have hturns : ∀ t ∈ (run regrafting 6 (run regrafting 2 (start twins 0)).2).1,
        (walk t.left).length ≤ (walk t.visit.node).length := by
      decide
    intro t ht
    exact hturns t (ht.mem_of_end hrest)
  have hchanges : ∀ count, changes (run regrafting count (start twins 0)).1 ≤ 2 := by
    intro count
    have htotal : changes (run regrafting 8 (start twins 0)).1 = 2 := by decide
    have hle : changes (run regrafting count (start twins 0)).1 ≤
        changes (run regrafting 8 (start twins 0)).1 :=
      (run_prefix_of_end hend count).sublist.countP_le
    omega
  have hturns : ∀ t ∈ (run uncovering 3 (start layered ())).1,
      Mapping.WellFormed t.left ∧ t.left = (uncovering () t.visit).1 := by
    decide
  have htrim : ∀ t, Takes uncovering (start layered ()) t → Trimmed t.visit.node t.left := by
    intro t ht
    rw [(hturns t (ht.mem_of_end hdone)).right]
    exact uncovering_trims t.visit
  have hwell : Mapping.WellFormed twins := by decide
  have hlayered : Mapping.WellFormed layered := by decide
  have hmain := revision_ends_unless_nodes_are_added regrafting 0 twins hwell hleft
  have hother := revision_ends_unless_nodes_are_added uncovering () layered hlayered
    fun t ht => (hturns t (ht.mem_of_end hdone)).left
  have hrun : run regrafting 2 (start twins 0) =
      ((run regrafting 2 (start twins 0)).1, (run regrafting 2 (start twins 0)).2) := rfl
  rcases hmain.left 2 _ _ hrun hcount with ⟨_, later, last, _, _, hfinish, _, hqueue, _⟩
  refine ⟨hwell, hlayered, hleft, hcount, ?_, hchanges, hmain.right.left ⟨2, hchanges⟩, htrim,
    hother.right.right htrim⟩
  rw [hfinish]
  exact hqueue

end Revision
end Card
end Cardsmith
