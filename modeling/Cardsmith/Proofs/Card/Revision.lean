import Cardsmith.Card.Revision
import Cardsmith.Proofs.Card.Editing

/-!
# Runs of a revision

A revision whose waiting paths all resolve, and none of whose waiting paths leads through another,
stays so whatever its visitor does, as long as the visitor leaves well-formed mappings.  So every
turn is a visit, and what no waiting path leads to keeps its place and its outline to the end.
-/

namespace Cardsmith
namespace Card

open Json

/-! ## Paths apart -/

def Path.Apart (p q : Path) : Prop := ¬ p <+: q ∧ ¬ q <+: p

theorem Path.Apart.symm {p q : Path} (h : Path.Apart p q) : Path.Apart q p :=
  ⟨h.right, h.left⟩

theorem Path.not_concat_prefix (p : Path) (step : Step) : ¬ p ++ [step] <+: p := by
  intro h
  have hlength := h.length_le
  rw [List.length_append, List.length_singleton] at hlength
  omega

theorem Path.Apart.concat {p q : Path} (h : Path.Apart p q) (step : Step) :
    Path.Apart p (q ++ [step]) := by
  constructor
  · intro hprefix
    rcases List.prefix_concat_iff.mp hprefix with heq | hshort
    · rw [heq] at h
      exact h.right (List.prefix_append q [step])
    · exact h.left hshort
  · intro hprefix
    exact h.right ((List.prefix_append q [step]).trans hprefix)

theorem Path.apart_concat_concat {p : Path} {s t : Step} (h : s ≠ t) :
    Path.Apart (p ++ [s]) (p ++ [t]) := by
  constructor
  · intro hprefix
    rw [List.prefix_append_right_inj, List.cons_prefix_cons] at hprefix
    exact h hprefix.left
  · intro hprefix
    rw [List.prefix_append_right_inj, List.cons_prefix_cons] at hprefix
    exact h hprefix.left.symm

/-! ## Waiting paths -/

theorem mem_below {w v : Waiting} {left : Mapping} (h : v ∈ w.below left) :
    ∃ found ∈ children left, v = ⟨w.path ++ [found.1], inherit w.above left⟩ := by
  rcases List.mem_map.mp h with ⟨found, hfound, rfl⟩
  exact ⟨found, hfound, rfl⟩

theorem below_pairwise_apart {left : Mapping} (h : Mapping.Distinct left) (w : Waiting) :
    (w.below left).Pairwise fun u v => Path.Apart u.path v.path := by
  rw [Waiting.below, List.pairwise_map]
  have hsteps := children_steps_nodup h
  rw [List.Nodup, List.pairwise_map] at hsteps
  refine hsteps.imp ?_
  intro a b hne
  exact Path.apart_concat_concat hne

namespace Revision

variable {σ : Type}

/-- The card is well-formed, every path that waits resolves in it, and the paths that wait are
apart from each other. -/
structure Coherent (r : Revision σ) : Prop where
  card : Mapping.WellFormed r.card
  resolves : ∀ w ∈ r.queue, ∃ node, resolve? r.card w.path = some node
  apart : r.queue.Pairwise fun v w => Path.Apart v.path w.path

theorem coherent_start {card : Card} (h : Mapping.WellFormed card) (memory : σ) :
    (start card memory).Coherent where
  card := h
  resolves := by
    intro w hw
    rw [start, List.mem_singleton] at hw
    rw [hw]
    exact ⟨card, rfl⟩
  apart := List.pairwise_singleton _ _

/-- A turn keeps a revision coherent, whatever mapping its visit leaves. -/
theorem Coherent.turn {card : Card} {w : Waiting} {queue : List Waiting} {memory memory' : σ}
    {node left : Mapping} (h : Coherent ⟨card, w :: queue, memory⟩)
    (hnode : resolve? card w.path = some node) (hleft : Mapping.WellFormed left) :
    Coherent ⟨put card w.path left, queue ++ w.below left, memory'⟩ := by
  have hapart := List.pairwise_cons.mp h.apart
  constructor
  · exact put_wellFormed h.card hleft w.path
  · intro v hv
    rcases List.mem_append.mp hv with hqueue | hbelow
    · have hbeside := hapart.left v hqueue
      rcases h.resolves v (List.mem_cons_of_mem _ hqueue) with ⟨found, hfound⟩
      refine ⟨found, ?_⟩
      rw [resolve?_put_beside hnode hbeside.left hbeside.right]
      exact hfound
    · rcases mem_below hbelow with ⟨⟨step, child⟩, hchild, rfl⟩
      have hstep := (mem_children hleft.distinct).mp hchild
      refine ⟨child, ?_⟩
      rw [resolve?_put_append hnode]
      simp [resolve?_cons, hstep]
  · rw [List.pairwise_append]
    refine ⟨hapart.right, below_pairwise_apart hleft.distinct w, ?_⟩
    intro u hu v hv
    rcases mem_below hv with ⟨found, _, rfl⟩
    exact (hapart.left u hu).symm.concat found.1

/-! ## Turns -/

theorem turn_nil (visitor : Visitor σ) (card : Card) (memory : σ) :
    turn visitor ⟨card, [], memory⟩ = none := rfl

theorem turn_cons {visitor : Visitor σ} {card : Card} {w : Waiting} {memory memory' : σ}
    {node left : Mapping} (hnode : resolve? card w.path = some node)
    (hvisit : visitor memory (w.visit node) = (left, memory')) (queue : List Waiting) :
    turn visitor ⟨card, w :: queue, memory⟩ =
      some (some ⟨w.visit node, left⟩,
        ⟨put card w.path left, queue ++ w.below left, memory'⟩) := by
  have hfound := resolve?_put_self hnode left
  simp [turn, editAt?_eq, hnode, hvisit, hfound]

/-- The turns of a run: each visits the path at the front of the queue and leaves a well-formed
mapping there. -/
inductive Runs (visitor : Visitor σ) : Revision σ → List Turn → Revision σ → Prop where
  | stop (r : Revision σ) : Runs visitor r [] r
  | turn {card : Card} {w : Waiting} {queue : List Waiting} {memory memory' : σ}
      {node left : Mapping} {turns : List Turn} {last : Revision σ} :
      resolve? card w.path = some node →
      visitor memory (w.visit node) = (left, memory') →
      Mapping.WellFormed left →
      Runs visitor ⟨put card w.path left, queue ++ w.below left, memory'⟩ turns last →
      Runs visitor ⟨card, w :: queue, memory⟩ (⟨w.visit node, left⟩ :: turns) last

/-- No turn of a coherent revision passes over a path. -/
theorem runs_of_run {visitor : Visitor σ} {limit : Nat} {r last : Revision σ}
    {turns : List Turn} (h : r.Coherent) (hrun : run visitor limit r = (turns, last))
    (hleft : ∀ t ∈ turns, Mapping.WellFormed t.left) : Runs visitor r turns last := by
  induction limit generalizing r turns with
  | zero =>
      cases hrun
      exact Runs.stop _
  | succ limit ih =>
      obtain ⟨card, queue, memory⟩ := r
      cases queue with
      | nil =>
          rw [run, turn_nil] at hrun
          cases hrun
          exact Runs.stop _
      | cons w queue =>
          rcases h.resolves w List.mem_cons_self with ⟨node, hnode⟩
          cases hvisit : visitor memory (w.visit node) with
          | mk left memory' =>
              rw [run, turn_cons hnode hvisit] at hrun
              cases hrest : run visitor limit
                  ⟨put card w.path left, queue ++ w.below left, memory'⟩ with
              | mk rest final =>
                  simp only [hrest] at hrun
                  cases hrun
                  have hturns : ∀ t ∈ (⟨w.visit node, left⟩ : Turn) :: rest,
                      Mapping.WellFormed t.left := hleft
                  have hwell : Mapping.WellFormed left := hturns _ List.mem_cons_self
                  refine Runs.turn hnode hvisit hwell (ih (h.turn hnode hwell) hrest ?_)
                  intro t ht
                  exact hturns t (List.mem_cons_of_mem _ ht)

theorem Runs.coherent {visitor : Visitor σ} {r last : Revision σ} {turns : List Turn}
    (hruns : Runs visitor r turns last) (h : r.Coherent) : last.Coherent := by
  induction hruns with
  | stop r => exact h
  | turn hnode _ hwell _ ih => exact ih (h.turn hnode hwell)

/-! ## What later turns keep -/

theorem Runs.resolve?_of_not_prefix {visitor : Visitor σ} {r last : Revision σ}
    {turns : List Turn} (hruns : Runs visitor r turns last) {path : Path} {found : Mapping}
    (hfound : resolve? r.card path = some found) (hqueue : ∀ w ∈ r.queue, ¬ w.path <+: path) :
    ∃ final, resolve? last.card path = some final ∧ outline final = outline found := by
  induction hruns generalizing found with
  | stop r => exact ⟨found, hfound, rfl⟩
  | @turn card w queue memory memory' node left turns last hnode _ _ _ ih =>
      have hfront : ¬ w.path <+: path := hqueue w List.mem_cons_self
      rcases resolve?_put_of_not_prefix hnode hfront hfound left with ⟨now, hnow, houtline⟩
      have hnext : ∀ v ∈ queue ++ w.below left, ¬ v.path <+: path := by
        intro v hv
        rcases List.mem_append.mp hv with hold | hnew
        · exact hqueue v (List.mem_cons_of_mem _ hold)
        · rcases mem_below hnew with ⟨found, _, rfl⟩
          intro hprefix
          exact hfront ((List.prefix_append w.path _).trans hprefix)
      rcases ih hnow hnext with ⟨final, hfinal, hsame⟩
      exact ⟨final, hfinal, hsame.trans houtline⟩

theorem Coherent.not_prefix_visited {card : Card} {w : Waiting} {queue : List Waiting}
    {memory : σ} (h : Coherent ⟨card, w :: queue, memory⟩) (left : Mapping) :
    ∀ v ∈ queue ++ w.below left, ¬ v.path <+: w.path := by
  intro v hv
  rcases List.mem_append.mp hv with hold | hnew
  · exact ((List.pairwise_cons.mp h.apart).left v hold).right
  · rcases mem_below hnew with ⟨found, _, rfl⟩
    exact Path.not_concat_prefix w.path found.1

/-- The mapping that a visit left has, to the end, its place and its outline. -/
theorem Runs.resolve?_left {visitor : Visitor σ} {r last : Revision σ} {turns : List Turn}
    (hruns : Runs visitor r turns last) (h : r.Coherent) :
    ∀ t ∈ turns, ∃ final,
      resolve? last.card t.visit.path = some final ∧ outline final = outline t.left := by
  induction hruns with
  | stop r =>
      intro t ht
      cases ht
  | @turn card w queue memory memory' node left turns last hnode _ hwell hrest ih =>
      intro t ht
      rcases List.mem_cons.mp ht with hhead | htail
      · rw [hhead]
        have hfound := resolve?_put_self hnode left
        exact hrest.resolve?_of_not_prefix hfound (h.not_prefix_visited left)
      · exact ih (h.turn hnode hwell) t htail

end Revision
end Card
end Cardsmith
