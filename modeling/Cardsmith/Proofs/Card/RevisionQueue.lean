import Cardsmith.Proofs.Card.RevisionView

/-!
# The queue of a revision

Between two turns, and also while a visitor changes a mapping and while the paths found there are
put in the queue, every path in hand leads to a mapping of the card as it is, none leads through
another, and their depths never decrease and differ by at most one.  So no path is passed over:
what has been found so far is what has been visited, followed by what waits.
-/

namespace Cardsmith
namespace Card

open Json

/-! ## Depths -/

/-- One path may come before another in a queue that goes level by level: the other is as deep, or
one step deeper. -/
def Path.Precedes (p q : Path) : Prop := p.length ≤ q.length ∧ q.length ≤ p.length + 1

theorem map_path_waiting_below (w : Waiting) (left : Mapping) :
    (w.below left).map Waiting.path = (children left).map fun found => w.path ++ [found.1] := by
  rw [Waiting.below, List.map_map]
  rfl

theorem pairwise_precedes_below {w : Waiting} {queue : List Waiting}
    (h : (w :: queue).Pairwise fun u v => Path.Precedes u.path v.path) (left : Mapping) :
    (queue ++ w.below left).Pairwise fun u v => Path.Precedes u.path v.path := by
  rw [List.pairwise_cons] at h
  have hdepth : ∀ v ∈ w.below left, v.path.length = w.path.length + 1 := by
    intro v hv
    rcases mem_below hv with ⟨found, _, rfl⟩
    simp
  rw [List.pairwise_append]
  refine ⟨h.right, List.pairwise_of_forall_mem_list ?_, ?_⟩
  · intro u hu v hv
    rw [Path.Precedes, hdepth u hu, hdepth v hv]
    omega
  · intro u hu v hv
    have hfront := h.left u hu
    rw [Path.Precedes] at hfront ⊢
    rw [hdepth v hv]
    omega

/-! ## Moments -/

/-- What a revision has in hand at one moment. -/
structure Moment where
  card : Card
  visited : Option Path
  waiting : List Path

def Moment.paths (m : Moment) : List Path := m.visited.toList ++ m.waiting

/-- Every path in hand leads to a mapping, none leads through another, and their depths never
decrease and differ by at most one. -/
structure Moment.Orderly (m : Moment) : Prop where
  resolves : ∀ p ∈ m.paths, (resolve? m.card p).isSome
  apart : m.paths.Pairwise Path.Apart
  levels : m.paths.Pairwise Path.Precedes

namespace Revision

variable {σ : Type}

inductive Passes (visitor : Visitor σ) (r : Revision σ) : Moment → Prop where
  | before : Passes visitor r ⟨r.card, none, r.queue.map Waiting.path⟩
  /-- During the visit, when the visitor may have brought the mapping to any form. -/
  | visiting {w : Waiting} {queue : List Waiting} {card : Card} (now : Mapping)
      (hqueue : r.queue = w :: queue)
      (hcard : editAt? (fun _ => ((), now)) w.path r.card = some ((), card)) :
      Passes visitor r ⟨card, some w.path, queue.map Waiting.path⟩
  /-- After the visit, when some of the paths below have been put at the end of the queue. -/
  | queueing {w : Waiting} {queue : List Waiting} {t : Turn} {next : Revision σ} (count : Nat)
      (hqueue : r.queue = w :: queue) (hturn : turn visitor r = some (some t, next))
      (hleft : Mapping.WellFormed t.left) :
      Passes visitor r ⟨next.card, none, (queue ++ (w.below t.left).take count).map Waiting.path⟩

structure Level (r : Revision σ) : Prop extends Coherent r where
  levels : r.queue.Pairwise fun v w => Path.Precedes v.path w.path

theorem level_start {card : Card} (h : Mapping.WellFormed card) (memory : σ) :
    (start card memory).Level where
  toCoherent := coherent_start h memory
  levels := List.pairwise_singleton _ _

theorem Level.turn {card : Card} {w : Waiting} {queue : List Waiting} {memory memory' : σ}
    {node left : Mapping} (h : Level ⟨card, w :: queue, memory⟩)
    (hnode : resolve? card w.path = some node) (hleft : Mapping.WellFormed left) :
    Level ⟨put card w.path left, queue ++ w.below left, memory'⟩ where
  toCoherent := h.toCoherent.turn hnode hleft
  levels := pairwise_precedes_below h.levels left

theorem Runs.level {visitor : Visitor σ} {r last : Revision σ} {turns : List Turn}
    (hruns : Runs visitor r turns last) (h : r.Level) : last.Level := by
  induction hruns with
  | stop r => exact h
  | turn hnode _ hwell _ ih => exact ih (h.turn hnode hwell)

theorem Level.orderly {r : Revision σ} (h : r.Level) {waiting : List Waiting}
    (hsub : waiting.Sublist r.queue) :
    Moment.Orderly ⟨r.card, none, waiting.map Waiting.path⟩ where
  resolves := by
    intro p hp
    rcases List.mem_map.mp hp with ⟨w, hw, rfl⟩
    rcases h.resolves w (hsub.subset hw) with ⟨node, hnode⟩
    exact Option.isSome_iff_exists.mpr ⟨node, hnode⟩
  apart := List.pairwise_map.mpr (h.apart.sublist hsub)
  levels := List.pairwise_map.mpr (h.levels.sublist hsub)

theorem Level.orderly_visiting {card : Card} {w : Waiting} {queue : List Waiting} {memory : σ}
    (h : Level ⟨card, w :: queue, memory⟩) (now : Mapping) :
    Moment.Orderly ⟨put card w.path now, some w.path, queue.map Waiting.path⟩ where
  resolves := by
    rcases h.resolves w List.mem_cons_self with ⟨node, hnode⟩
    intro p hp
    rcases List.mem_cons.mp hp with hvisited | hwaiting
    · rw [hvisited]
      exact Option.isSome_iff_exists.mpr ⟨now, resolve?_put_self hnode now⟩
    · rcases List.mem_map.mp hwaiting with ⟨v, hv, rfl⟩
      have hapart := (List.pairwise_cons.mp h.apart).left v hv
      rcases h.resolves v (List.mem_cons_of_mem _ hv) with ⟨found, hfound⟩
      rw [resolve?_put_beside hnode hapart.left hapart.right]
      exact Option.isSome_iff_exists.mpr ⟨found, hfound⟩
  apart := List.pairwise_map.mpr h.apart
  levels := List.pairwise_map.mpr h.levels

theorem Level.passes_orderly {visitor : Visitor σ} {r : Revision σ} (h : r.Level) {m : Moment}
    (hm : Passes visitor r m) : m.Orderly := by
  obtain ⟨card, queue, memory⟩ := r
  cases hm with
  | before => exact h.orderly (List.Sublist.refl _)
  | visiting now hqueue hcard =>
      cases hqueue
      rw [editAt?_eq, Option.map_eq_some_iff] at hcard
      rcases hcard with ⟨_, _, heq⟩
      cases heq
      exact h.orderly_visiting now
  | @queueing w rest t next count hqueue hturn hleft =>
      cases hqueue
      rcases h.resolves w List.mem_cons_self with ⟨node, hnode⟩
      cases hvisit : visitor memory (w.visit node) with
      | mk left memory' =>
          rw [turn_cons hnode hvisit] at hturn
          cases hturn
          have hnext : Level ⟨put card w.path left, rest ++ w.below left, memory'⟩ :=
            h.turn hnode hleft
          exact hnext.orderly ((List.Sublist.refl rest).append (List.take_sublist count _))

theorem turn_front {visitor : Visitor σ} {r : Revision σ} (h : r.Coherent) {w : Waiting}
    {queue : List Waiting} (hqueue : r.queue = w :: queue) :
    ∃ t next, turn visitor r = some (some t, next) ∧ t.visit.path = w.path := by
  obtain ⟨card, waiting, memory⟩ := r
  cases hqueue
  rcases h.resolves w List.mem_cons_self with ⟨node, hnode⟩
  exact ⟨_, _, turn_cons hnode rfl queue, rfl⟩

/-! ## What has been found -/

def findings (t : Turn) : List Path := (children t.left).map fun child => t.visit.path ++ [child.1]

/-- What waited at first and what was found since is what has been visited, followed by what
waits. -/
theorem Runs.paths_eq {visitor : Visitor σ} {r last : Revision σ} {turns : List Turn}
    (hruns : Runs visitor r turns last) :
    (turns.map fun t => t.visit.path) ++ last.queue.map Waiting.path =
      r.queue.map Waiting.path ++ turns.flatMap findings := by
  induction hruns with
  | stop r => simp
  | @turn card w queue memory memory' node left turns last _ _ _ _ ih =>
      have hfindings : (w.below left).map Waiting.path = findings ⟨w.visit node, left⟩ :=
        map_path_waiting_below w left
      rw [List.map_append, hfindings, List.append_assoc] at ih
      rw [List.map_cons, List.cons_append, ih]
      rfl

theorem Traced.paths_nodup {card : Card} {past : List Turn} {r : Revision σ}
    (h : Traced card past r) (hcoherent : r.Coherent) :
    ((past.map fun t => t.visit.path) ++ r.queue.map Waiting.path).Nodup := by
  rw [List.nodup_append]
  refine ⟨h.nodup, ?_, ?_⟩
  · rw [List.Nodup, List.pairwise_map]
    refine hcoherent.apart.imp ?_
    intro v w hapart heq
    rw [heq] at hapart
    exact hapart.left (List.prefix_refl _)
  · intro p hp q hq heq
    rcases List.mem_map.mp hp with ⟨t, ht, rfl⟩
    rcases List.mem_map.mp hq with ⟨w, hw, rfl⟩
    apply (h.queue w hw).unreached t ht
    rw [heq]

/-! ## Main result -/

/-- After any number of turns, and at every moment of the next one, the paths in hand are orderly;
the next path gets its visit and is not passed over; what has been found, the card itself first,
is what has been visited followed by what waits, and no path is found twice. -/
theorem no_path_is_passed_over (visitor : Visitor σ) (memory : σ) (card : Card)
    (hcard : Mapping.WellFormed card) {limit : Nat} {turns : List Turn} {r : Revision σ}
    (hrun : run visitor limit (start card memory) = (turns, r))
    (hleft : ∀ t ∈ turns, Mapping.WellFormed t.left) :
    (∀ m, Passes visitor r m → m.Orderly) ∧
      (∀ w queue, r.queue = w :: queue →
        ∃ t next, turn visitor r = some (some t, next) ∧ t.visit.path = w.path) ∧
      (turns.map fun t => t.visit.path) ++ r.queue.map Waiting.path =
        [] :: turns.flatMap findings ∧
      ((turns.map fun t => t.visit.path) ++ r.queue.map Waiting.path).Nodup := by
  have hstart := coherent_start hcard memory
  have hruns := runs_of_run hstart hrun hleft
  have hlevel := hruns.level (level_start hcard memory)
  have htraced := hruns.traced hstart (traced_start card memory)
  rw [List.nil_append] at htraced
  refine ⟨?_, ?_, hruns.paths_eq, htraced.paths_nodup hlevel.toCoherent⟩
  · intro m hm
    exact hlevel.passes_orderly hm
  · intro w queue hqueue
    exact turn_front hlevel.toCoherent hqueue

/-- A visitor that puts mappings beside each other and then empties the first of them. -/
def emptying : Visitor Unit := fun memory visit =>
  match visit.path with
  | [] => ([("a", .object [("b", .object [])]), ("c", .array [.object [], .object []])], memory)
  | [.field "a"] => ([], memory)
  | _ => (visit.node, memory)

theorem emptying_passes_no_path_over :
    Mapping.WellFormed [] ∧ ∃ turns r, run emptying 1 (start [] ()) = (turns, r) ∧
      (∀ t ∈ turns, Mapping.WellFormed t.left) ∧
      r.queue.map Waiting.path = [[.field "a"], [.element "c" 0], [.element "c" 1]] ∧
      (∃ card, Passes emptying r ⟨card, some [.field "a"], [[.element "c" 0], [.element "c" 1]]⟩ ∧
        Moment.Orderly ⟨card, some [.field "a"], [[.element "c" 0], [.element "c" 1]]⟩) ∧
      ((turns.map fun t => t.visit.path) ++ r.queue.map Waiting.path).Nodup := by
  have hleft : ∀ t ∈ (run emptying 1 (start [] ())).1, Mapping.WellFormed t.left := by decide
  rcases no_path_is_passed_over emptying () [] Mapping.wellFormed_nil rfl hleft with
    ⟨hpasses, _, _, hnodup⟩
  have hvisiting : Passes emptying (run emptying 1 (start [] ())).2
      ⟨[("a", .object []), ("c", .array [.object [], .object []])], some [.field "a"],
        [[.element "c" 0], [.element "c" 1]]⟩ :=
    @Passes.visiting _ _ _ ⟨[.field "a"], _⟩ [⟨[.element "c" 0], _⟩, ⟨[.element "c" 1], _⟩] _ []
      rfl rfl
  exact ⟨Mapping.wellFormed_nil, _, _, rfl, hleft, rfl, ⟨_, hvisiting, hpasses _ hvisiting⟩, hnodup⟩

end Revision
end Card
end Cardsmith
