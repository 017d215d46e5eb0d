import Cardsmith.Proofs.Card.BreadthFirst
import Cardsmith.Proofs.Card.Revision
import Cardsmith.Proofs.Card.View

/-!
# What a visitor is shown

The view shown at a visit comes from the mappings on the way to the visited one: those above as
their own visits left them, and the visited one as it stands before its visit.  A path that waits
carries the view of what the visits above it left, and no turn in between touches what it leads
to.
-/

namespace Cardsmith
namespace Card

open Json

/-! ## Mappings above -/

def Path.ancestors (path : Path) : List Path := path.inits.dropLast

theorem Path.ancestors_concat (path : Path) (step : Step) :
    Path.ancestors (path ++ [step]) = Path.ancestors path ++ [path] := by
  have hlast : path.inits = Path.ancestors path ++ [path] := by
    rcases List.eq_nil_or_concat path with hnil | ⟨rest, last, hconcat⟩
    · rw [hnil]
      rfl
    · rw [hconcat, List.concat_eq_append, Path.ancestors, Path.inits_concat,
        List.dropLast_concat]
  rw [Path.ancestors, Path.inits_concat, List.dropLast_concat, hlast]

/-- What the visit of a path left, if it had one. -/
def leftAt (turns : List Turn) (path : Path) : Option Mapping :=
  (turns.find? fun t => t.visit.path = path).map Turn.left

theorem leftAt_append {past : List Turn} {path : Path} {left : Mapping}
    (h : leftAt past path = some left) (more : List Turn) :
    leftAt (past ++ more) path = some left := by
  unfold leftAt at h ⊢
  cases hfind : past.find? fun t => t.visit.path = path with
  | none => simp [hfind] at h
  | some t => simpa [List.find?_append, hfind] using h

theorem leftAt_concat_self {past : List Turn} {t : Turn}
    (h : ∀ u ∈ past, u.visit.path ≠ t.visit.path) :
    leftAt (past ++ [t]) t.visit.path = some t.left := by
  have hnone : (past.find? fun u => u.visit.path = t.visit.path) = none := by
    rw [List.find?_eq_none]
    intro u hu
    simpa using h u hu
  simp [leftAt, List.find?_append, hnone]

theorem map_leftAt_append {past : List Turn} {paths : List Path} {lefts : List Mapping}
    (h : paths.map (leftAt past) = lefts.map some) (more : List Turn) :
    paths.map (leftAt (past ++ more)) = lefts.map some := by
  induction paths generalizing lefts with
  | nil => exact h
  | cons path rest ih =>
      cases lefts with
      | nil => simp at h
      | cons left lefts =>
          simp only [List.map_cons, List.cons.injEq] at h ⊢
          exact ⟨leftAt_append h.left more, ih h.right⟩

theorem mem_of_leftAt {turns : List Turn} {path : Path} {left : Mapping}
    (h : leftAt turns path = some left) : ∃ t ∈ turns, t.left = left := by
  rw [leftAt, Option.map_eq_some_iff] at h
  rcases h with ⟨t, hfind, hleft⟩
  exact ⟨t, List.mem_of_find?_eq_some hfind, hleft⟩

/-! ## Where a waiting path comes from -/

/-- A path that waits has not been reached, carries the view of what the visits above it left, and
leads to what the visit right above it left there. -/
structure Waiting.Traced (card : Card) (past : List Turn) (now : Card) (w : Waiting) : Prop where
  unreached : ∀ t ∈ past, ¬ w.path <+: t.visit.path
  above : ∃ lefts : List Mapping,
    (Path.ancestors w.path).map (leftAt past) = lefts.map some ∧ w.above = viewOf lefts
  root : w.path = [] → resolve? now w.path = some card
  parent : ∀ path step, w.path = path ++ [step] → ∃ parent,
    leftAt past path = some parent ∧ step.resolve? parent = resolve? now w.path

theorem Waiting.traced_start (card : Card) : (⟨[], []⟩ : Waiting).Traced card [] card where
  unreached := by
    intro t ht
    cases ht
  above := ⟨[], rfl, rfl⟩
  root := fun _ => rfl
  parent := by
    intro path step h
    simp at h

theorem Waiting.Traced.of_apart {card now : Card} {past : List Turn} {w v : Waiting}
    {node left : Mapping} (h : v.Traced card past now) (hapart : Path.Apart w.path v.path)
    (hnode : resolve? now w.path = some node) :
    v.Traced card (past ++ [⟨w.visit node, left⟩]) (put now w.path left) where
  unreached := by
    intro t ht
    rcases List.mem_append.mp ht with hold | hnew
    · exact h.unreached t hold
    · rw [List.mem_singleton] at hnew
      rw [hnew]
      exact hapart.right
  above := by
    rcases h.above with ⟨lefts, hlefts, habove⟩
    exact ⟨lefts, map_leftAt_append hlefts _, habove⟩
  root := by
    intro hnil
    rw [resolve?_put_beside hnode hapart.left hapart.right]
    exact h.root hnil
  parent := by
    intro path step hpath
    rcases h.parent path step hpath with ⟨parent, hparent, hstep⟩
    refine ⟨parent, leftAt_append hparent _, ?_⟩
    rw [resolve?_put_beside hnode hapart.left hapart.right]
    exact hstep

theorem Waiting.Traced.below {card now : Card} {past : List Turn} {w v : Waiting}
    {node left : Mapping} (h : w.Traced card past now)
    (hnode : resolve? now w.path = some node) (hv : v ∈ w.below left) :
    v.Traced card (past ++ [⟨w.visit node, left⟩]) (put now w.path left) := by
  rcases mem_below hv with ⟨⟨step, child⟩, _, rfl⟩
  have hself : leftAt (past ++ [⟨w.visit node, left⟩]) w.path = some left := by
    refine leftAt_concat_self (t := ⟨w.visit node, left⟩) ?_
    intro u hu heq
    apply h.unreached u hu
    rw [heq]
    exact List.prefix_refl w.path
  constructor
  · intro t ht
    rcases List.mem_append.mp ht with hold | hnew
    · intro hprefix
      exact h.unreached t hold ((List.prefix_append w.path [step]).trans hprefix)
    · rw [List.mem_singleton] at hnew
      rw [hnew]
      exact Path.not_concat_prefix w.path step
  · rcases h.above with ⟨lefts, hlefts, habove⟩
    refine ⟨lefts ++ [left], ?_, ?_⟩
    · rw [Path.ancestors_concat, List.map_append, List.map_append,
        map_leftAt_append hlefts, List.map_singleton, List.map_singleton, hself]
    · rw [viewOf_concat, ← habove]
  · intro hnil
    simp at hnil
  · intro path last hpath
    rcases List.append_inj' hpath rfl with ⟨hfront, hlast⟩
    cases hlast
    refine ⟨left, ?_, ?_⟩
    · rw [← hfront]
      exact hself
    · rw [resolve?_put_append hnode, resolve?_cons]
      cases step.resolve? left <;> rfl

/-! ## What a traced path shows at its visit -/

theorem Waiting.Traced.eq_card {card now : Card} {past : List Turn} {w : Waiting}
    {node : Mapping} (h : w.Traced card past now) (hnode : resolve? now w.path = some node)
    (hnil : w.path = []) : node = card := by
  have hboth : some node = some card := hnode.symm.trans (h.root hnil)
  exact Option.some.inj hboth

theorem Waiting.Traced.under_parent {card now : Card} {past : List Turn} {w : Waiting}
    {node : Mapping} (h : w.Traced card past now) (hnode : resolve? now w.path = some node)
    {path : Path} {step : Step} (hpath : w.path = path ++ [step]) : ∃ parent,
      leftAt past path = some parent ∧ step.resolve? parent = some node := by
  rcases h.parent path step hpath with ⟨parent, hparent, hstep⟩
  exact ⟨parent, hparent, hstep.trans hnode⟩

theorem distinct_of_map_leftAt {past : List Turn} (hpast : ∀ t ∈ past, Mapping.WellFormed t.left)
    {paths : List Path} {lefts : List Mapping}
    (h : paths.map (leftAt past) = lefts.map some) : ∀ m ∈ lefts, Mapping.Distinct m := by
  intro m hm
  have hsome : some m ∈ paths.map (leftAt past) := by
    rw [h]
    exact List.mem_map_of_mem hm
  rcases List.mem_map.mp hsome with ⟨path, _, hpath⟩
  rcases mem_of_leftAt hpath with ⟨t, ht, hleft⟩
  rw [← hleft]
  exact (hpast t ht).distinct

/-- The view shown is that of what the visits above left and of the mapping as it stands. -/
theorem Waiting.Traced.view {card now : Card} {past : List Turn} {w : Waiting}
    (h : w.Traced card past now) (hpast : ∀ t ∈ past, Mapping.WellFormed t.left)
    {node : Mapping} (hnode : Mapping.Distinct node) : ∃ lefts : List Mapping,
      (Path.ancestors w.path).map (leftAt past) = lefts.map some ∧
        (∀ key, (w.visit node).view.get? key = closest? (lefts ++ [node]) key) ∧
        (w.visit node).view.keys = ((lefts ++ [node]).flatMap Mapping.keys).eraseDups := by
  rcases h.above with ⟨lefts, hlefts, habove⟩
  have hview : (w.visit node).view = viewOf (lefts ++ [node]) := by
    rw [viewOf_concat, ← habove]
    rfl
  have hdistinct : ∀ m ∈ lefts ++ [node], Mapping.Distinct m := by
    intro m hm
    rcases List.mem_append.mp hm with hold | hnew
    · exact distinct_of_map_leftAt hpast hlefts m hold
    · rw [List.mem_singleton] at hnew
      rw [hnew]
      exact hnode
  refine ⟨lefts, hlefts, ?_, ?_⟩
  · intro key
    rw [hview]
    exact get?_viewOf hdistinct key
  · rw [hview]
    exact keys_viewOf _

namespace Revision

variable {σ : Type}

structure Traced (card : Card) (past : List Turn) (r : Revision σ) : Prop where
  nodup : (past.map fun t => t.visit.path).Nodup
  queue : ∀ w ∈ r.queue, w.Traced card past r.card

theorem traced_start (card : Card) (memory : σ) : Traced card [] (start card memory) where
  nodup := List.nodup_nil
  queue := by
    intro w hw
    rw [start, List.mem_singleton] at hw
    rw [hw]
    exact Waiting.traced_start card

theorem Traced.turn {card now : Card} {past : List Turn} {w : Waiting} {queue : List Waiting}
    {memory memory' : σ} {node left : Mapping} (h : Traced card past ⟨now, w :: queue, memory⟩)
    (hcoherent : Coherent ⟨now, w :: queue, memory⟩)
    (hnode : resolve? now w.path = some node) :
    Traced card (past ++ [⟨w.visit node, left⟩])
      ⟨put now w.path left, queue ++ w.below left, memory'⟩ := by
  have hfront := h.queue w List.mem_cons_self
  constructor
  · rw [List.map_append, List.nodup_append]
    refine ⟨h.nodup, List.pairwise_singleton _ _, ?_⟩
    intro p hp q hq heq
    rcases List.mem_map.mp hp with ⟨t, ht, rfl⟩
    rw [List.map_singleton, List.mem_singleton] at hq
    rw [hq] at heq
    apply hfront.unreached t ht
    rw [heq]
    exact List.prefix_refl w.path
  · intro v hv
    rcases List.mem_append.mp hv with hold | hnew
    · have hapart := (List.pairwise_cons.mp hcoherent.apart).left v hold
      exact (h.queue v (List.mem_cons_of_mem _ hold)).of_apart hapart hnode
    · exact hfront.below hnode hnew

theorem Runs.traced {visitor : Visitor σ} {card : Card} {past turns : List Turn}
    {r last : Revision σ} (hruns : Runs visitor r turns last) (h : r.Coherent)
    (htraced : Traced card past r) : Traced card (past ++ turns) last := by
  induction hruns generalizing past with
  | stop r => simpa using htraced
  | turn hnode _ hwell _ ih =>
      have hnext := ih (h.turn hnode hwell) (htraced.turn h hnode)
      simpa using hnext

/-! ## Main result -/

/-- At every turn of a revision the visitor is shown the mapping that the path resolves to in the
card as it is then, which is the card itself or what the visit right above left there; and a view
in which each key has the value of the closest mapping on the path that has it, those above as
their own visits left them and the visited one as it stands, with the keys where they appear first
on the way inwards.  No path is visited twice. -/
theorem view_of_turn (visitor : Visitor σ) (memory : σ) (card : Card)
    (hcard : Mapping.WellFormed card) {limit : Nat} {turns : List Turn} {r next : Revision σ}
    {t : Turn} (hrun : run visitor limit (start card memory) = (turns, r))
    (hleft : ∀ u ∈ turns, Mapping.WellFormed u.left)
    (hturn : turn visitor r = some (some t, next)) :
    resolve? r.card t.visit.path = some t.visit.node ∧
      (t.visit.path = [] → t.visit.node = card) ∧
      (∀ path step, t.visit.path = path ++ [step] → ∃ parent,
        leftAt turns path = some parent ∧ step.resolve? parent = some t.visit.node) ∧
      (∃ lefts : List Mapping,
        (Path.ancestors t.visit.path).map (leftAt turns) = lefts.map some ∧
          (∀ key, t.visit.view.get? key = closest? (lefts ++ [t.visit.node]) key) ∧
          t.visit.view.keys =
            ((lefts ++ [t.visit.node]).flatMap Mapping.keys).eraseDups) ∧
      ((turns ++ [t]).map fun u => u.visit.path).Nodup := by
  have hstart := coherent_start hcard memory
  have hruns := runs_of_run hstart hrun hleft
  have hcoherent := hruns.coherent hstart
  have htraced := hruns.traced hstart (traced_start card memory)
  rw [List.nil_append] at htraced
  obtain ⟨now, queue, memory'⟩ := r
  cases queue with
  | nil =>
      rw [turn_nil] at hturn
      cases hturn
  | cons w queue =>
      rcases hcoherent.resolves w List.mem_cons_self with ⟨node, hnode⟩
      cases hvisit : visitor memory' (w.visit node) with
      | mk left memory'' =>
          rw [turn_cons hnode hvisit] at hturn
          cases hturn
          have hw := htraced.queue w List.mem_cons_self
          have hnext : Traced card (turns ++ [⟨w.visit node, left⟩])
              ⟨put now w.path left, queue ++ w.below left, memory''⟩ :=
            htraced.turn hcoherent hnode
          have hdistinct := (resolve?_wellFormed hcoherent.card hnode).distinct
          refine ⟨hnode, hw.eq_card hnode, ?_, hw.view hleft hdistinct, hnext.nodup⟩
          intro path step hpath
          exact hw.under_parent hnode hpath

def layered : Card :=
  [("x", .bool false), ("a", .object [("x", .null), ("b", .object [("c", .null)])])]

/-- A visitor that takes the key away on the inner level, and adds another. -/
def uncovering : Visitor Unit := fun memory visit =>
  if visit.key = some "a" then ((visit.node.remove "x").insert "y" (.bool true), memory)
  else (visit.node, memory)

theorem uncovering_view_of_third_turn :
    Mapping.WellFormed layered ∧ ∃ turns r t next,
      run uncovering 2 (start layered ()) = (turns, r) ∧
        (∀ u ∈ turns, Mapping.WellFormed u.left) ∧
        turn uncovering r = some (some t, next) ∧
        t.visit.path = [.field "a", .field "b"] ∧
        t.visit.view.get? "x" = some (.bool false) ∧
        t.visit.view.keys = ["x", "a", "b", "y", "c"] ∧
        ∃ lefts : List Mapping,
          (Path.ancestors t.visit.path).map (leftAt turns) = lefts.map some ∧
            ∀ key, t.visit.view.get? key = closest? (lefts ++ [t.visit.node]) key := by
  have hwell : Mapping.WellFormed layered := by decide
  have hleft : ∀ u ∈ (run uncovering 2 (start layered ())).1, Mapping.WellFormed u.left := by
    decide
  refine ⟨hwell, _, _, _, _, rfl, hleft, rfl, rfl, by decide, by decide, ?_⟩
  rcases view_of_turn uncovering () layered hwell rfl hleft rfl with
    ⟨_, _, _, ⟨lefts, hlefts, hget, _⟩, _⟩
  exact ⟨lefts, hlefts, hget⟩

end Revision
end Card
end Cardsmith
