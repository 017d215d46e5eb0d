import Cardsmith.Proofs.Card.Children

/-!
# Paths of one length

The paths of one length that resolve in a mapping, listed by recursion on the mapping.  The list
is complete, and it is in lexicographic order of the positions along the paths.
-/

namespace Cardsmith
namespace Card

open Json

/-! ## Paths that resolve -/

theorem Step.resolve?_wellFormed {node child : Mapping} {step : Step}
    (h : Mapping.WellFormed node) (hresolve : step.resolve? node = some child) :
    Mapping.WellFormed child := by
  cases step with
  | field key =>
      rw [Step.resolve?_field_eq_some] at hresolve
      exact Mapping.WellFormed.value h hresolve
  | element key index =>
      rw [Step.resolve?_element_eq_some] at hresolve
      rcases hresolve with ⟨items, hget, hitem⟩
      have hitems := Value.wellFormed_array.mp (Mapping.WellFormed.value h hget)
      exact hitems _ (List.mem_of_getElem? hitem)

theorem resolve?_wellFormed {node found : Mapping} {path : Path}
    (h : Mapping.WellFormed node) (hresolve : resolve? node path = some found) :
    Mapping.WellFormed found := by
  induction path generalizing node with
  | nil =>
      cases hresolve
      exact h
  | cons step rest ih =>
      rw [resolve?_cons, Option.bind_eq_some_iff] at hresolve
      rcases hresolve with ⟨child, hchild, hrest⟩
      exact ih (Step.resolve?_wellFormed h hchild) hrest

theorem length_add_nodeCount_le {node found : Mapping} {path : Path}
    (h : Mapping.WellFormed node) (hresolve : resolve? node path = some found) :
    path.length + nodeCount found ≤ nodeCount node := by
  induction path generalizing node with
  | nil =>
      cases hresolve
      simp
  | cons step rest ih =>
      rw [resolve?_cons, Option.bind_eq_some_iff] at hresolve
      rcases hresolve with ⟨child, hchild, hrest⟩
      have hbelow := ih (Step.resolve?_wellFormed h hchild) hrest
      have hless : nodeCount child < nodeCount node :=
        nodeCount_child_lt ((mem_children h.distinct).mpr hchild)
      rw [List.length_cons]
      omega

theorem length_lt_nodeCount {node found : Mapping} {path : Path}
    (h : Mapping.WellFormed node) (hresolve : resolve? node path = some found) :
    path.length < nodeCount node := by
  have hle := length_add_nodeCount_le h hresolve
  have hpos : 0 < nodeCount found := by
    rw [nodeCount]
    omega
  omega

/-! ## Levels -/

/-- The paths of a length that lead from a mapping to mappings. -/
def level : Nat → Mapping → List Path
  | 0, _ => [[]]
  | depth + 1, node =>
      (children node).flatMap fun found => (level depth found.2).map fun path => found.1 :: path

theorem mem_level {node : Mapping} (h : Mapping.WellFormed node) {depth : Nat} {path : Path} :
    path ∈ level depth node ↔ path.length = depth ∧ (resolve? node path).isSome := by
  induction depth generalizing node path with
  | zero =>
      rw [level, List.mem_singleton, List.length_eq_zero_iff]
      constructor
      · intro hnil
        rw [hnil]
        exact ⟨rfl, rfl⟩
      · intro hnil
        exact hnil.left
  | succ depth ih =>
      simp only [level, List.mem_flatMap, List.mem_map]
      constructor
      · rintro ⟨⟨step, child⟩, hchild, rest, hrest, rfl⟩
        have hresolve := (mem_children h.distinct).mp hchild
        have hlevel := (ih (Step.resolve?_wellFormed h hresolve)).mp hrest
        refine ⟨by simp [hlevel.left], ?_⟩
        rw [resolve?_cons, hresolve]
        exact hlevel.right
      · rintro ⟨hlength, hsome⟩
        cases path with
        | nil => simp at hlength
        | cons step rest =>
            rw [resolve?_cons] at hsome
            cases hresolve : step.resolve? node with
            | none => simp [hresolve] at hsome
            | some child =>
                have hrest : (resolve? child rest).isSome := by simpa [hresolve] using hsome
                refine ⟨(step, child), (mem_children h.distinct).mpr hresolve, rest, ?_, rfl⟩
                rw [ih (Step.resolve?_wellFormed h hresolve)]
                exact ⟨by simpa using hlength, hrest⟩

/-! ## Order -/

def Path.positions : Mapping → Path → List (Nat × Nat)
  | _, [] => []
  | node, step :: rest =>
      step.position node ::
        match step.resolve? node with
        | some child => positions child rest
        | none => []

/-- The lexicographic order of the positions along two paths in a mapping. -/
def Path.PositionsLt (node : Mapping) (p q : Path) : Prop :=
  List.Lex PositionLt (Path.positions node p) (Path.positions node q)

theorem Path.positions_cons {node child : Mapping} {step : Step}
    (h : step.resolve? node = some child) (rest : Path) :
    Path.positions node (step :: rest) =
      step.position node :: Path.positions child rest := by
  rw [Path.positions, h]

theorem level_pairwise {node : Mapping} (h : Mapping.WellFormed node) (depth : Nat) :
    (level depth node).Pairwise (Path.PositionsLt node) := by
  induction depth generalizing node with
  | zero => exact List.pairwise_singleton _ _
  | succ depth ih =>
      rw [level, List.pairwise_flatMap]
      constructor
      · rintro ⟨step, child⟩ hchild
        have hresolve := (mem_children h.distinct).mp hchild
        rw [List.pairwise_map]
        refine (ih (Step.resolve?_wellFormed h hresolve)).imp ?_
        intro p q hless
        unfold Path.PositionsLt
        rw [Path.positions_cons hresolve, Path.positions_cons hresolve]
        exact List.Lex.cons hless
      · refine (children_pairwise h.distinct).imp ?_
        intro a b hless p hp q hq
        rcases List.mem_map.mp hp with ⟨p', _, rfl⟩
        rcases List.mem_map.mp hq with ⟨q', _, rfl⟩
        exact List.Lex.rel hless

theorem Path.positionsLt_irrefl (node : Mapping) (path : Path) :
    ¬ Path.PositionsLt node path path := by
  unfold Path.PositionsLt
  intro h
  generalize Path.positions node path = positions at h
  induction positions with
  | nil => cases h
  | cons position rest ih =>
      cases h with
      | rel hless => exact positionLt_irrefl position hless
      | cons hrest => exact ih hrest

end Card
end Cardsmith
