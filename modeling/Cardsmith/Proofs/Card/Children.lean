import Mathlib.Algebra.GroupWithZero.Nat
import Cardsmith.Card.Walk
import Cardsmith.Proofs.Json.Mapping

/-!
# The mappings one step below a mapping

The children that a walk looks for are exactly the mappings that single steps resolve to, and
they come in the order of the positions of their steps: first the place of the field in the
mapping, then the place of the element in the array.
-/

namespace Cardsmith
namespace Card

open Json

/-! ## Single steps -/

theorem Step.resolve?_field_eq_some {node child : Mapping} {key : String} :
    (Step.field key).resolve? node = some child ↔ node.get? key = some (.object child) := by
  cases hget : node.get? key with
  | none => simp [Step.resolve?, hget]
  | some value => cases value <;> simp [Step.resolve?, hget]

theorem Step.resolve?_element_eq_some {node child : Mapping} {key : String} {index : Nat} :
    (Step.element key index).resolve? node = some child ↔
      ∃ items, node.get? key = some (.array items) ∧ items[index]? = some (.object child) := by
  cases hget : node.get? key with
  | none => simp [Step.resolve?, hget]
  | some value =>
      cases value with
      | array items =>
          cases hitem : items[index]? with
          | none => simp [Step.resolve?, hget, hitem]
          | some item => cases item <;> simp [Step.resolve?, hget, hitem]
      | null | bool | number | string | object => simp [Step.resolve?, hget]

/-! ## Membership -/

theorem mem_itemChildren {key : String} {start : Nat} {items : List Value} {step : Step}
    {child : Mapping} :
    (step, child) ∈ itemChildren key start items ↔
      ∃ index, step = .element key (start + index) ∧ items[index]? = some (.object child) := by
  induction items generalizing start with
  | nil => simp [itemChildren]
  | cons item rest ih =>
      have hshift : (∃ index, step = .element key (start + 1 + index) ∧
            rest[index]? = some (.object child)) ↔
          ∃ index, step = .element key (start + (index + 1)) ∧
            rest[index]? = some (.object child) := by
        simp only [Nat.add_assoc, Nat.add_comm 1]
      have hsplit : (∃ index, step = .element key (start + index) ∧
            (item :: rest)[index]? = some (.object child)) ↔
          (step = .element key start ∧ item = .object child) ∨
            ∃ index, step = .element key (start + (index + 1)) ∧
              rest[index]? = some (.object child) := by
        constructor
        · rintro ⟨index, hstep, hitem⟩
          cases index with
          | zero => exact Or.inl ⟨hstep, by simpa using hitem⟩
          | succ index => exact Or.inr ⟨index, hstep, by simpa using hitem⟩
        · rintro (⟨hstep, hitem⟩ | ⟨index, hstep, hitem⟩)
          · exact ⟨0, hstep, by simp [hitem]⟩
          · exact ⟨index + 1, hstep, by simpa using hitem⟩
      rw [hsplit, ← hshift, ← ih]
      cases item with
      | object fields =>
          simp only [itemChildren, List.mem_cons, Prod.mk.injEq, Value.object.injEq]
          exact or_congr (and_congr Iff.rfl eq_comm) Iff.rfl
      | null | bool | number | string | array => simp [itemChildren]

theorem mem_fieldChildren {key : String} {value : Value} {step : Step} {child : Mapping} :
    (step, child) ∈ fieldChildren key value ↔
      (step = .field key ∧ value = .object child) ∨
        ∃ items index, value = .array items ∧ step = .element key index ∧
          items[index]? = some (.object child) := by
  cases value with
  | object fields =>
      simp only [fieldChildren, List.mem_singleton, Prod.mk.injEq, Value.object.injEq]
      simp [eq_comm]
  | array items => simp [fieldChildren, mem_itemChildren]
  | null | bool | number | string => simp [fieldChildren]

theorem mem_children {node : Mapping} (h : Mapping.Distinct node) {step : Step}
    {child : Mapping} : (step, child) ∈ children node ↔ step.resolve? node = some child := by
  unfold children
  simp only [List.mem_flatMap, Prod.exists, mem_fieldChildren]
  cases step with
  | field key =>
      rw [Step.resolve?_field_eq_some]
      constructor
      · rintro ⟨k, v, hmem, ⟨hstep, hvalue⟩ | ⟨items, index, _, hstep, _⟩⟩
        · cases hstep
          rw [Mapping.get?_eq_some_of_mem h hmem, hvalue]
        · cases hstep
      · intro hget
        exact ⟨key, _, Mapping.mem_of_get?_eq_some hget, Or.inl ⟨rfl, rfl⟩⟩
  | element key index =>
      rw [Step.resolve?_element_eq_some]
      constructor
      · rintro ⟨k, v, hmem, ⟨hstep, _⟩ | ⟨items, i, hvalue, hstep, hitem⟩⟩
        · cases hstep
        · cases hstep
          exact ⟨items, by rw [Mapping.get?_eq_some_of_mem h hmem, hvalue], hitem⟩
      · rintro ⟨items, hget, hitem⟩
        exact ⟨key, _, Mapping.mem_of_get?_eq_some hget,
          Or.inr ⟨items, index, rfl, rfl, hitem⟩⟩

/-! ## Order -/

/-- Where a step leads in a mapping: the place of its field, and then of its element. -/
def Step.position (node : Mapping) : Step → Nat × Nat
  | .field key => (node.keys.idxOf key, 0)
  | .element key index => (node.keys.idxOf key, index)

abbrev PositionLt : Nat × Nat → Nat × Nat → Prop := Prod.Lex (· < ·) (· < ·)

theorem positionLt_irrefl (position : Nat × Nat) : ¬ PositionLt position position := by
  intro h
  rcases Prod.lex_def.mp h with hfield | ⟨_, hitem⟩
  · exact Nat.lt_irrefl _ hfield
  · exact Nat.lt_irrefl _ hitem

theorem Step.position_fst (node : Mapping) (step : Step) :
    (step.position node).1 = node.keys.idxOf step.key := by
  cases step <;> rfl

theorem key_of_mem_fieldChildren {key : String} {value : Value} {found : Step × Mapping}
    (h : found ∈ fieldChildren key value) : found.1.key = key := by
  obtain ⟨step, child⟩ := found
  rcases mem_fieldChildren.mp h with ⟨hstep, _⟩ | ⟨_, _, _, hstep, _⟩ <;> rw [hstep] <;> rfl

theorem itemChildren_pairwise (node : Mapping) (key : String) (start : Nat)
    (items : List Value) :
    (itemChildren key start items).Pairwise fun a b =>
      PositionLt (a.1.position node) (b.1.position node) := by
  induction items generalizing start with
  | nil => exact List.Pairwise.nil
  | cons item rest ih =>
      cases item with
      | object fields =>
          rw [itemChildren, List.pairwise_cons]
          refine ⟨?_, ih (start + 1)⟩
          rintro ⟨step, child⟩ hmem
          rcases mem_itemChildren.mp hmem with ⟨index, hstep, _⟩
          rw [hstep]
          exact Prod.Lex.right _ (by omega)
      | null | bool | number | string | array => exact ih (start + 1)

theorem fieldChildren_pairwise (node : Mapping) (key : String) (value : Value) :
    (fieldChildren key value).Pairwise fun a b =>
      PositionLt (a.1.position node) (b.1.position node) := by
  cases value with
  | object fields => exact List.pairwise_singleton _ _
  | array items => exact itemChildren_pairwise node key 0 items
  | null | bool | number | string => exact List.Pairwise.nil

theorem idxOf_keys_pairwise {node : Mapping} (h : Mapping.Distinct node) :
    node.Pairwise fun f g => node.keys.idxOf f.1 < node.keys.idxOf g.1 := by
  rw [List.pairwise_iff_getElem]
  intro i j hi hj hij
  have hplace : ∀ (n : Nat) (hn : n < node.length), node.keys.idxOf node[n].1 = n := by
    intro n hn
    have hlen : n < node.keys.length := by simpa [Mapping.keys] using hn
    have hkey : node.keys[n] = node[n].1 := by simp [Mapping.keys]
    rw [← hkey]
    exact List.Nodup.idxOf_getElem h n hlen
  rw [hplace i hi, hplace j hj]
  exact hij

theorem children_pairwise {node : Mapping} (h : Mapping.Distinct node) :
    (children node).Pairwise fun a b =>
      PositionLt (a.1.position node) (b.1.position node) := by
  unfold children
  rw [List.pairwise_flatMap]
  constructor
  · intro field _
    exact fieldChildren_pairwise node field.1 field.2
  · refine (idxOf_keys_pairwise h).imp ?_
    intro f g hfg a ha b hb
    have hless : (a.1.position node).1 < (b.1.position node).1 := by
      rw [Step.position_fst, Step.position_fst, key_of_mem_fieldChildren ha,
        key_of_mem_fieldChildren hb]
      exact hfg
    exact Prod.Lex.left _ _ hless

theorem children_steps_nodup {node : Mapping} (h : Mapping.Distinct node) :
    ((children node).map Prod.fst).Nodup := by
  rw [List.Nodup, List.pairwise_map]
  refine (children_pairwise h).imp ?_
  intro a b hless heq
  rw [heq] at hless
  exact positionLt_irrefl _ hless

/-! ## Counting -/

theorem itemsNodeCount_eq (key : String) (start : Nat) (items : List Value) :
    itemsNodeCount items =
      ((itemChildren key start items).map fun found => nodeCount found.2).sum := by
  induction items generalizing start with
  | nil => rfl
  | cons item rest ih =>
      cases item with
      | object fields =>
          rw [itemsNodeCount, itemChildren, List.map_cons, List.sum_cons, ← ih (start + 1)]
          rfl
      | null | bool | number | string | array =>
          simp [itemsNodeCount, itemChildren, valueNodeCount, ← ih]

theorem fieldsNodeCount_eq (node : Mapping) :
    fieldsNodeCount node = ((children node).map fun found => nodeCount found.2).sum := by
  unfold children
  induction node with
  | nil => rfl
  | cons field rest ih =>
      obtain ⟨key, value⟩ := field
      rw [List.flatMap_cons, List.map_append, List.sum_append, ← ih]
      cases value with
      | object fields => simp [fieldsNodeCount, fieldChildren, valueNodeCount, nodeCount]
      | array items => simp [fieldsNodeCount, fieldChildren, ← itemsNodeCount_eq]
      | null | bool | number | string =>
          simp [fieldsNodeCount, fieldChildren, valueNodeCount]

theorem nodeCount_eq (node : Mapping) :
    nodeCount node = 1 + ((children node).map fun found => nodeCount found.2).sum := by
  rw [nodeCount, fieldsNodeCount_eq]

theorem nodeCount_child_lt {node : Mapping} {found : Step × Mapping}
    (h : found ∈ children node) : nodeCount found.2 < nodeCount node := by
  rcases List.append_of_mem h with ⟨before, after, hsplit⟩
  rw [nodeCount_eq node, hsplit, List.map_append, List.map_cons, List.sum_append, List.sum_cons]
  omega

end Card
end Cardsmith
