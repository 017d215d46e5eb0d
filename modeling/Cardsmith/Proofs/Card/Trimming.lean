import Mathlib.Logic.Relation
import Cardsmith.Card.Rule
import Cardsmith.Proofs.Card.Editing

/-!
# Trimming

Changes that take fields away, put plain values in or change the order of fields, anywhere inside a
mapping.  However many of them are made, the mapping has no more nodes than before.
-/

namespace Cardsmith
namespace Card

open Json

/-! ## Changes that trim -/

/-- Whether a change of one mapping takes fields away or puts in a plain value. -/
def Edit.Trims : Edit → Prop
  | .set _ value => IsPlain value
  | .remove _ | .clear => True

inductive Trim : Value → Value → Prop where
  | edit {fields : Mapping} {edit : Edit} (h : edit.Trims) :
      Trim (.object fields) (.object (edit.apply fields))
  | reorder {fields left : Mapping} (h : left.Perm fields) :
      Trim (.object fields) (.object left)
  | item {items : List Value} {index : Nat} {value : Value} (h : IsPlain value) :
      Trim (.array items) (.array (items.set index value))
  | inField {fields : Mapping} {key : String} {old new : Value}
      (hget : fields.get? key = some old) (h : Trim old new) :
      Trim (.object fields) (.object (fields.insert key new))
  | inItem {items : List Value} {index : Nat} {old new : Value}
      (hitem : items[index]? = some old) (h : Trim old new) :
      Trim (.array items) (.array (items.set index new))

def Trimmed (node left : Mapping) : Prop :=
  Relation.ReflTransGen Trim (.object node) (.object left)

/-! ## Counting nodes -/

def nodesUnder : Value → Nat
  | .array items => itemsNodeCount items
  | value => valueNodeCount value

theorem fieldsNodeCount_cons (key : String) (value : Value) (rest : Mapping) :
    fieldsNodeCount ((key, value) :: rest) = nodesUnder value + fieldsNodeCount rest := by
  cases value <;> rfl

theorem valueNodeCount_of_plain {value : Value} (h : IsPlain value) :
    valueNodeCount value = 0 ∧ nodesUnder value = 0 := by
  cases value with
  | array | object => cases h
  | null | bool | number | string => exact ⟨rfl, rfl⟩

theorem fieldsNodeCount_insert (fields : Mapping) (key : String) (value : Value) :
    fieldsNodeCount (fields.insert key value) + ((fields.get? key).map nodesUnder).getD 0 =
      fieldsNodeCount fields + nodesUnder value := by
  induction fields with
  | nil => simp [fieldsNodeCount_cons, fieldsNodeCount]
  | cons field rest ih =>
      obtain ⟨k, v⟩ := field
      rw [Mapping.insert_cons, Mapping.get?_cons]
      by_cases hk : k = key
      · rw [if_pos hk, if_pos hk.symm, fieldsNodeCount_cons, fieldsNodeCount_cons]
        simp only [Option.map_some, Option.getD_some]
        omega
      · rw [if_neg hk, if_neg (fun h => hk h.symm), fieldsNodeCount_cons, fieldsNodeCount_cons]
        omega

theorem fieldsNodeCount_remove_le (fields : Mapping) (key : String) :
    fieldsNodeCount (fields.remove key) ≤ fieldsNodeCount fields := by
  induction fields with
  | nil => exact Nat.le_refl _
  | cons field rest ih =>
      obtain ⟨k, v⟩ := field
      rw [fieldsNodeCount_cons, Mapping.remove, List.filter_cons]
      rw [Mapping.remove] at ih
      split_ifs
      · rw [fieldsNodeCount_cons]
        omega
      · omega

theorem fieldsNodeCount_perm {left fields : Mapping} (h : left.Perm fields) :
    fieldsNodeCount left = fieldsNodeCount fields := by
  induction h with
  | nil => rfl
  | cons field _ ih => rw [fieldsNodeCount_cons, fieldsNodeCount_cons, ih]
  | swap first second rest =>
      rw [fieldsNodeCount_cons, fieldsNodeCount_cons, fieldsNodeCount_cons, fieldsNodeCount_cons]
      omega
  | trans _ _ ih ih' => exact ih.trans ih'

theorem itemsNodeCount_set {items : List Value} {index : Nat} {old : Value}
    (h : items[index]? = some old) (new : Value) :
    itemsNodeCount (items.set index new) + valueNodeCount old =
      itemsNodeCount items + valueNodeCount new := by
  induction items generalizing index with
  | nil => simp at h
  | cons item rest ih =>
      cases index with
      | zero =>
          rw [List.getElem?_cons_zero, Option.some.injEq] at h
          rw [List.set_cons_zero, itemsNodeCount, itemsNodeCount, h]
          omega
      | succ index =>
          rw [List.getElem?_cons_succ] at h
          rw [List.set_cons_succ, itemsNodeCount, itemsNodeCount]
          have hrest := ih h
          omega

theorem Edit.Trims.nodeCount_le {edit : Edit} (h : edit.Trims) (fields : Mapping) :
    nodeCount (edit.apply fields) ≤ nodeCount fields := by
  cases edit with
  | set key value =>
      have hinsert := fieldsNodeCount_insert fields key value
      rw [(valueNodeCount_of_plain h).right] at hinsert
      rw [Edit.apply, nodeCount, nodeCount]
      omega
  | remove key =>
      have hremove := fieldsNodeCount_remove_le fields key
      rw [Edit.apply, nodeCount, nodeCount]
      omega
  | clear =>
      rw [Edit.apply, nodeCount, nodeCount, fieldsNodeCount]
      omega

/-- A change that trims adds no nodes, neither where the value itself may be a node nor below the
field that has it. -/
theorem Trim.counts_le {value left : Value} (h : Trim value left) :
    valueNodeCount left ≤ valueNodeCount value ∧ nodesUnder left ≤ nodesUnder value := by
  induction h with
  | @edit fields edit h => exact ⟨h.nodeCount_le fields, h.nodeCount_le fields⟩
  | @reorder fields left h =>
      have hnodes : nodeCount left ≤ nodeCount fields :=
        Nat.le_of_eq (congrArg (1 + ·) (fieldsNodeCount_perm h))
      exact ⟨hnodes, hnodes⟩
  | @item items index value h =>
      refine ⟨Nat.le_refl _, ?_⟩
      cases hitem : items[index]? with
      | none =>
          have hsame := List.set_eq_of_length_le (a := value) (List.getElem?_eq_none_iff.mp hitem)
          exact Nat.le_of_eq (congrArg itemsNodeCount hsame)
      | some old =>
          have hset := itemsNodeCount_set hitem value
          rw [(valueNodeCount_of_plain h).left] at hset
          rw [nodesUnder, nodesUnder]
          omega
  | @inField fields key old new hget _ ih =>
      have hinsert := fieldsNodeCount_insert fields key new
      rw [hget, Option.map_some, Option.getD_some] at hinsert
      have hnodes : nodeCount (fields.insert key new) ≤ nodeCount fields := by
        rw [nodeCount, nodeCount]
        omega
      exact ⟨hnodes, hnodes⟩
  | @inItem items index old new hitem _ ih =>
      have hset := itemsNodeCount_set hitem new
      refine ⟨Nat.le_refl _, ?_⟩
      rw [nodesUnder, nodesUnder]
      omega

theorem Trimmed.nodeCount_le {node left : Mapping} (h : Trimmed node left) :
    nodeCount left ≤ nodeCount node := by
  have hcounts : ∀ value, Relation.ReflTransGen Trim (.object node) value →
      valueNodeCount value ≤ nodeCount node := by
    intro value hvalue
    induction hvalue with
    | refl => exact Nat.le_refl _
    | tail _ htrim ih => exact Nat.le_trans htrim.counts_le.left ih
  exact hcounts _ h

end Card
end Cardsmith
