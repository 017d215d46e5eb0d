import Mathlib.Data.List.Infix
import Cardsmith.Card.Path
import Cardsmith.Card.View
import Cardsmith.Proofs.Json.Mapping

/-!
# Views along a chain of mappings

The view at the end of a chain of mappings, each inheriting from the view before it: a key has its
value in the last mapping of the chain that has the key, and the keys stand where they appear
first.
-/

namespace Cardsmith
namespace Card

open Json

/-- The view at the end of a chain of mappings, the outermost first. -/
def viewOf (chain : List Mapping) : Mapping := chain.foldl inherit []

/-- The value under a key in the last mapping of a chain that has the key. -/
def closest? (chain : List Mapping) (key : String) : Option Value :=
  chain.reverse.findSome? fun m => m.get? key

theorem viewOf_concat (chain : List Mapping) (own : Mapping) :
    viewOf (chain ++ [own]) = inherit (viewOf chain) own := by
  simp [viewOf]

theorem get?_foldl_inherit {chain : List Mapping} (h : ∀ m ∈ chain, Mapping.Distinct m)
    (base : Mapping) (key : String) :
    (chain.foldl inherit base).get? key = (closest? chain key).or (base.get? key) := by
  induction chain generalizing base with
  | nil => rfl
  | cons own rest ih =>
      have hown : Mapping.Distinct own := h own List.mem_cons_self
      have hrest : ∀ m ∈ rest, Mapping.Distinct m := by
        intro m hm
        exact h m (List.mem_cons_of_mem _ hm)
      have hclosest : closest? (own :: rest) key =
          (closest? rest key).or (own.get? key) := by
        simp [closest?, List.findSome?_append]
      rw [List.foldl_cons, ih hrest, hclosest, Option.or_assoc]
      congr 1
      exact Mapping.get?_merge hown base key

/-- A key of the view has the value of the closest mapping that has it. -/
theorem get?_viewOf {chain : List Mapping} (h : ∀ m ∈ chain, Mapping.Distinct m)
    (key : String) : (viewOf chain).get? key = closest? chain key := by
  rw [viewOf, get?_foldl_inherit h, Mapping.get?_nil, Option.or_none]

theorem eraseDups_keys_merge_append {base : Mapping} (h : Mapping.Distinct base)
    (own : Mapping) (more : List String) :
    ((base.merge own).keys ++ more).eraseDups =
      (base.keys ++ own.keys ++ more).eraseDups := by
  have hkeys := Mapping.keys_merge_eq_eraseDups h own
  have hnodup : (base.merge own).keys.Nodup := Mapping.distinct_merge h own
  have hmore : more.removeAll (base.merge own).keys =
      more.removeAll (base.keys ++ own.keys) := by
    apply List.filter_congr
    intro k _
    rw [hkeys]
    simp
  rw [List.eraseDups_append, Mapping.eraseDups_of_nodup hnodup, hmore, hkeys,
    ← List.eraseDups_append]

theorem keys_foldl_inherit {base : Mapping} (h : Mapping.Distinct base)
    (chain : List Mapping) :
    (chain.foldl inherit base).keys = (base.keys ++ chain.flatMap Mapping.keys).eraseDups := by
  induction chain generalizing base with
  | nil => simp [Mapping.eraseDups_of_nodup h]
  | cons own rest ih =>
      rw [List.foldl_cons, inherit, ih (Mapping.distinct_merge h own), List.flatMap_cons,
        eraseDups_keys_merge_append h, List.append_assoc]

/-- The keys of the view stand where they appear first on the way inwards. -/
theorem keys_viewOf (chain : List Mapping) :
    (viewOf chain).keys = (chain.flatMap Mapping.keys).eraseDups := by
  rw [viewOf, keys_foldl_inherit Mapping.distinct_nil]
  rfl

theorem keys_viewOf_outer {outer chain : List Mapping} (h : outer <+: chain) :
    (viewOf outer).keys <+: (viewOf chain).keys := by
  rcases h with ⟨inner, rfl⟩
  rw [keys_viewOf, keys_viewOf, List.flatMap_append, List.eraseDups_append]
  exact List.prefix_append _ _

/-! ## Mappings on the way to a path -/

theorem Path.inits_concat (path : Path) (step : Step) :
    (path ++ [step]).inits = path.inits ++ [path ++ [step]] := by
  rw [List.inits_append]
  rfl

/-- These are the mappings on the way to a path, the outermost first. -/
def OnTheWay (node : Mapping) (path : Path) (chain : List Mapping) : Prop :=
  path.inits.map (resolve? node) = chain.map some

theorem onTheWay_nil_iff {node : Mapping} {chain : List Mapping} :
    OnTheWay node [] chain ↔ chain = [node] := by
  constructor
  · intro h
    have hsome : [node].map some = chain.map some := h
    exact (List.map_injective_iff.mpr (fun _ _ => Option.some.inj) hsome).symm
  · intro h
    rw [h]
    rfl

theorem OnTheWay.concat {node child : Mapping} {path : Path} {step : Step}
    {chain : List Mapping} (h : OnTheWay node path chain)
    (hchild : resolve? node (path ++ [step]) = some child) :
    OnTheWay node (path ++ [step]) (chain ++ [child]) := by
  unfold OnTheWay at h ⊢
  rw [Path.inits_concat, List.map_append, List.map_append, h, List.map_singleton, hchild]
  rfl

theorem OnTheWay.mem {node m : Mapping} {path : Path} {chain : List Mapping}
    (h : OnTheWay node path chain) (hm : m ∈ chain) :
    ∃ above, above <+: path ∧ resolve? node above = some m := by
  have hsome : some m ∈ path.inits.map (resolve? node) := by
    rw [h]
    exact List.mem_map_of_mem hm
  rcases List.mem_map.mp hsome with ⟨above, habove, hresolve⟩
  exact ⟨above, (List.mem_inits above path).mp habove, hresolve⟩

theorem OnTheWay.chain_above {node : Mapping} {above path : Path} {outer chain : List Mapping}
    (houter : OnTheWay node above outer) (h : OnTheWay node path chain)
    (habove : above <+: path) : outer <+: chain := by
  rcases habove with ⟨rest, rfl⟩
  unfold OnTheWay at houter h
  rw [List.inits_append, List.map_append, houter] at h
  have hsome : outer.map some <+: chain.map some := by
    rw [← h]
    exact List.prefix_append _ _
  rcases List.prefix_map_iff.mp hsome with ⟨front, hfront, hsame⟩
  rw [List.map_injective_iff.mpr (fun _ _ => Option.some.inj) hsame]
  exact hfront

end Card
end Cardsmith
