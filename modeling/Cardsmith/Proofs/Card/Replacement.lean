import Cardsmith.Proofs.Card.Editing

/-!
# What a replacement spares

An edit is shown the mapping that its path resolves to, and puts another one in its place.  From
there on the new mapping is found, and beside the path nothing changes.  Every mapping that the
path goes through keeps its fields in their order, and their values up to the one place that the
path takes.
-/

namespace Cardsmith
namespace Card

open Json

/-! ## Single steps -/

/-- Two mappings have the same fields in the same order, with the same values but for the place
that a step goes through: one field, or one element of the array there. -/
structure Step.Spares (step : Step) (before after : Mapping) : Prop where
  keys : after.keys = before.keys
  fields : ∀ key, key ≠ step.key → after.get? key = before.get? key
  elements : ∀ key index, step = .element key index → ∃ old new,
    before.get? key = some (.array old) ∧ after.get? key = some (.array new) ∧
      new.length = old.length ∧ ∀ i, i ≠ index → new[i]? = old[i]?

theorem keys_insert_of_get? {node : Mapping} {key : String} {old : Value}
    (h : node.get? key = some old) (new : Value) : (node.insert key new).keys = node.keys := by
  have hmem : key ∈ node.keys := Mapping.mem_keys_of_mem (Mapping.mem_of_get?_eq_some h)
  rw [Mapping.keys_insert, if_pos hmem]

theorem Step.spares_put {node old : Mapping} {step : Step} (h : step.resolve? node = some old)
    (child : Mapping) : step.Spares node (step.put node child) := by
  cases step with
  | field key =>
      have hget := Step.resolve?_field_eq_some.mp h
      constructor
      · exact keys_insert_of_get? hget _
      · intro k hk
        rw [Step.put, Mapping.get?_insert]
        exact if_neg hk
      · intro k i hstep
        cases hstep
  | element key index =>
      rcases Step.resolve?_element_eq_some.mp h with ⟨items, hget, _⟩
      have hput : (Step.element key index).put node child =
          node.insert key (.array (items.set index (.object child))) := by
        rw [Step.put, hget]
      rw [hput]
      constructor
      · exact keys_insert_of_get? hget _
      · intro k hk
        rw [Mapping.get?_insert]
        exact if_neg hk
      · intro k i hstep
        cases hstep
        refine ⟨items, items.set index (.object child), hget, ?_, List.length_set, ?_⟩
        · rw [Mapping.get?_insert, if_pos rfl]
        · intro i hi
          exact List.getElem?_set_ne hi.symm

theorem resolve?_put_spares {node old : Mapping} {path rest : Path} {step : Step}
    (h : resolve? node (path ++ step :: rest) = some old) (new : Mapping) : ∃ before after,
      resolve? node path = some before ∧
        resolve? (put node (path ++ step :: rest) new) path = some after ∧
        step.Spares before after := by
  rw [resolve?_append, Option.bind_eq_some_iff] at h
  rcases h with ⟨before, hbefore, hrest⟩
  rw [resolve?_cons, Option.bind_eq_some_iff] at hrest
  rcases hrest with ⟨child, hchild, _⟩
  refine ⟨before, put before (step :: rest) new, hbefore, resolve?_put_above _ hbefore new, ?_⟩
  rw [put_cons hchild]
  exact Step.spares_put hchild _

/-! ## Main result -/

/-- An edit takes place exactly if its path resolves, and is shown the mapping found there.  After
it the path leads into the new mapping, paths that neither lead through it nor to it resolve as
before, and the mappings on the way keep all but the place that the path goes through. -/
theorem edit_replaces_only_its_place {α : Type} (edit : Mapping → α × Mapping) (card : Card)
    (path : Path) :
    (editAt? edit path card).map Prod.fst =
        (resolve? card path).map (fun found => (edit found).1) ∧
      ∀ found, resolve? card path = some found → ∃ changed,
        editAt? edit path card = some ((edit found).1, changed) ∧
          (∀ rest, resolve? changed (path ++ rest) = resolve? (edit found).2 rest) ∧
          (∀ other, ¬ path <+: other → ¬ other <+: path →
            resolve? changed other = resolve? card other) ∧
          ∀ above step rest, path = above ++ step :: rest → ∃ before after,
            resolve? card above = some before ∧ resolve? changed above = some after ∧
              step.Spares before after := by
  constructor
  · rw [editAt?_eq, Option.map_map]
    rfl
  · intro found hfound
    refine ⟨put card path (edit found).2, ?_, resolve?_put_append hfound _, ?_, ?_⟩
    · rw [editAt?_eq, hfound]
      rfl
    · intro other hbelow habove
      exact resolve?_put_beside hfound hbelow habove _
    · intro above step rest hpath
      rw [hpath] at hfound ⊢
      exact resolve?_put_spares hfound _

def shelved : Card :=
  [("name", .string "Fireball"),
    ("trigger", .array [.null, .object [("spell", .object [])], .object [("cost", .null)]])]

theorem edit_of_shelved_spares_others :
    resolve? shelved [.element "trigger" 1, .field "spell"] = some [] ∧ ∃ changed,
      editAt? (fun found => (found, [("class", .null)])) [.element "trigger" 1, .field "spell"]
          shelved = some ([], changed) ∧
        resolve? changed [.element "trigger" 1, .field "spell"] = some [("class", .null)] ∧
        resolve? changed [.element "trigger" 2] = some [("cost", .null)] ∧
        ∃ before after, resolve? shelved [] = some before ∧ resolve? changed [] = some after ∧
          (Step.element "trigger" 1).Spares before after := by
  have hfound : resolve? shelved [.element "trigger" 1, .field "spell"] = some [] := by decide
  have hmain := (edit_replaces_only_its_place (fun found => (found, [("class", .null)])) shelved
    [.element "trigger" 1, .field "spell"]).right [] hfound
  rcases hmain with ⟨changed, hedit, hbelow, hbeside, habove⟩
  refine ⟨hfound, changed, hedit, hbelow [], ?_, habove [] _ [.field "spell"] rfl⟩
  rw [hbeside [.element "trigger" 2] (by decide) (by decide)]
  rfl

end Card
end Cardsmith
