import Cardsmith.Proofs.Card.Level

/-!
# Editing in place

An edit at a path puts the edited mapping where the path leads.  What lies beside the path stays
as it is, and what lies above it keeps its outline: its fields in their order, and in them all
but the contents of nested mappings.
-/

namespace Cardsmith
namespace Card

open Json

/-! ## Putting a mapping in place -/

def Step.put (node child : Mapping) : Step → Mapping
  | .field key => node.insert key (.object child)
  | .element key index =>
      match node.get? key with
      | some (.array items) => node.insert key (.array (items.set index (.object child)))
      | _ => node

def put (node : Mapping) : Path → Mapping → Mapping
  | [], new => new
  | step :: rest, new =>
      match step.resolve? node with
      | some child => step.put node (put child rest new)
      | none => node

theorem put_cons {node child : Mapping} {step : Step} (h : step.resolve? node = some child)
    (rest : Path) (new : Mapping) :
    put node (step :: rest) new = step.put node (put child rest new) := by
  rw [put, h]

/-! ## Edits as replacements -/

theorem editField?_eq {α : Type} (edit : Value → Option (α × Value)) (key : String)
    (fields : Mapping) :
    editField? edit key fields =
      (fields.get? key).bind fun value =>
        (edit value).map fun result => (result.1, fields.insert key result.2) := by
  induction fields with
  | nil => rfl
  | cons field rest ih =>
      obtain ⟨k, v⟩ := field
      by_cases hk : k = key
      · simp [editField?, Mapping.get?_cons, Mapping.insert_cons, hk]
      · have hkey : key ≠ k := fun h => hk h.symm
        simp only [editField?, if_neg hk, ih, Mapping.get?_cons, if_neg hkey,
          Mapping.insert_cons]
        cases Mapping.get? rest key with
        | none => rfl
        | some value => cases hedit : edit value <;> simp [hedit]

theorem editItem?_eq {α : Type} (edit : Value → Option (α × Value)) (index : Nat)
    (items : List Value) :
    editItem? edit index items =
      (items[index]?).bind fun item =>
        (edit item).map fun result => (result.1, items.set index result.2) := by
  induction items generalizing index with
  | nil => simp [editItem?]
  | cons item rest ih =>
      cases index with
      | zero => simp [editItem?]
      | succ index =>
          simp only [editItem?, ih, List.getElem?_cons_succ, List.set_cons_succ]
          cases rest[index]? with
          | none => rfl
          | some value => cases hedit : edit value <;> simp [hedit]

theorem Step.edit?_eq {α : Type} (edit : Mapping → Option (α × Mapping)) (node : Mapping)
    (step : Step) :
    step.edit? edit node =
      (step.resolve? node).bind fun child =>
        (edit child).map fun result => (result.1, step.put node result.2) := by
  cases step with
  | field key =>
      rw [Step.edit?, editField?_eq]
      cases hget : node.get? key with
      | none => simp [Step.resolve?, hget]
      | some value =>
          cases value with
          | object fields =>
              cases hedit : edit fields <;>
                simp [Step.resolve?, Step.put, editObject?, hget, hedit]
          | null | bool | number | string | array => simp [Step.resolve?, editObject?, hget]
  | element key index =>
      rw [Step.edit?, editField?_eq]
      cases hget : node.get? key with
      | none => simp [Step.resolve?, hget]
      | some value =>
          cases value with
          | array items =>
              simp only [Option.bind_some, editItem?_eq]
              cases hitem : items[index]? with
              | none => simp [Step.resolve?, hget, hitem]
              | some item =>
                  cases item with
                  | object fields =>
                      cases hedit : edit fields <;>
                        simp [Step.resolve?, Step.put, editObject?, hget, hitem, hedit]
                  | null | bool | number | string | array =>
                      simp [Step.resolve?, editObject?, hget, hitem]
          | null | bool | number | string | object => simp [Step.resolve?, hget]

theorem editAt?_eq {α : Type} (edit : Mapping → α × Mapping) (path : Path) (node : Mapping) :
    editAt? edit path node =
      (resolve? node path).map fun found => ((edit found).1, put node path (edit found).2) := by
  induction path generalizing node with
  | nil => rfl
  | cons step rest ih =>
      rw [editAt?, Step.edit?_eq, resolve?_cons]
      cases hstep : step.resolve? node with
      | none => rfl
      | some child =>
          simp only [Option.bind_some, ih, put_cons hstep]
          cases resolve? child rest <;> rfl

/-! ## What a replacement keeps -/

theorem Step.put_self {node child : Mapping} {step : Step}
    (h : step.resolve? node = some child) : step.put node child = node := by
  cases step with
  | field key => exact Mapping.insert_self (Step.resolve?_field_eq_some.mp h)
  | element key index =>
      rcases Step.resolve?_element_eq_some.mp h with ⟨items, hget, hitem⟩
      rcases List.getElem?_eq_some_iff.mp hitem with ⟨hlength, hvalue⟩
      have hitems : items.set index (.object child) = items := by
        rw [← hvalue, List.set_getElem_self]
      simp only [Step.put, hget, hitems]
      exact Mapping.insert_self hget

theorem put_self {node found : Mapping} {path : Path} (h : resolve? node path = some found) :
    put node path found = node := by
  induction path generalizing node with
  | nil =>
      cases h
      rfl
  | cons step path ih =>
      rw [resolve?_cons, Option.bind_eq_some_iff] at h
      rcases h with ⟨child, hchild, hfound⟩
      rw [put_cons hchild, ih hfound, Step.put_self hchild]

theorem Step.resolve?_put_self {node old : Mapping} {step : Step}
    (h : step.resolve? node = some old) (child : Mapping) :
    step.resolve? (step.put node child) = some child := by
  cases step with
  | field key =>
      rw [Step.resolve?_field_eq_some, Step.put, Mapping.get?_insert]
      simp
  | element key index =>
      rcases Step.resolve?_element_eq_some.mp h with ⟨items, hget, hitem⟩
      have hlength : index < items.length := (List.getElem?_eq_some_iff.mp hitem).choose
      rw [Step.resolve?_element_eq_some]
      refine ⟨items.set index (.object child), ?_, by simp [hlength]⟩
      simp [Step.put, hget, Mapping.get?_insert]

theorem Step.resolve?_put_other {node old : Mapping} {step other : Step}
    (h : step.resolve? node = some old) (hne : other ≠ step) (child : Mapping) :
    other.resolve? (step.put node child) = other.resolve? node := by
  cases step with
  | field key =>
      have hget := Step.resolve?_field_eq_some.mp h
      cases other with
      | field k =>
          have hkey : k ≠ key := fun hk => hne (by rw [hk])
          simp [Step.resolve?, Step.put, Mapping.get?_insert, hkey]
      | element k i =>
          by_cases hkey : k = key
          · simp [Step.resolve?, Step.put, Mapping.get?_insert, hkey, hget]
          · simp [Step.resolve?, Step.put, Mapping.get?_insert, hkey]
  | element key index =>
      rcases Step.resolve?_element_eq_some.mp h with ⟨items, hget, hitem⟩
      cases other with
      | field k =>
          by_cases hkey : k = key
          · simp [Step.resolve?, Step.put, Mapping.get?_insert, hkey, hget]
          · simp [Step.resolve?, Step.put, Mapping.get?_insert, hkey, hget]
      | element k i =>
          by_cases hkey : k = key
          · have hindex : index ≠ i := fun hi => hne (by rw [hkey, hi])
            simp [Step.resolve?, Step.put, Mapping.get?_insert, hkey, hget,
              List.getElem?_set_ne hindex]
          · simp [Step.resolve?, Step.put, Mapping.get?_insert, hkey, hget]

theorem resolve?_put_append {node old : Mapping} {path : Path}
    (h : resolve? node path = some old) (new : Mapping) (rest : Path) :
    resolve? (put node path new) (path ++ rest) = resolve? new rest := by
  induction path generalizing node with
  | nil => rfl
  | cons step path ih =>
      rw [resolve?_cons, Option.bind_eq_some_iff] at h
      rcases h with ⟨child, hchild, hold⟩
      rw [put_cons hchild, List.cons_append, resolve?_cons, Step.resolve?_put_self hchild]
      exact ih hold

theorem resolve?_put_self {node old : Mapping} {path : Path}
    (h : resolve? node path = some old) (new : Mapping) :
    resolve? (put node path new) path = some new := by
  have happend := resolve?_put_append h new []
  rwa [List.append_nil] at happend

theorem resolve?_put_beside {node old : Mapping} {path other : Path}
    (h : resolve? node path = some old) (hbelow : ¬ path <+: other) (habove : ¬ other <+: path)
    (new : Mapping) : resolve? (put node path new) other = resolve? node other := by
  induction path generalizing node other with
  | nil => exact absurd List.nil_prefix hbelow
  | cons step path ih =>
      rw [resolve?_cons, Option.bind_eq_some_iff] at h
      rcases h with ⟨child, hchild, hold⟩
      cases other with
      | nil => exact absurd List.nil_prefix habove
      | cons first rest =>
          rw [put_cons hchild, resolve?_cons, resolve?_cons]
          by_cases hstep : first = step
          · rw [hstep, List.cons_prefix_cons] at hbelow habove
            rw [hstep, Step.resolve?_put_self hchild, hchild]
            exact ih hold (fun hb => hbelow ⟨rfl, hb⟩) (fun ha => habove ⟨rfl, ha⟩)
          · rw [Step.resolve?_put_other hchild hstep]

theorem resolve?_put_above {node old : Mapping} {path : Path} (rest : Path)
    (h : resolve? node path = some old) (new : Mapping) :
    resolve? (put node (path ++ rest) new) path = some (put old rest new) := by
  induction path generalizing node with
  | nil =>
      cases h
      rfl
  | cons step path ih =>
      rw [resolve?_cons, Option.bind_eq_some_iff] at h
      rcases h with ⟨child, hchild, hold⟩
      rw [List.cons_append, put_cons hchild, resolve?_cons, Step.resolve?_put_self hchild]
      exact ih hold

/-! ## Outlines -/

def outlineItem : Value → Value
  | .object _ => .object []
  | item => item

def outlineValue : Value → Value
  | .object _ => .object []
  | .array items => .array (items.map outlineItem)
  | value => value

/-- The fields of a mapping without the contents of the mappings one step below. -/
def outline (node : Mapping) : Mapping := node.map fun field => (field.1, outlineValue field.2)

theorem outline_cons (key : String) (value : Value) (rest : Mapping) :
    outline ((key, value) :: rest) = (key, outlineValue value) :: outline rest := rfl

theorem keys_outline (node : Mapping) : (outline node).keys = node.keys := by
  simp [outline, Mapping.keys]

theorem get?_outline (node : Mapping) (key : String) :
    (outline node).get? key = (node.get? key).map outlineValue := by
  induction node with
  | nil => rfl
  | cons field rest ih =>
      obtain ⟨k, v⟩ := field
      rw [outline_cons, Mapping.get?_cons, Mapping.get?_cons, ih]
      by_cases hk : key = k <;> simp [hk]

def IsPlain (value : Value) : Prop :=
  match value with
  | .array _ | .object _ => False
  | .null | .bool _ | .number _ | .string _ => True

theorem outlineValue_eq_iff {value plain : Value} (h : IsPlain plain) :
    outlineValue value = plain ↔ value = plain := by
  cases plain with
  | array | object => cases h
  | null | bool | number | string => cases value <;> simp [outlineValue]

theorem get?_eq_some_iff_of_outline_eq {node other : Mapping} (h : outline node = outline other)
    (key : String) {value : Value} (hvalue : IsPlain value) :
    node.get? key = some value ↔ other.get? key = some value := by
  have hoption : ∀ m : Mapping,
      m.get? key = some value ↔ (outline m).get? key = some value := by
    intro m
    rw [get?_outline]
    cases hget : m.get? key with
    | none => simp
    | some v => simp [outlineValue_eq_iff hvalue]
  rw [hoption node, hoption other, h]

theorem map_fst_itemChildren_outline (key : String) (start : Nat) (items : List Value) :
    (itemChildren key start (items.map outlineItem)).map Prod.fst =
      (itemChildren key start items).map Prod.fst := by
  induction items generalizing start with
  | nil => rfl
  | cons item rest ih =>
      cases item with
      | object fields => simp [itemChildren, outlineItem, ih]
      | null | bool | number | string | array => simp [itemChildren, outlineItem, ih]

theorem map_fst_children_outline (node : Mapping) :
    (children (outline node)).map Prod.fst = (children node).map Prod.fst := by
  unfold children
  induction node with
  | nil => rfl
  | cons field rest ih =>
      obtain ⟨key, value⟩ := field
      rw [outline_cons, List.flatMap_cons, List.flatMap_cons, List.map_append, List.map_append, ih]
      congr 1
      cases value with
      | object fields => rfl
      | array items => exact map_fst_itemChildren_outline key 0 items
      | null | bool | number | string => rfl

theorem map_fst_children_eq {node other : Mapping} (h : outline node = outline other) :
    (children node).map Prod.fst = (children other).map Prod.fst := by
  rw [← map_fst_children_outline, h, map_fst_children_outline]

theorem outline_insert {node : Mapping} {key : String} {old new : Value}
    (hget : node.get? key = some old) (hvalue : outlineValue new = outlineValue old) :
    outline (node.insert key new) = outline node := by
  induction node with
  | nil => simp at hget
  | cons field rest ih =>
      obtain ⟨k, v⟩ := field
      rw [Mapping.get?_cons] at hget
      rw [Mapping.insert_cons]
      by_cases hk : k = key
      · rw [if_pos hk.symm] at hget
        cases hget
        rw [if_pos hk, outline_cons, outline_cons, hvalue, hk]
      · rw [if_neg (fun h => hk h.symm)] at hget
        rw [if_neg hk, outline_cons, outline_cons, ih hget]

theorem Step.outline_put {node old : Mapping} {step : Step} (h : step.resolve? node = some old)
    (child : Mapping) : outline (step.put node child) = outline node := by
  cases step with
  | field key => exact outline_insert (Step.resolve?_field_eq_some.mp h) rfl
  | element key index =>
      rcases Step.resolve?_element_eq_some.mp h with ⟨items, hget, hitem⟩
      have hitems : (items.set index (.object child)).map outlineItem =
          items.map outlineItem := by
        rcases List.getElem?_eq_some_iff.mp hitem with ⟨hlength, hvalue⟩
        rw [List.map_set, outlineItem]
        apply List.ext_getElem
        · simp
        · intro i hi _
          by_cases hindex : index = i
          · subst hindex
            simp [hvalue, outlineItem]
          · simp [hindex]
      rw [Step.put, hget]
      exact outline_insert hget (congrArg Value.array hitems)

theorem outline_put {node old : Mapping} {path : Path} (h : resolve? node path = some old)
    (hpath : path ≠ []) (new : Mapping) : outline (put node path new) = outline node := by
  cases path with
  | nil => exact absurd rfl hpath
  | cons step rest =>
      rw [resolve?_cons, Option.bind_eq_some_iff] at h
      rcases h with ⟨child, hchild, _⟩
      rw [put_cons hchild]
      exact Step.outline_put hchild _

/-- Whatever does not lie at or below the path keeps its place and its outline. -/
theorem resolve?_put_of_not_prefix {node old found : Mapping} {path other : Path}
    (h : resolve? node path = some old) (hbelow : ¬ path <+: other)
    (hother : resolve? node other = some found) (new : Mapping) :
    ∃ now, resolve? (put node path new) other = some now ∧ outline now = outline found := by
  by_cases habove : other <+: path
  · rcases habove with ⟨rest, rfl⟩
    have hrest : resolve? found rest = some old := by
      rw [resolve?_append, hother] at h
      exact h
    have hne : rest ≠ [] := by
      intro hnil
      rw [hnil, List.append_nil] at hbelow
      exact hbelow (List.prefix_refl other)
    exact ⟨_, resolve?_put_above rest hother new, outline_put hrest hne new⟩
  · exact ⟨found, by rw [resolve?_put_beside h hbelow habove, hother], rfl⟩

/-! ## Well-formedness -/

theorem Step.put_wellFormed {node child : Mapping} (h : Mapping.WellFormed node)
    (hchild : Mapping.WellFormed child) (step : Step) :
    Mapping.WellFormed (step.put node child) := by
  cases step with
  | field key => exact Mapping.WellFormed.insert h key hchild
  | element key index =>
      cases hget : node.get? key with
      | none => simpa [Step.put, hget] using h
      | some value =>
          have hvalue := Mapping.WellFormed.value h hget
          cases value with
          | array items =>
              rw [Value.wellFormed_array] at hvalue
              rw [Step.put, hget]
              refine Mapping.WellFormed.insert h key (Value.wellFormed_array.mpr ?_)
              intro item hitem
              rcases List.mem_or_eq_of_mem_set hitem with hold | hnew
              · exact hvalue item hold
              · rw [hnew]
                exact hchild
          | null | bool | number | string | object => simpa [Step.put, hget] using h

theorem put_wellFormed {node new : Mapping} (h : Mapping.WellFormed node)
    (hnew : Mapping.WellFormed new) (path : Path) : Mapping.WellFormed (put node path new) := by
  induction path generalizing node with
  | nil => exact hnew
  | cons step rest ih =>
      cases hstep : step.resolve? node with
      | none =>
          rw [put, hstep]
          exact h
      | some child =>
          rw [put_cons hstep]
          exact Step.put_wellFormed h (ih (Step.resolve?_wellFormed h hstep)) step

end Card
end Cardsmith
