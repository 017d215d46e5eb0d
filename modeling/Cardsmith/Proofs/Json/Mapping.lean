import Mathlib.Data.List.Basic
import Mathlib.Data.List.Nodup
import Cardsmith.Json.Value

/-!
# Laws of mappings

Looking up, inserting, removing and merging, each described by the values under the keys and by
the order of the keys.  Most laws need keys that are not repeated, which every operation keeps.
-/

namespace Cardsmith
namespace Json
namespace Mapping

/-! ## Keys -/

@[simp] theorem keys_nil : keys [] = [] := rfl

@[simp] theorem keys_cons (k : String) (v : Value) (rest : Mapping) :
    keys ((k, v) :: rest) = k :: keys rest := rfl

theorem mem_keys_of_mem {fields : Mapping} {field : String × Value} (h : field ∈ fields) :
    field.1 ∈ keys fields :=
  List.mem_map_of_mem h

@[simp] theorem distinct_nil : Distinct [] := List.nodup_nil

theorem distinct_cons {k : String} {v : Value} {rest : Mapping} :
    Distinct ((k, v) :: rest) ↔ k ∉ keys rest ∧ Distinct rest :=
  List.nodup_cons

/-! ## Looking up -/

theorem get?_eq_none_iff {fields : Mapping} {key : String} :
    get? fields key = none ↔ key ∉ keys fields := by
  induction fields with
  | nil => simp
  | cons field rest ih =>
      obtain ⟨k, v⟩ := field
      rw [get?_cons, keys_cons, List.mem_cons]
      by_cases hk : key = k
      · simp [hk]
      · simp [hk, ih]

theorem mem_of_get?_eq_some {fields : Mapping} {key : String} {value : Value}
    (h : get? fields key = some value) : (key, value) ∈ fields := by
  induction fields with
  | nil => simp at h
  | cons field rest ih =>
      obtain ⟨k, v⟩ := field
      rw [get?_cons] at h
      by_cases hk : key = k
      · rw [if_pos hk] at h
        cases h
        rw [hk]
        exact List.mem_cons_self
      · rw [if_neg hk] at h
        exact List.mem_cons_of_mem _ (ih h)

theorem get?_eq_some_of_mem {fields : Mapping} {key : String} {value : Value}
    (hdistinct : Distinct fields) (h : (key, value) ∈ fields) :
    get? fields key = some value := by
  induction fields with
  | nil => cases h
  | cons field rest ih =>
      obtain ⟨k, v⟩ := field
      rw [distinct_cons] at hdistinct
      rw [get?_cons]
      rcases List.mem_cons.mp h with hhead | htail
      · cases hhead
        simp
      · have hne : key ≠ k := by
          intro hk
          apply hdistinct.left
          rw [← hk]
          exact mem_keys_of_mem htail
        rw [if_neg hne]
        exact ih hdistinct.right htail

/-! ## Inserting and removing -/

theorem distinct_insert {fields : Mapping} (h : Distinct fields) (key : String) (value : Value) :
    Distinct (insert fields key value) := by
  unfold Distinct
  rw [keys_insert]
  by_cases hmem : key ∈ keys fields
  · rw [if_pos hmem]
    exact h
  · rw [if_neg hmem]
    rw [List.nodup_append]
    refine ⟨h, List.pairwise_singleton _ key, ?_⟩
    intro k hk l hl hkl
    rw [List.mem_singleton] at hl
    rw [hkl, hl] at hk
    exact hmem hk

theorem mem_insert {fields : Mapping} {key : String} {value : Value} {field : String × Value}
    (h : field ∈ insert fields key value) : field = (key, value) ∨ field ∈ fields := by
  induction fields with
  | nil =>
      left
      simpa using h
  | cons first rest ih =>
      obtain ⟨k, v⟩ := first
      rw [insert_cons] at h
      by_cases hk : k = key
      · rw [if_pos hk] at h
        rcases List.mem_cons.mp h with hhead | htail
        · exact Or.inl hhead
        · exact Or.inr (List.mem_cons_of_mem _ htail)
      · rw [if_neg hk] at h
        rcases List.mem_cons.mp h with hhead | htail
        · rw [hhead]
          exact Or.inr List.mem_cons_self
        · rcases ih htail with hnew | hold
          · exact Or.inl hnew
          · exact Or.inr (List.mem_cons_of_mem _ hold)

theorem insert_of_not_mem {fields : Mapping} {key : String} (h : key ∉ keys fields)
    (value : Value) : insert fields key value = fields ++ [(key, value)] := by
  induction fields with
  | nil => rfl
  | cons field rest ih =>
      obtain ⟨k, v⟩ := field
      rw [keys_cons, List.mem_cons, not_or] at h
      rw [insert_cons, if_neg (fun hk => h.left hk.symm), ih h.right]
      rfl

theorem insert_self {fields : Mapping} {key : String} {value : Value}
    (h : get? fields key = some value) : insert fields key value = fields := by
  induction fields with
  | nil => simp at h
  | cons field rest ih =>
      obtain ⟨k, v⟩ := field
      rw [get?_cons] at h
      rw [insert_cons]
      by_cases hk : k = key
      · rw [if_pos hk.symm] at h
        cases h
        rw [if_pos hk, hk]
      · rw [if_neg (fun heq => hk heq.symm)] at h
        rw [if_neg hk, ih h]

theorem distinct_remove {fields : Mapping} (h : Distinct fields) (key : String) :
    Distinct (remove fields key) :=
  List.Nodup.sublist (List.Sublist.map _ List.filter_sublist) h

/-! ## Merging -/

@[simp] theorem merge_nil_right (base : Mapping) : merge base [] = base := rfl

theorem merge_cons (base : Mapping) (k : String) (v : Value) (rest : Mapping) :
    merge base ((k, v) :: rest) = merge (insert base k v) rest := rfl

theorem distinct_merge {base : Mapping} (h : Distinct base) (own : Mapping) :
    Distinct (merge base own) := by
  induction own generalizing base with
  | nil => exact h
  | cons field rest ih =>
      obtain ⟨k, v⟩ := field
      rw [merge_cons]
      exact ih (distinct_insert h k v)

theorem mem_merge {base own : Mapping} {field : String × Value} (h : field ∈ merge base own) :
    field ∈ base ∨ field ∈ own := by
  induction own generalizing base with
  | nil => exact Or.inl h
  | cons first rest ih =>
      obtain ⟨k, v⟩ := first
      rw [merge_cons] at h
      rcases ih h with hbase | hrest
      · rcases mem_insert hbase with hnew | hold
        · rw [hnew]
          exact Or.inr List.mem_cons_self
        · exact Or.inl hold
      · exact Or.inr (List.mem_cons_of_mem _ hrest)

theorem get?_merge {own : Mapping} (h : Distinct own) (base : Mapping) (key : String) :
    get? (merge base own) key = (get? own key).or (get? base key) := by
  induction own generalizing base with
  | nil => simp
  | cons field rest ih =>
      obtain ⟨k, v⟩ := field
      rw [distinct_cons] at h
      rw [merge_cons, ih h.right, get?_insert, get?_cons]
      by_cases hk : key = k
      · have hnone : get? rest key = none := by
          rw [get?_eq_none_iff, hk]
          exact h.left
        simp [hk, hk ▸ hnone]
      · simp [hk]

theorem keys_merge (base own : Mapping) :
    keys (merge base own) = keys base ++ ((keys own).removeAll (keys base)).eraseDups := by
  induction own generalizing base with
  | nil => simp [List.removeAll]
  | cons field rest ih =>
      obtain ⟨k, v⟩ := field
      rw [merge_cons, ih, keys_insert, keys_cons]
      by_cases hmem : k ∈ keys base
      · simp [hmem, List.removeAll]
      · have hsplit : (keys rest).removeAll (keys base ++ [k]) =
            ((keys rest).removeAll (keys base)).filter fun l => !l == k := by
          unfold List.removeAll
          rw [List.filter_filter]
          apply List.filter_congr
          intro l _
          by_cases hl : l = k <;> simp [hl]
        have hcons : (k :: keys rest).removeAll (keys base) =
            k :: (keys rest).removeAll (keys base) := by
          simp [List.removeAll, hmem]
        rw [if_neg hmem, hsplit, hcons, List.eraseDups_cons]
        simp

theorem eraseDups_of_nodup {ks : List String} (h : ks.Nodup) : ks.eraseDups = ks := by
  induction ks with
  | nil => rfl
  | cons k rest ih =>
      rw [List.nodup_cons] at h
      have hfilter : (rest.filter fun l => !l == k) = rest := by
        rw [List.filter_eq_self]
        intro l hl
        have hne : l ≠ k := fun hlk => h.left (hlk ▸ hl)
        simpa using hne
      rw [List.eraseDups_cons, hfilter, ih h.right]

/-- The keys after a merge stand where they appear first, going from the base to what is put into
it. -/
theorem keys_merge_eq_eraseDups {base : Mapping} (h : Distinct base) (own : Mapping) :
    keys (merge base own) = (keys base ++ keys own).eraseDups := by
  rw [keys_merge, List.eraseDups_append, eraseDups_of_nodup h]

theorem merge_of_nodup {base own : Mapping} (h : (keys base ++ keys own).Nodup) :
    merge base own = base ++ own := by
  induction own generalizing base with
  | nil => simp
  | cons field rest ih =>
      obtain ⟨k, v⟩ := field
      rw [keys_cons] at h
      have hnew : k ∉ keys base := by
        intro hk
        exact (List.nodup_append.mp h).right.right k hk k List.mem_cons_self rfl
      rw [merge_cons, insert_of_not_mem hnew, ih (by simpa [keys] using h)]
      simp

theorem merge_nil_left {own : Mapping} (h : Distinct own) : merge [] own = own := by
  have hnodup : (keys [] ++ keys own).Nodup := h
  simpa using merge_of_nodup hnodup

end Mapping

/-! ## Well-formed values -/

theorem itemsWellFormed_iff {items : List Value} :
    ItemsWellFormed items ↔ ∀ item ∈ items, item.WellFormed := by
  induction items with
  | nil => simp [ItemsWellFormed]
  | cons item rest ih => simp [ItemsWellFormed, ih]

theorem fieldsWellFormed_iff {fields : Mapping} :
    FieldsWellFormed fields ↔ ∀ field ∈ fields, field.2.WellFormed := by
  induction fields with
  | nil => simp [FieldsWellFormed]
  | cons field rest ih =>
      obtain ⟨k, v⟩ := field
      simp [FieldsWellFormed, ih]

theorem Value.wellFormed_array {items : List Value} :
    (Value.array items).WellFormed ↔ ∀ item ∈ items, item.WellFormed :=
  itemsWellFormed_iff

mutual

def Value.decideWellFormed : (v : Value) → Decidable v.WellFormed
  | .array items => decideItemsWellFormed items
  | .object fields =>
      have := decideFieldsWellFormed fields
      inferInstanceAs (Decidable ((Mapping.keys fields).Nodup ∧ FieldsWellFormed fields))
  | .null | .bool _ | .number _ | .string _ => isTrue trivial
termination_by structural v => v

def decideItemsWellFormed : (items : List Value) → Decidable (ItemsWellFormed items)
  | [] => isTrue trivial
  | item :: rest =>
      have := item.decideWellFormed
      have := decideItemsWellFormed rest
      inferInstanceAs (Decidable (item.WellFormed ∧ ItemsWellFormed rest))
termination_by structural items => items

def decideFieldsWellFormed : (fields : List (String × Value)) → Decidable (FieldsWellFormed fields)
  | [] => isTrue trivial
  | (_, v) :: rest =>
      have := v.decideWellFormed
      have := decideFieldsWellFormed rest
      inferInstanceAs (Decidable (v.WellFormed ∧ FieldsWellFormed rest))
termination_by structural fields => fields

end

instance (fields : Mapping) : Decidable (Mapping.WellFormed fields) :=
  Value.decideWellFormed (.object fields)

namespace Mapping

theorem wellFormed_iff {fields : Mapping} :
    WellFormed fields ↔ Distinct fields ∧ ∀ field ∈ fields, field.2.WellFormed := by
  rw [← fieldsWellFormed_iff]
  rfl

theorem wellFormed_nil : WellFormed [] := by
  rw [wellFormed_iff]
  exact ⟨distinct_nil, by simp⟩

namespace WellFormed

theorem distinct {fields : Mapping} (h : WellFormed fields) : Distinct fields :=
  (wellFormed_iff.mp h).left

theorem value {fields : Mapping} (h : WellFormed fields) {key : String} {value : Value}
    (hget : get? fields key = some value) : value.WellFormed :=
  (wellFormed_iff.mp h).right (key, value) (mem_of_get?_eq_some hget)

theorem insert {fields : Mapping} (h : WellFormed fields) (key : String) {value : Value}
    (hvalue : value.WellFormed) : WellFormed (insert fields key value) := by
  rw [wellFormed_iff] at h ⊢
  refine ⟨distinct_insert h.left key value, ?_⟩
  intro field hfield
  rcases mem_insert hfield with hnew | hold
  · rw [hnew]
    exact hvalue
  · exact h.right field hold

theorem remove {fields : Mapping} (h : WellFormed fields) (key : String) :
    WellFormed (remove fields key) := by
  rw [wellFormed_iff] at h ⊢
  refine ⟨distinct_remove h.left key, ?_⟩
  intro field hfield
  exact h.right field (List.mem_of_mem_filter hfield)

theorem perm {fields other : Mapping} (h : WellFormed fields) (hperm : other.Perm fields) :
    WellFormed other := by
  rw [wellFormed_iff] at h ⊢
  refine ⟨((hperm.map Prod.fst).nodup_iff).mpr h.left, ?_⟩
  intro field hfield
  exact h.right field (hperm.mem_iff.mp hfield)

end WellFormed
end Mapping
end Json
end Cardsmith
