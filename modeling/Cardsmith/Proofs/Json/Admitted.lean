import Cardsmith.Json.Reader
import Cardsmith.Proofs.Json.Mapping

/-!
# Values that texts stand for

The reader never gives a value with a repeated key, with the reserved key first in a mapping, or
with more brackets open at once than it may.
-/

namespace Cardsmith
namespace Json

/-! ## The reserved key -/

mutual

/-- No mapping in the value has the reserved key first. -/
def Value.Unreserved : Value → Prop
  | .array items => ItemsUnreserved items
  | .object fields => (Mapping.keys fields).head? ≠ some reservedKey ∧ FieldsUnreserved fields
  | .null | .bool _ | .number _ | .string _ => True
termination_by structural v => v

def ItemsUnreserved : List Value → Prop
  | [] => True
  | item :: rest => item.Unreserved ∧ ItemsUnreserved rest
termination_by structural items => items

def FieldsUnreserved : List (String × Value) → Prop
  | [] => True
  | (_, v) :: rest => v.Unreserved ∧ FieldsUnreserved rest
termination_by structural fields => fields

end

theorem itemsUnreserved_iff {items : List Value} :
    ItemsUnreserved items ↔ ∀ item ∈ items, item.Unreserved := by
  induction items with
  | nil => simp [ItemsUnreserved]
  | cons item rest ih => simp [ItemsUnreserved, ih]

theorem fieldsUnreserved_iff {fields : Mapping} :
    FieldsUnreserved fields ↔ ∀ field ∈ fields, field.2.Unreserved := by
  induction fields with
  | nil => simp [FieldsUnreserved]
  | cons field rest ih =>
      obtain ⟨k, v⟩ := field
      simp [FieldsUnreserved, ih]

/-! ## Depth -/

theorem itemsDepth_le_iff {items : List Value} {depth : Nat} :
    itemsDepth items ≤ depth ↔ ∀ item ∈ items, item.depth ≤ depth := by
  induction items with
  | nil => simp [itemsDepth]
  | cons item rest ih => rw [itemsDepth, Nat.max_le, ih, List.forall_mem_cons]

theorem fieldsDepth_le_iff {fields : Mapping} {depth : Nat} :
    fieldsDepth fields ≤ depth ↔ ∀ field ∈ fields, field.2.depth ≤ depth := by
  induction fields with
  | nil => simp [fieldsDepth]
  | cons field rest ih =>
      obtain ⟨k, v⟩ := field
      rw [fieldsDepth, Nat.max_le, ih, List.forall_mem_cons]

/-! ## Admitted values -/

/-- A value that some text may stand for with at most `depth` brackets open at once. -/
structure Value.Admitted (depth : Nat) (v : Value) : Prop where
  wellFormed : v.WellFormed
  unreserved : v.Unreserved
  depth_le : v.depth ≤ depth

theorem Scalar.admitted (depth : Nat) (s : Scalar) : s.value.Admitted depth := by
  cases s <;> exact ⟨trivial, trivial, Nat.zero_le depth⟩

theorem Value.admitted_array {depth : Nat} {items : List Value} :
    (Value.array items).Admitted (depth + 1) ↔ ∀ item ∈ items, item.Admitted depth := by
  constructor
  · rintro ⟨hwell, hunreserved, hdepth⟩ item hitem
    have hitems : itemsDepth items ≤ depth := by
      rw [Value.depth] at hdepth
      omega
    exact ⟨itemsWellFormed_iff.mp hwell item hitem, itemsUnreserved_iff.mp hunreserved item hitem,
      itemsDepth_le_iff.mp hitems item hitem⟩
  · intro h
    have hitems : itemsDepth items ≤ depth :=
      itemsDepth_le_iff.mpr fun item hitem => (h item hitem).depth_le
    refine ⟨itemsWellFormed_iff.mpr fun item hitem => (h item hitem).wellFormed,
      itemsUnreserved_iff.mpr fun item hitem => (h item hitem).unreserved, ?_⟩
    rw [Value.depth]
    omega

theorem Value.admitted_object {depth : Nat} {fields : Mapping} :
    (Value.object fields).Admitted (depth + 1) ↔
      Mapping.Distinct fields ∧ fields.keys.head? ≠ some reservedKey ∧
        ∀ field ∈ fields, field.2.Admitted depth := by
  constructor
  · rintro ⟨hwell, ⟨hfirst, hunreserved⟩, hdepth⟩
    have hwell := Mapping.wellFormed_iff.mp hwell
    refine ⟨hwell.left, hfirst, ?_⟩
    intro field hfield
    have hfields : fieldsDepth fields ≤ depth := by
      rw [Value.depth] at hdepth
      omega
    exact ⟨hwell.right field hfield, fieldsUnreserved_iff.mp hunreserved field hfield,
      fieldsDepth_le_iff.mp hfields field hfield⟩
  · rintro ⟨hdistinct, hfirst, h⟩
    have hfields : fieldsDepth fields ≤ depth :=
      fieldsDepth_le_iff.mpr fun field hfield => (h field hfield).depth_le
    refine ⟨Mapping.wellFormed_iff.mpr
        ⟨hdistinct, fun field hfield => (h field hfield).wellFormed⟩,
      ⟨hfirst, fieldsUnreserved_iff.mpr fun field hfield => (h field hfield).unreserved⟩, ?_⟩
    rw [Value.depth]
    omega

theorem Value.not_admitted_array_zero (items : List Value) :
    ¬ (Value.array items).Admitted 0 := by
  intro h
  have hdepth := h.depth_le
  rw [Value.depth] at hdepth
  omega

theorem Value.not_admitted_object_zero (fields : Mapping) :
    ¬ (Value.object fields).Admitted 0 := by
  intro h
  have hdepth := h.depth_le
  rw [Value.depth] at hdepth
  omega

/-! ## What the reader gives -/

theorem Except.bind_eq_ok_iff {ε α β : Type} {x : Except ε α} {f : α → Except ε β} {b : β} :
    (x >>= f) = .ok b ↔ ∃ a, x = .ok a ∧ f a = .ok b := by
  cases x <;> simp [bind, Except.bind]

variable {budget : Nat}

theorem readItems_forall {α : Type} {P : α → Prop} {item : Bytes → Except Stop (α × Bytes)}
    (hitem : ∀ bs a rest, item bs = .ok (a, rest) → P a) {steps : Nat} {first : Bool}
    {done : List α} {bs : Bytes} {items : List α} {rest : Bytes} (hdone : ∀ a ∈ done, P a)
    (hread : readItems item steps first done bs = .ok (items, rest)) : ∀ a ∈ items, P a := by
  induction steps generalizing first done bs with
  | zero => cases hread
  | succ steps ih =>
      rw [readItems, Except.bind_eq_ok_iff] at hread
      rcases hread with ⟨⟨more, next⟩, _, hread⟩
      cases more with
      | false =>
          cases hread
          intro a ha
          exact hdone a (List.mem_reverse.mp ha)
      | true =>
          simp only [if_true] at hread
          rw [Except.bind_eq_ok_iff] at hread
          rcases hread with ⟨⟨a, after⟩, ha, hread⟩
          refine ih ?_ hread
          intro b hb
          rcases List.mem_cons.mp hb with hnew | hold
          · rw [hnew]
            exact hitem _ _ _ ha
          · exact hdone b hold

theorem readMembers_forall {α : Type} {P : α → Prop} {item : Bytes → Except Stop (α × Bytes)}
    (hitem : ∀ bs a rest, item bs = .ok (a, rest) → P a) {steps : Nat} {first : Bool}
    {done : List (String × α)} {bs : Bytes} {members : List (String × α)} {rest : Bytes}
    (hread : readMembers budget item steps first done bs = .ok (members, rest)) :
    ∃ more, members = done.reverse ++ more ∧ ∀ member ∈ more, P member.2 := by
  induction steps generalizing first done bs with
  | zero => cases hread
  | succ steps ih =>
      rw [readMembers, Except.bind_eq_ok_iff] at hread
      rcases hread with ⟨⟨key?, next⟩, _, hread⟩
      cases key? with
      | none =>
          cases hread
          exact ⟨[], by simp, by simp⟩
      | some key =>
          simp only [] at hread
          rw [Except.bind_eq_ok_iff] at hread
          rcases hread with ⟨colon, _, hread⟩
          rw [Except.bind_eq_ok_iff] at hread
          rcases hread with ⟨⟨a, after⟩, ha, hread⟩
          rcases ih hread with ⟨more, hmembers, hmore⟩
          refine ⟨(key, a) :: more, by simp [hmembers], ?_⟩
          intro member hmember
          rcases List.mem_cons.mp hmember with hnew | hold
          · rw [hnew]
            exact hitem _ _ _ ha
          · exact hmore member hold

theorem ofMembers_admitted {depth : Nat} {key : String} {value : Value}
    {more : List (String × Value)} (hkey : key ≠ reservedKey) (hvalue : value.Admitted depth)
    (hmore : ∀ member ∈ more, member.2.Admitted depth) :
    (Value.object (Mapping.ofMembers ((key, value) :: more))).Admitted (depth + 1) := by
  rw [Value.admitted_object]
  refine ⟨Mapping.distinct_merge Mapping.distinct_nil _, ?_, ?_⟩
  · rw [Mapping.ofMembers, Mapping.merge_cons, Mapping.keys_merge]
    simpa using hkey
  · intro field hfield
    rcases Mapping.mem_merge hfield with hbase | hmember
    · cases hbase
    · rcases List.mem_cons.mp hmember with hfirst | hlater
      · rw [hfirst]
        exact hvalue
      · exact hmore field hlater

theorem readObject_admitted {depth : Nat} {item : Bytes → Except Stop (Value × Bytes)}
    (hitem : ∀ bs v rest, item bs = .ok (v, rest) → v.Admitted depth) {bs rest : Bytes}
    {v : Value} (hread : readObject budget item bs = .ok (v, rest)) : v.Admitted (depth + 1) := by
  rw [readObject, Except.bind_eq_ok_iff] at hread
  rcases hread with ⟨⟨key?, next⟩, _, hread⟩
  cases key? with
  | none =>
      simp only [] at hread
      rw [Except.bind_eq_ok_iff] at hread
      rcases hread with ⟨close, _, hread⟩
      cases hread
      rw [Value.admitted_object]
      exact ⟨Mapping.distinct_nil, by simp, by simp⟩
  | some key =>
      simp only [] at hread
      rw [Except.bind_eq_ok_iff] at hread
      rcases hread with ⟨colon, _, hread⟩
      by_cases hkey : key = reservedKey
      · rw [if_pos hkey, Except.bind_eq_ok_iff] at hread
        rcases hread with ⟨⟨n, after⟩, _, hread⟩
        rw [Except.bind_eq_ok_iff] at hread
        rcases hread with ⟨close, _, hread⟩
        cases hread
        exact Scalar.admitted (depth + 1) (.number n)
      · rw [if_neg hkey, Except.bind_eq_ok_iff] at hread
        rcases hread with ⟨⟨value, after⟩, hvalue, hread⟩
        rw [Except.bind_eq_ok_iff] at hread
        rcases hread with ⟨⟨members, last⟩, hmembers, hread⟩
        rw [Except.bind_eq_ok_iff] at hread
        rcases hread with ⟨close, _, hread⟩
        cases hread
        rcases readMembers_forall hitem hmembers with ⟨more, heq, hmore⟩
        rw [heq]
        exact ofMembers_admitted hkey (hitem _ _ _ hvalue) hmore

/-- Every value that the reader gives is admitted. -/
theorem readValue_admitted {depth : Nat} {bs rest : Bytes} {v : Value}
    (hread : readValue budget depth bs = .ok (v, rest)) : v.Admitted depth := by
  induction depth generalizing bs v rest with
  | zero =>
      rw [readValue, Except.bind_eq_ok_iff] at hread
      rcases hread with ⟨⟨head, next⟩, _, hread⟩
      cases head with
      | scalar s =>
          cases hread
          exact Scalar.admitted 0 s
      | list => cases hread
      | object => cases hread
  | succ depth ih =>
      rw [readValue, Except.bind_eq_ok_iff] at hread
      rcases hread with ⟨⟨head, next⟩, _, hread⟩
      cases head with
      | scalar s =>
          cases hread
          exact Scalar.admitted (depth + 1) s
      | list =>
          simp only [] at hread
          rw [Except.bind_eq_ok_iff] at hread
          rcases hread with ⟨⟨items, last⟩, hitems, hread⟩
          rw [Except.bind_eq_ok_iff] at hread
          rcases hread with ⟨close, _, hread⟩
          cases hread
          rw [Value.admitted_array]
          exact readItems_forall (fun bs v rest h => ih h) (by simp) hitems
      | object => exact readObject_admitted (fun bs v rest h => ih h) hread

theorem Value.admitted_of_ofBytes {input : Bytes} {v : Value}
    (h : Value.ofBytes input = .ok v) : v.Admitted nestingLimit := by
  unfold Value.ofBytes readAll at h
  cases hread : readValue (input.length + 1) nestingLimit input with
  | error stop => simp [hread, bind, Except.bind, Except.mapError] at h
  | ok result =>
      obtain ⟨value, rest⟩ := result
      cases hend : readEnd rest with
      | error stop => simp [hread, hend, bind, Except.bind, Except.mapError] at h
      | ok done =>
          simp only [hread, hend, bind, Except.bind, Except.mapError, pure, Except.pure] at h
          cases h
          exact readValue_admitted hread

end Json
end Cardsmith
