import Cardsmith.Json.Draft
import Cardsmith.Proofs.Json.Reading

/-!
# Drafts of values

What is written for a value is read as its draft, in which most numbers are objects, and the value
of the draft is the value again.  The value of a draft has no more brackets than the reader of
drafts may open.
-/

namespace Cardsmith
namespace Json

open Utf8

namespace Draft

/-! ## The draft of a value -/

mutual

def ofValue : Value → Draft
  | .null => .null
  | .bool b => .bool b
  | .number n => ofNumeral n
  | .string s => .string s
  | .array items => .list (ofItems items)
  | .object fields => .object (ofFields fields)
termination_by structural v => v

def ofItems : List Value → List Draft
  | [] => []
  | item :: rest => ofValue item :: ofItems rest
termination_by structural items => items

def ofFields : List (String × Value) → List (String × Draft)
  | [] => []
  | (key, v) :: rest => (key, ofValue v) :: ofFields rest
termination_by structural fields => fields

end

theorem ofItems_eq_map (items : List Value) : ofItems items = items.map ofValue := by
  induction items with
  | nil => rfl
  | cons item rest ih => rw [ofItems, ih, List.map_cons]

theorem ofFields_eq_map (fields : Mapping) :
    ofFields fields = fields.map fun field => (field.1, ofValue field.2) := by
  induction fields with
  | nil => rfl
  | cons field rest ih =>
      obtain ⟨key, v⟩ := field
      rw [ofFields, ih, List.map_cons]

/-! ## Back to the value -/

theorem carriedNumber_eq_ok_iff {draft : Draft} {n : Numeral} :
    carriedNumber draft = .ok n ↔ ∃ text, draft = .string text ∧ Numeral.ofText text = .ok n := by
  cases draft with
  | string text => simp [carriedNumber]
  | null | bool | integer | list | object => simp [carriedNumber]

/-- An object whose first member has the reserved key is read as the number that this member
carries as text and nothing else, or refused. -/
theorem toValue_reserved_eq_ok_iff {first : Draft} {rest : List (String × Draft)} {v : Value} :
    (object ((reservedKey, first) :: rest)).toValue = .ok v ↔
      rest = [] ∧ ∃ text n, first = .string text ∧ Numeral.ofText text = .ok n ∧ v = .number n := by
  rw [toValue, if_pos rfl, onlyOneMember, List.length_cons]
  constructor
  · intro hv
    cases hcarried : carriedNumber first with
    | error cause => simp [hcarried] at hv
    | ok n =>
        rcases carriedNumber_eq_ok_iff.mp hcarried with ⟨text, hfirst, htext⟩
        cases rest with
        | nil =>
            simp only [hcarried] at hv
            cases hv
            exact ⟨rfl, text, n, hfirst, htext, rfl⟩
        | cons member rest => simp [hcarried] at hv
  · rintro ⟨rfl, text, n, rfl, htext, rfl⟩
    simp [carriedNumber, htext]

theorem toValue_ofNumeral (n : Numeral) : (ofNumeral n).toValue = .ok (.number n) := by
  unfold ofNumeral
  cases hmachine : n.machine? with
  | some i => simp only [toValue, Numeral.ofInt_of_machine? hmachine]
  | none => exact toValue_reserved_eq_ok_iff.mpr ⟨rfl, n.text, n, rfl, Numeral.ofText_text n, rfl⟩

theorem toValue_ofScalar (s : Scalar) : (ofScalar s).toValue = .ok s.value := by
  cases s with
  | number n => exact toValue_ofNumeral n
  | null | bool | string => rfl

theorem toValues_ofItems {items : List Value}
    (h : ∀ item ∈ items, (ofValue item).toValue = .ok item) :
    toValues (ofItems items) = .ok items := by
  induction items with
  | nil => rfl
  | cons item rest ih =>
      rw [List.forall_mem_cons] at h
      simp only [ofItems, toValues, h.left, ih h.right]

theorem toFields_ofFields {fields : Mapping}
    (h : ∀ field ∈ fields, (ofValue field.2).toValue = .ok field.2) :
    toFields (ofFields fields) = .ok fields := by
  induction fields with
  | nil => rfl
  | cons field rest ih =>
      obtain ⟨key, v⟩ := field
      rw [List.forall_mem_cons] at h
      simp only [ofFields, toFields, h.left, ih h.right]

theorem toValue_ofValue {depth : Nat} {v : Value} (h : v.Admitted depth) :
    (ofValue v).toValue = .ok v := by
  induction depth generalizing v with
  | zero =>
      cases v with
      | number n => exact toValue_ofNumeral n
      | array items => exact absurd h (Value.not_admitted_array_zero items)
      | object fields => exact absurd h (Value.not_admitted_object_zero fields)
      | null | bool | string => rfl
  | succ depth ih =>
      cases v with
      | number n => exact toValue_ofNumeral n
      | array items =>
          have hitems := toValues_ofItems fun item hitem => ih (Value.admitted_array.mp h item hitem)
          simp only [ofValue, toValue, hitems]
      | object fields =>
          rcases Value.admitted_object.mp h with ⟨hdistinct, hreserved, hfields⟩
          have hvalues (field : String × Value) (hfield : field ∈ fields) :=
            ih (hfields field hfield)
          cases fields with
          | nil => rfl
          | cons field rest =>
              obtain ⟨key, v⟩ := field
              have hkey : key ≠ reservedKey := by simpa [Mapping.keys] using hreserved
              have hfirst := hvalues (key, v) List.mem_cons_self
              have hrest := toFields_ofFields fun field hfield =>
                hvalues field (List.mem_cons_of_mem _ hfield)
              have hmembers : Mapping.ofMembers ((key, v) :: rest) = (key, v) :: rest :=
                Mapping.merge_nil_left hdistinct
              simp only [ofValue, ofFields, toValue, if_neg hkey, hfirst, hrest, hmembers]
      | null | bool | string => rfl

/-! ## Reading what is written -/

theorem read_blanks {budget depth : Nat} {blanks : Bytes} (h : Blank blanks) (bs : Bytes) :
    read budget depth (blanks ++ bs) = read budget depth bs := by
  cases depth <;> rw [read, read, readHead_blanks h]

theorem read_scalar {layout : Layout} {budget depth level : Nat} (s : Scalar)
    (hbudget : (encodeChars (s.value.print layout level)).length ≤ budget) :
    Reads (read budget depth) (encodeChars (s.value.print layout level)) (ofScalar s) := by
  intro blanks rest hblanks hrest
  rw [read_blanks hblanks]
  cases depth <;> rw [read, readHead_scalar s hbudget hrest] <;> rfl

/-- Any value at all, if it does not have too many brackets, is read as its draft. -/
theorem read_written {layout : Layout} (hlayout : layout.Spaced) {budget depth : Nat}
    (level : Nat) {v : Value} (h : v.depth ≤ depth)
    (hbudget : (encodeChars (v.print layout level)).length ≤ budget) :
    Reads (read budget depth) (encodeChars (v.print layout level)) (ofValue v) := by
  induction depth generalizing v level with
  | zero =>
      cases v with
      | null => exact read_scalar .null hbudget
      | bool b => exact read_scalar (.bool b) hbudget
      | number n => exact read_scalar (.number n) hbudget
      | string s => exact read_scalar (.string s) hbudget
      | array items =>
          rw [Value.depth] at h
          omega
      | object fields =>
          rw [Value.depth] at h
          omega
  | succ depth ih =>
      cases v with
      | null => exact read_scalar .null hbudget
      | bool b => exact read_scalar (.bool b) hbudget
      | number n => exact read_scalar (.number n) hbudget
      | string s => exact read_scalar (.string s) hbudget
      | array items =>
          rw [Value.depth, Nat.add_comm, Nat.succ_le_succ_iff] at h
          have hitems (item : Value) (hitem : item ∈ items) :
              Reads (read budget depth) (encodeChars (item.print layout (level + 1)))
                (ofValue item) := by
            have hlt := length_item_lt_array layout level hitem
            exact ih (level + 1) (itemsDepth_le_iff.mp h item hitem) (by omega)
          rcases readItems_opened ofValue hlayout hitems hbudget with ⟨body, hbody, hread⟩
          intro blanks rest hblanks hrest
          rw [read_blanks hblanks, hbody, List.cons_append, read, readHead_list]
          simp only [bind, Except.bind, hread, endList_bracket, ofValue, ofItems_eq_map]
          rfl
      | object fields =>
          rw [Value.depth, Nat.add_comm, Nat.succ_le_succ_iff] at h
          have hvalues (field : String × Value) (hfield : field ∈ fields) :
              Reads (read budget depth) (encodeChars (field.2.print layout (level + 1)))
                (ofValue field.2) := by
            have hlt := (length_field_lt_object layout level hfield).right
            exact ih (level + 1) (fieldsDepth_le_iff.mp h field hfield) (by omega)
          rcases readMembers_opened ofValue hlayout hvalues hbudget with ⟨body, hbody, hread⟩
          intro blanks rest hblanks hrest
          rw [read_blanks hblanks, hbody, List.cons_append, read, readHead_object]
          simp only [bind, Except.bind, hread, endObject_brace, ofValue, ofFields_eq_map]
          rfl

/-! ## What the reader gives -/

/-- Whatever value the draft has, a text with at most `depth` brackets open at once can stand for
it. -/
def Fits (depth : Nat) (draft : Draft) : Prop :=
  ∀ v, draft.toValue = .ok v → v.Admitted depth

theorem fits_ofScalar (depth : Nat) (s : Scalar) : Fits depth (ofScalar s) := by
  intro v hv
  rw [toValue_ofScalar] at hv
  cases hv
  exact Scalar.admitted depth s

theorem toValues_forall {P : Value → Prop} {items : List Draft} {values : List Value}
    (h : ∀ item ∈ items, ∀ v, item.toValue = .ok v → P v) (hvalues : toValues items = .ok values) :
    ∀ v ∈ values, P v := by
  induction items generalizing values with
  | nil =>
      cases hvalues
      exact fun v hv => absurd hv List.not_mem_nil
  | cons item rest ih =>
      rw [List.forall_mem_cons] at h
      rw [toValues] at hvalues
      cases hitem : item.toValue with
      | error cause => simp [hitem] at hvalues
      | ok value =>
          cases hrest : toValues rest with
          | error cause => simp [hitem, hrest] at hvalues
          | ok others =>
              simp only [hitem, hrest] at hvalues
              cases hvalues
              rw [List.forall_mem_cons]
              exact ⟨h.left value hitem, ih h.right hrest⟩

theorem toFields_forall {P : Value → Prop} {members : List (String × Draft)}
    {fields : List (String × Value)}
    (h : ∀ member ∈ members, ∀ v, member.2.toValue = .ok v → P v)
    (hfields : toFields members = .ok fields) : ∀ field ∈ fields, P field.2 := by
  induction members generalizing fields with
  | nil =>
      cases hfields
      exact fun field hfield => absurd hfield List.not_mem_nil
  | cons member rest ih =>
      obtain ⟨key, item⟩ := member
      rw [List.forall_mem_cons] at h
      rw [toFields] at hfields
      cases hitem : item.toValue with
      | error cause => simp [hitem] at hfields
      | ok value =>
          cases hrest : toFields rest with
          | error cause => simp [hitem, hrest] at hfields
          | ok others =>
              simp only [hitem, hrest] at hfields
              cases hfields
              rw [List.forall_mem_cons]
              exact ⟨h.left value hitem, ih h.right hrest⟩

theorem fits_list {depth : Nat} {items : List Draft} (h : ∀ item ∈ items, Fits depth item) :
    Fits (depth + 1) (.list items) := by
  intro v hv
  rw [toValue] at hv
  cases hvalues : toValues items with
  | error cause => simp [hvalues] at hv
  | ok values =>
      simp only [hvalues] at hv
      cases hv
      exact Value.admitted_array.mpr (toValues_forall h hvalues)

theorem fits_object {depth : Nat} {members : List (String × Draft)}
    (h : ∀ member ∈ members, Fits depth member.2) : Fits (depth + 1) (.object members) := by
  intro v hv
  cases members with
  | nil =>
      cases hv
      rw [Value.admitted_object]
      exact ⟨Mapping.distinct_nil, by simp, by simp⟩
  | cons member rest =>
      obtain ⟨key, first⟩ := member
      rw [List.forall_mem_cons] at h
      by_cases hkey : key = reservedKey
      · subst hkey
        rcases toValue_reserved_eq_ok_iff.mp hv with ⟨-, text, n, -, -, rfl⟩
        exact Scalar.admitted (depth + 1) (.number n)
      · simp only [toValue, if_neg hkey] at hv
        cases hfirst : first.toValue with
        | error cause => simp [hfirst] at hv
        | ok value =>
            cases hrest : toFields rest with
            | error cause => simp [hfirst, hrest] at hv
            | ok fields =>
                simp only [hfirst, hrest] at hv
                cases hv
                exact ofMembers_admitted hkey (h.left value hfirst) (toFields_forall h.right hrest)

theorem fits_of_read {budget depth : Nat} {bs rest : Bytes} {draft : Draft}
    (hread : read budget depth bs = .ok (draft, rest)) : Fits depth draft := by
  induction depth generalizing bs draft rest with
  | zero =>
      rw [read, Except.bind_eq_ok_iff] at hread
      rcases hread with ⟨⟨head, next⟩, _, hread⟩
      cases head with
      | scalar s =>
          cases hread
          exact fits_ofScalar 0 s
      | list => cases hread
      | object => cases hread
  | succ depth ih =>
      rw [read, Except.bind_eq_ok_iff] at hread
      rcases hread with ⟨⟨head, next⟩, _, hread⟩
      cases head with
      | scalar s =>
          cases hread
          exact fits_ofScalar (depth + 1) s
      | list =>
          simp only [] at hread
          rw [Except.bind_eq_ok_iff] at hread
          rcases hread with ⟨⟨items, last⟩, hitems, hread⟩
          rw [Except.bind_eq_ok_iff] at hread
          rcases hread with ⟨close, _, hread⟩
          cases hread
          exact fits_list (readItems_forall (fun _ _ _ h => ih h) (by simp) hitems)
      | object =>
          simp only [] at hread
          rw [Except.bind_eq_ok_iff] at hread
          rcases hread with ⟨⟨members, last⟩, hmembers, hread⟩
          rw [Except.bind_eq_ok_iff] at hread
          rcases hread with ⟨close, _, hread⟩
          cases hread
          rcases readMembers_forall (P := Fits depth) (fun _ _ _ h => ih h) hmembers with
            ⟨more, rfl, hmore⟩
          exact fits_object hmore

/-! ## Reading with more brackets -/

/-- One reader gives all that another gives, and maybe more. -/
def Extends {α : Type} (item more : Bytes → Except Stop (α × Bytes)) : Prop :=
  ∀ bs result, item bs = .ok result → more bs = .ok result

theorem readItems_extends {α : Type} {item more : Bytes → Except Stop (α × Bytes)}
    (h : Extends item more) {steps : Nat} {first : Bool} {done : List α} {bs : Bytes}
    {result : List α × Bytes} (hread : readItems item steps first done bs = .ok result) :
    readItems more steps first done bs = .ok result := by
  induction steps generalizing first done bs with
  | zero => cases hread
  | succ steps ih =>
      rw [readItems, Except.bind_eq_ok_iff] at hread ⊢
      rcases hread with ⟨⟨further, next⟩, hnext, hread⟩
      refine ⟨⟨further, next⟩, hnext, ?_⟩
      cases further with
      | false => exact hread
      | true =>
          simp only [if_true] at hread ⊢
          rw [Except.bind_eq_ok_iff] at hread ⊢
          rcases hread with ⟨⟨a, after⟩, ha, hread⟩
          exact ⟨⟨a, after⟩, h _ _ ha, ih hread⟩

theorem readMembers_extends {α : Type} {item more : Bytes → Except Stop (α × Bytes)}
    (h : Extends item more) {budget steps : Nat} {first : Bool} {done : List (String × α)}
    {bs : Bytes} {result : List (String × α) × Bytes}
    (hread : readMembers budget item steps first done bs = .ok result) :
    readMembers budget more steps first done bs = .ok result := by
  induction steps generalizing first done bs with
  | zero => cases hread
  | succ steps ih =>
      rw [readMembers, Except.bind_eq_ok_iff] at hread ⊢
      rcases hread with ⟨⟨key?, next⟩, hnext, hread⟩
      refine ⟨⟨key?, next⟩, hnext, ?_⟩
      cases key? with
      | none => exact hread
      | some key =>
          simp only [] at hread ⊢
          rw [Except.bind_eq_ok_iff] at hread ⊢
          rcases hread with ⟨colon, hcolon, hread⟩
          refine ⟨colon, hcolon, ?_⟩
          rw [Except.bind_eq_ok_iff] at hread ⊢
          rcases hread with ⟨⟨a, after⟩, ha, hread⟩
          exact ⟨⟨a, after⟩, h _ _ ha, ih hread⟩

theorem read_extends_succ (budget depth : Nat) :
    Extends (read budget depth) (read budget (depth + 1)) := by
  induction depth with
  | zero =>
      intro bs result hread
      rw [read, Except.bind_eq_ok_iff] at hread
      rcases hread with ⟨⟨head, next⟩, hhead, hread⟩
      rw [read, Except.bind_eq_ok_iff]
      refine ⟨⟨head, next⟩, hhead, ?_⟩
      cases head with
      | scalar s => exact hread
      | list => cases hread
      | object => cases hread
  | succ depth ih =>
      intro bs result hread
      rw [read, Except.bind_eq_ok_iff] at hread
      rcases hread with ⟨⟨head, next⟩, hhead, hread⟩
      rw [read, Except.bind_eq_ok_iff]
      refine ⟨⟨head, next⟩, hhead, ?_⟩
      cases head with
      | scalar s => exact hread
      | list =>
          simp only [] at hread ⊢
          rw [Except.bind_eq_ok_iff] at hread ⊢
          rcases hread with ⟨items, hitems, hread⟩
          exact ⟨items, readItems_extends ih hitems, hread⟩
      | object =>
          simp only [] at hread ⊢
          rw [Except.bind_eq_ok_iff] at hread ⊢
          rcases hread with ⟨members, hmembers, hread⟩
          exact ⟨members, readMembers_extends ih hmembers, hread⟩

theorem read_extends (budget : Nat) {depth deeper : Nat} (h : depth ≤ deeper) :
    Extends (read budget depth) (read budget deeper) := by
  induction h with
  | refl => exact fun _ _ hread => hread
  | step _ ih => exact fun bs result hread => read_extends_succ budget _ _ _ (ih _ _ hread)

/-! ## Members that fit -/

/-- The fields that are written in an object are read as their drafts, if they do not have too
many brackets, and not at all if they do. -/
theorem readMembers_eq_ok_iff {layout : Layout} (hlayout : layout.Spaced)
    {budget depth level steps : Nat} {fields : Mapping}
    (hadmitted : ∀ field ∈ fields, ∃ deep, field.2.Admitted deep)
    (hbudget : (encodeChars (printFields layout level fields)).length ≤ budget)
    (hsteps : fields.length < steps) {blanks : Bytes} (hblanks : Blank blanks) {rest : Bytes}
    {result : List (String × Draft) × Bytes} :
    readMembers budget (read budget depth) steps false []
        (encodeChars (printFields layout level fields) ++ (blanks ++ '\x7d'.toUInt8 :: rest)) =
      .ok result ↔
      (∀ field ∈ fields, field.2.depth ≤ depth) ∧
        result = (ofFields fields, '\x7d'.toUInt8 :: rest) := by
  have hwritten {deep : Nat} (hdeep : ∀ field ∈ fields, field.2.depth ≤ deep) :
      readMembers budget (read budget deep) steps false []
          (encodeChars (printFields layout level fields) ++ (blanks ++ '\x7d'.toUInt8 :: rest)) =
        .ok (ofFields fields, '\x7d'.toUInt8 :: rest) := by
    have hread := readMembers_written ofValue hlayout
      (fun field hfield => Nat.le_trans (length_field_le layout level hfield).left hbudget)
      (fun field hfield => read_written hlayout level (hdeep field hfield)
        (Nat.le_trans (length_field_le layout level hfield).right hbudget))
      hsteps hblanks [] rest
    rw [ofFields_eq_map]
    exact hread
  constructor
  · intro hread
    have hdeeper := Nat.le_max_left depth (fieldsDepth fields)
    have hmore := readMembers_extends (read_extends budget hdeeper) hread
    rw [hwritten (fieldsDepth_le_iff.mp (Nat.le_max_right depth (fieldsDepth fields)))] at hmore
    cases hmore
    refine ⟨?_, rfl⟩
    rcases readMembers_forall (P := Fits depth) (fun _ _ _ h => fits_of_read h) hread with
      ⟨more, hmembers, hfits⟩
    intro field hfield
    rcases hadmitted field hfield with ⟨deep, hdeep⟩
    have hmem : (field.1, ofValue field.2) ∈ more := by
      rw [List.reverse_nil, List.nil_append] at hmembers
      rw [← hmembers, ofFields_eq_map]
      exact List.mem_map.mpr ⟨field, hfield, rfl⟩
    exact (hfits _ hmem field.2 (toValue_ofValue hdeep)).depth_le
  · rintro ⟨hdepth, rfl⟩
    exact hwritten hdepth

end Draft
end Json
end Cardsmith
