import Cardsmith.Json.Numeral

/-!
# JSON values

A value keeps what the text said: the digits of its numbers, and the fields of its mappings in
their order.  A mapping is a list of fields; inserting under a key that is there keeps its place,
and `WellFormed` says that no mapping of a value, at any depth, has two fields of one key.
-/

namespace Cardsmith
namespace Json

inductive Value where
  | null
  | bool (b : Bool)
  | number (n : Numeral)
  | string (s : String)
  | array (items : List Value)
  | object (fields : List (String × Value))
  deriving Repr

abbrev Mapping := List (String × Value)

/-! ## Deciding equality -/

mutual

def Value.decideEq : (a b : Value) → Decidable (a = b)
  | .null, .null => isTrue rfl
  | .bool a, .bool b => if h : a = b then isTrue (by rw [h]) else isFalse (by simp [h])
  | .number a, .number b => if h : a = b then isTrue (by rw [h]) else isFalse (by simp [h])
  | .string a, .string b => if h : a = b then isTrue (by rw [h]) else isFalse (by simp [h])
  | .array a, .array b =>
      match decideItemsEq a b with
      | isTrue h => isTrue (by rw [h])
      | isFalse h => isFalse (by simp [h])
  | .object a, .object b =>
      match decideFieldsEq a b with
      | isTrue h => isTrue (by rw [h])
      | isFalse h => isFalse (by simp [h])
  | .null, .bool _ | .null, .number _ | .null, .string _ | .null, .array _ | .null, .object _ =>
      isFalse (by simp)
  | .bool _, .null | .bool _, .number _ | .bool _, .string _ | .bool _, .array _
  | .bool _, .object _ => isFalse (by simp)
  | .number _, .null | .number _, .bool _ | .number _, .string _ | .number _, .array _
  | .number _, .object _ => isFalse (by simp)
  | .string _, .null | .string _, .bool _ | .string _, .number _ | .string _, .array _
  | .string _, .object _ => isFalse (by simp)
  | .array _, .null | .array _, .bool _ | .array _, .number _ | .array _, .string _
  | .array _, .object _ => isFalse (by simp)
  | .object _, .null | .object _, .bool _ | .object _, .number _ | .object _, .string _
  | .object _, .array _ => isFalse (by simp)
termination_by structural a => a

def decideItemsEq : (a b : List Value) → Decidable (a = b)
  | [], [] => isTrue rfl
  | [], _ :: _ | _ :: _, [] => isFalse (by simp)
  | a :: as, b :: bs =>
      match a.decideEq b with
      | isFalse h => isFalse (by simp [h])
      | isTrue h =>
          match decideItemsEq as bs with
          | isTrue h' => isTrue (by rw [h, h'])
          | isFalse h' => isFalse (by simp [h'])
termination_by structural a => a

def decideFieldsEq : (a b : List (String × Value)) → Decidable (a = b)
  | [], [] => isTrue rfl
  | [], _ :: _ | _ :: _, [] => isFalse (by simp)
  | (k, a) :: as, (l, b) :: bs =>
      if hk : k = l then
        match a.decideEq b with
        | isFalse h => isFalse (by simp [h])
        | isTrue h =>
            match decideFieldsEq as bs with
            | isTrue h' => isTrue (by rw [hk, h, h'])
            | isFalse h' => isFalse (by simp [h'])
      else isFalse (by simp [hk])
termination_by structural a => a

end

instance : DecidableEq Value := Value.decideEq

/-! ## Mappings -/

namespace Mapping

def keys (fields : Mapping) : List String := fields.map Prod.fst

def get? (fields : Mapping) (key : String) : Option Value := fields.lookup key

/-- Put a value under a key: in place of the value there, or as a last field. -/
def insert : Mapping → String → Value → Mapping
  | [], key, value => [(key, value)]
  | (k, v) :: rest, key, value =>
      if k = key then (key, value) :: rest else (k, v) :: insert rest key value

/-- Take away the field of a key; the others keep their order. -/
def remove (fields : Mapping) (key : String) : Mapping :=
  fields.filter fun field => field.1 ≠ key

def merge (base own : Mapping) : Mapping :=
  own.foldl (fun fields field => insert fields field.1 field.2) base

/-- The mapping of members as they were read: a repeated key keeps its first place and its
last value. -/
def ofMembers (members : List (String × Value)) : Mapping := merge [] members

@[simp] theorem get?_nil (key : String) : get? [] key = none := rfl

theorem get?_cons (k : String) (v : Value) (rest : Mapping) (key : String) :
    get? ((k, v) :: rest) key = if key = k then some v else get? rest key := by
  unfold get?
  rw [List.lookup_cons]
  by_cases h : key = k
  · simp [h]
  · have hbeq : (key == k) = false := by simpa using h
    simp [h, hbeq]

@[simp] theorem insert_nil (key : String) (value : Value) :
    insert [] key value = [(key, value)] := rfl

theorem insert_cons (k : String) (v : Value) (rest : Mapping) (key : String) (value : Value) :
    insert ((k, v) :: rest) key value =
      if k = key then (key, value) :: rest else (k, v) :: insert rest key value := rfl

theorem get?_insert (fields : Mapping) (key : String) (value : Value) (k : String) :
    (insert fields key value).get? k = if k = key then some value else fields.get? k := by
  induction fields with
  | nil => simp [get?_cons]
  | cons field rest ih =>
      obtain ⟨l, v⟩ := field
      by_cases hl : l = key
      · subst hl
        by_cases hk : k = l <;> simp [insert_cons, get?_cons, hk]
      · by_cases hk : k = l
        · subst hk
          simp [insert_cons, get?_cons, hl]
        · simp [insert_cons, get?_cons, hl, hk, ih]

theorem keys_insert (fields : Mapping) (key : String) (value : Value) :
    keys (insert fields key value) =
      if key ∈ keys fields then keys fields else keys fields ++ [key] := by
  induction fields with
  | nil => simp [keys]
  | cons field rest ih =>
      obtain ⟨l, v⟩ := field
      by_cases hl : l = key
      · subst hl
        simp [insert_cons, keys]
      · have hne : key ≠ l := fun h => hl h.symm
        simp only [keys] at ih
        by_cases hmem : key ∈ rest.map Prod.fst
        · simp [insert_cons, keys, hl, ih, hmem]
        · simp [insert_cons, keys, hl, ih, hmem, hne]

end Mapping

/-! ## Well-formed values -/

def Mapping.Distinct (fields : Mapping) : Prop := (Mapping.keys fields).Nodup

mutual

def Value.WellFormed : Value → Prop
  | .array items => ItemsWellFormed items
  | .object fields => Mapping.Distinct fields ∧ FieldsWellFormed fields
  | .null | .bool _ | .number _ | .string _ => True
termination_by structural v => v

def ItemsWellFormed : List Value → Prop
  | [] => True
  | item :: rest => item.WellFormed ∧ ItemsWellFormed rest
termination_by structural items => items

def FieldsWellFormed : List (String × Value) → Prop
  | [] => True
  | (_, v) :: rest => v.WellFormed ∧ FieldsWellFormed rest
termination_by structural fields => fields

end

def Mapping.WellFormed (fields : Mapping) : Prop := (Value.object fields).WellFormed

/-! ## Depth -/

mutual

/-- How many brackets are open at most at one place of the value's text. -/
def Value.depth : Value → Nat
  | .array items => 1 + itemsDepth items
  | .object fields => 1 + fieldsDepth fields
  | .null | .bool _ | .number _ | .string _ => 0
termination_by structural v => v

def itemsDepth : List Value → Nat
  | [] => 0
  | item :: rest => max item.depth (itemsDepth rest)
termination_by structural items => items

def fieldsDepth : List (String × Value) → Nat
  | [] => 0
  | (_, v) :: rest => max v.depth (fieldsDepth rest)
termination_by structural fields => fields

end

end Json
end Cardsmith
