import Cardsmith.Proofs.Json.Reading

/-!
# Written values told apart

A layout that only adds blanks writes no two values alike, whatever they are: too deep to be read
back, with the reserved key first, or with a key twice.  The reader as a whole is of no use here,
but its parts are: heads, strings and numerals are read off the text, and the containers are gone
through side by side.
-/

namespace Cardsmith
namespace Json

open Utf8

/-! ## Heads -/

def Value.head : Value → Head
  | .null => .scalar .null
  | .bool b => .scalar (.bool b)
  | .number n => .scalar (.number n)
  | .string s => .scalar (.string s)
  | .array _ => .list
  | .object _ => .object

theorem Scalar.head_value (s : Scalar) : s.value.head = .scalar s := by
  cases s <;> rfl

theorem Value.eq_of_head_scalar {v : Value} {s : Scalar} (h : v.head = .scalar s) :
    v = s.value := by
  cases v <;> cases h <;> rfl

theorem Value.eq_of_head_list {v : Value} (h : v.head = .list) : ∃ items, v = .array items := by
  cases v <;> cases h
  exact ⟨_, rfl⟩

theorem Value.eq_of_head_object {v : Value} (h : v.head = .object) :
    ∃ fields, v = .object fields := by
  cases v <;> cases h
  exact ⟨_, rfl⟩

variable {layout : Layout} {level : Nat}

theorem readHead_print {budget : Nat} (v : Value)
    (hbudget : (encodeChars (v.print layout level)).length ≤ budget) {rest : Bytes}
    (h : EndsNumeral rest) :
    ∃ left, readHead budget (encodeChars (v.print layout level) ++ rest) = .ok (v.head, left) := by
  cases v with
  | null => exact ⟨rest, readHead_scalar .null hbudget h⟩
  | bool b => exact ⟨rest, readHead_scalar (.bool b) hbudget h⟩
  | number n => exact ⟨rest, readHead_scalar (.number n) hbudget h⟩
  | string s => exact ⟨rest, readHead_scalar (.string s) hbudget h⟩
  | array items =>
      cases items with
      | nil => exact ⟨_, rfl⟩
      | cons item items =>
          rw [encodeChars_array]
          exact ⟨_, readHead_list _ _⟩
  | object fields =>
      cases fields with
      | nil => exact ⟨_, rfl⟩
      | cons field fields =>
          obtain ⟨key, v⟩ := field
          rw [encodeChars_object]
          exact ⟨_, readHead_object _ _⟩

theorem head_eq_of_print {v w : Value} {rest rest' : Bytes} (hrest : EndsNumeral rest)
    (hrest' : EndsNumeral rest')
    (h : encodeChars (v.print layout level) ++ rest = encodeChars (w.print layout level) ++ rest') :
    v.head = w.head := by
  have hleft := Nat.le_max_left (encodeChars (v.print layout level)).length
    (encodeChars (w.print layout level)).length
  have hright := Nat.le_max_right (encodeChars (v.print layout level)).length
    (encodeChars (w.print layout level)).length
  rcases readHead_print v hleft hrest with ⟨left, hv⟩
  rcases readHead_print w hright hrest' with ⟨left', hw⟩
  rw [h, hw] at hv
  exact (Prod.mk.inj (Except.ok.inj hv)).left.symm

theorem stringChars_inj {s t : String} {rest rest' : Bytes}
    (h : encodeChars (stringChars s) ++ rest = encodeChars (stringChars t) ++ rest') :
    s = t ∧ rest = rest' := by
  have hs := readHead_string s (Nat.le_max_left _ (encodeChars (stringChars t)).length) rest
  have ht := readHead_string t (Nat.le_max_right (encodeChars (stringChars s)).length _) rest'
  rw [h, ht] at hs
  cases hs
  exact ⟨rfl, rfl⟩

/-! ## Lists of parts -/

/-- No other value is written like this one, and what comes after it is told from it. -/
def Value.Legible (layout : Layout) (level : Nat) (v : Value) : Prop :=
  ∀ (w : Value) (rest rest' : Bytes), EndsNumeral rest → EndsNumeral rest' →
    encodeChars (v.print layout level) ++ rest = encodeChars (w.print layout level) ++ rest' →
    v = w ∧ rest = rest'

theorem blanks_cons_ne {blanks : Bytes} (hblanks : Blank blanks) {b c : UInt8}
    (hb : isBlankByte b = false) (hc : isBlankByte c = false) (hne : b ≠ c) (rest rest' : Bytes) :
    blanks ++ b :: rest ≠ c :: rest' := by
  intro h
  have hskip := congrArg skipBlanks h
  rw [skipBlanks_append_cons hblanks hb, skipBlanks_cons hc] at hskip
  exact hne (List.cons.inj hskip).left

section Parts

variable {blanks rest rest' : Bytes} {item other : Value} {items others : List Value}
  {key key' : String} {v w : Value} {fields otherFields : Mapping}

theorem item_inj (hitem : item.Legible layout level) (hblanks : Blank blanks)
    (h : encodeChars (item.print layout level) ++
        (encodeChars (printItems layout level items) ++ (blanks ++ ']'.toUInt8 :: rest)) =
      encodeChars (other.print layout level) ++
        (encodeChars (printItems layout level others) ++ (blanks ++ ']'.toUInt8 :: rest'))) :
    item = other ∧
      encodeChars (printItems layout level items) ++ (blanks ++ ']'.toUInt8 :: rest) =
        encodeChars (printItems layout level others) ++ (blanks ++ ']'.toUInt8 :: rest') :=
  hitem other _ _ (endsNumeral_items layout level items hblanks rest)
    (endsNumeral_items layout level others hblanks rest') h

theorem printItems_inj (hitems : ∀ item ∈ items, item.Legible layout level)
    (hblanks : Blank blanks)
    (h : encodeChars (printItems layout level items) ++ (blanks ++ ']'.toUInt8 :: rest) =
      encodeChars (printItems layout level others) ++ (blanks ++ ']'.toUInt8 :: rest')) :
    items = others ∧ rest = rest' := by
  induction items generalizing others with
  | nil =>
      cases others with
      | nil =>
          have hclosed := List.append_cancel_left (List.append_cancel_left h)
          exact ⟨rfl, (List.cons.inj hclosed).right⟩
      | cons other others =>
          rw [encodeChars_printItems_cons] at h
          exact absurd h (blanks_cons_ne hblanks (by decide) (by decide) (by decide) _ _)
  | cons item items ih =>
      cases others with
      | nil =>
          rw [encodeChars_printItems_cons] at h
          exact absurd h.symm (blanks_cons_ne hblanks (by decide) (by decide) (by decide) _ _)
      | cons other others =>
          simp only [encodeChars_printItems_cons, List.cons_append, List.append_assoc] at h
          rcases item_inj (hitems item List.mem_cons_self) hblanks
            (List.append_cancel_left (List.cons.inj h).right) with ⟨hitem, hfurther⟩
          rcases ih (fun next hnext => hitems next (List.mem_cons_of_mem _ hnext)) hfurther with
            ⟨hothers, hrest⟩
          exact ⟨by rw [hitem, hothers], hrest⟩

theorem field_inj (hvalue : v.Legible layout level) (hblanks : Blank blanks)
    (h : encodeChars (stringChars key) ++ (encodeChars layout.colon ++
        (encodeChars (v.print layout level) ++
          (encodeChars (printFields layout level fields) ++ (blanks ++ '\x7d'.toUInt8 :: rest)))) =
      encodeChars (stringChars key') ++ (encodeChars layout.colon ++
        (encodeChars (w.print layout level) ++
          (encodeChars (printFields layout level otherFields) ++
            (blanks ++ '\x7d'.toUInt8 :: rest'))))) :
    (key, v) = (key', w) ∧
      encodeChars (printFields layout level fields) ++ (blanks ++ '\x7d'.toUInt8 :: rest) =
        encodeChars (printFields layout level otherFields) ++
          (blanks ++ '\x7d'.toUInt8 :: rest') := by
  rcases stringChars_inj h with ⟨rfl, hafter⟩
  rcases hvalue w _ _ (endsNumeral_fields layout level fields hblanks rest)
    (endsNumeral_fields layout level otherFields hblanks rest')
    (List.append_cancel_left hafter) with ⟨rfl, hfurther⟩
  exact ⟨rfl, hfurther⟩

theorem printFields_inj (hfields : ∀ field ∈ fields, field.2.Legible layout level)
    (hblanks : Blank blanks)
    (h : encodeChars (printFields layout level fields) ++ (blanks ++ '\x7d'.toUInt8 :: rest) =
      encodeChars (printFields layout level otherFields) ++ (blanks ++ '\x7d'.toUInt8 :: rest')) :
    fields = otherFields ∧ rest = rest' := by
  induction fields generalizing otherFields with
  | nil =>
      cases otherFields with
      | nil =>
          have hclosed := List.append_cancel_left (List.append_cancel_left h)
          exact ⟨rfl, (List.cons.inj hclosed).right⟩
      | cons other others =>
          rw [encodeChars_printFields_cons] at h
          exact absurd h (blanks_cons_ne hblanks (by decide) (by decide) (by decide) _ _)
  | cons field fields ih =>
      obtain ⟨key, v⟩ := field
      cases otherFields with
      | nil =>
          rw [encodeChars_printFields_cons] at h
          exact absurd h.symm (blanks_cons_ne hblanks (by decide) (by decide) (by decide) _ _)
      | cons other others =>
          obtain ⟨key', w⟩ := other
          simp only [encodeChars_printFields_cons, List.cons_append, List.append_assoc] at h
          rcases field_inj (hfields (key, v) List.mem_cons_self) hblanks
            (List.append_cancel_left (List.cons.inj h).right) with ⟨hfield, hfurther⟩
          rcases ih (fun next hnext => hfields next (List.mem_cons_of_mem _ hnext)) hfurther with
            ⟨hothers, hrest⟩
          exact ⟨by rw [hfield, hothers], hrest⟩

end Parts

/-! ## Values -/

theorem Scalar.legible (s : Scalar) : s.value.Legible layout level := by
  intro w rest rest' hrest hrest' h
  have hhead : w.head = .scalar s :=
    (head_eq_of_print hrest hrest' h).symm.trans s.head_value
  obtain rfl := Value.eq_of_head_scalar hhead
  exact ⟨rfl, List.append_cancel_left h⟩

theorem Value.legible_array (hlayout : layout.Spaced) {items : List Value}
    (hitems : ∀ item ∈ items, item.Legible layout (level + 1)) :
    (Value.array items).Legible layout level := by
  intro w rest rest' hrest hrest' h
  rcases Value.eq_of_head_list (head_eq_of_print hrest hrest' h).symm with ⟨others, rfl⟩
  have hfirst (item : Value) (more closed : Bytes) :
      ']'.toUInt8 :: closed ≠ encodeChars (layout.line (level + 1)) ++
        (encodeChars (item.print layout (level + 1)) ++ more) := by
    rcases exists_first layout (level + 1) item with ⟨b, tail, hbytes, hblank, hclose⟩
    rw [hbytes]
    exact (blanks_cons_ne (hlayout.line _) hblank (by decide) hclose _ _).symm
  cases items with
  | nil =>
      cases others with
      | nil => exact ⟨rfl, List.append_cancel_left h⟩
      | cons other others =>
          simp only [encodeChars_array, List.cons_append, List.append_assoc] at h
          exact absurd (List.cons.inj h).right (hfirst other _ rest)
  | cons item items =>
      cases others with
      | nil =>
          simp only [encodeChars_array, List.cons_append, List.append_assoc] at h
          exact absurd (List.cons.inj h).right.symm (hfirst item _ rest')
      | cons other others =>
          simp only [encodeChars_array, List.cons_append, List.append_assoc,
            List.nil_append] at h
          rcases item_inj (hitems item List.mem_cons_self) (hlayout.line level)
            (List.append_cancel_left (List.cons.inj h).right) with ⟨hitem, hfurther⟩
          rcases printItems_inj (fun next hnext => hitems next (List.mem_cons_of_mem _ hnext))
            (hlayout.line level) hfurther with ⟨hothers, hrest⟩
          exact ⟨by rw [hitem, hothers], hrest⟩

theorem Value.legible_object (hlayout : layout.Spaced) {fields : Mapping}
    (hfields : ∀ field ∈ fields, field.2.Legible layout (level + 1)) :
    (Value.object fields).Legible layout level := by
  intro w rest rest' hrest hrest' h
  rcases Value.eq_of_head_object (head_eq_of_print hrest hrest' h).symm with ⟨others, rfl⟩
  have hfirst (key : String) (more closed : Bytes) :
      '\x7d'.toUInt8 :: closed ≠ encodeChars (layout.line (level + 1)) ++
        (encodeChars (stringChars key) ++ more) := by
    rw [encodeChars_stringChars]
    exact (blanks_cons_ne (hlayout.line _) (by decide) (by decide) (by decide) _ _).symm
  cases fields with
  | nil =>
      cases others with
      | nil => exact ⟨rfl, List.append_cancel_left h⟩
      | cons other others =>
          obtain ⟨key, w⟩ := other
          simp only [encodeChars_object, List.cons_append, List.append_assoc] at h
          exact absurd (List.cons.inj h).right (hfirst key _ rest)
  | cons field fields =>
      obtain ⟨key, v⟩ := field
      cases others with
      | nil =>
          simp only [encodeChars_object, List.cons_append, List.append_assoc] at h
          exact absurd (List.cons.inj h).right.symm (hfirst key _ rest')
      | cons other others =>
          obtain ⟨key', w⟩ := other
          simp only [encodeChars_object, List.cons_append, List.append_assoc,
            List.nil_append] at h
          rcases field_inj (hfields (key, v) List.mem_cons_self) (hlayout.line level)
            (List.append_cancel_left (List.cons.inj h).right) with ⟨hfield, hfurther⟩
          rcases printFields_inj (fun next hnext => hfields next (List.mem_cons_of_mem _ hnext))
            (hlayout.line level) hfurther with ⟨hothers, hrest⟩
          exact ⟨by rw [hfield, hothers], hrest⟩

/-- Every value is told from every other by what is written for it. -/
theorem Value.legible (hlayout : layout.Spaced) (v : Value) : v.Legible layout level := by
  generalize hdepth : v.depth = depth
  replace hdepth : v.depth ≤ depth := Nat.le_of_eq hdepth
  induction depth generalizing v level with
  | zero =>
      cases v with
      | null => exact Scalar.legible .null
      | bool b => exact Scalar.legible (.bool b)
      | number n => exact Scalar.legible (.number n)
      | string s => exact Scalar.legible (.string s)
      | array items =>
          rw [Value.depth] at hdepth
          omega
      | object fields =>
          rw [Value.depth] at hdepth
          omega
  | succ depth ih =>
      cases v with
      | null => exact Scalar.legible .null
      | bool b => exact Scalar.legible (.bool b)
      | number n => exact Scalar.legible (.number n)
      | string s => exact Scalar.legible (.string s)
      | array items =>
          rw [Value.depth] at hdepth
          have hitems : itemsDepth items ≤ depth := by omega
          apply Value.legible_array hlayout
          intro item hitem
          exact ih item (itemsDepth_le_iff.mp hitems item hitem)
      | object fields =>
          rw [Value.depth] at hdepth
          have hfields : fieldsDepth fields ≤ depth := by omega
          apply Value.legible_object hlayout
          intro field hfield
          exact ih field.2 (fieldsDepth_le_iff.mp hfields field hfield)

theorem Value.print_injective (hlayout : layout.Spaced) {v w : Value}
    (h : v.print layout level = w.print layout level) : v = w := by
  have hbytes : encodeChars (v.print layout level) ++ [] =
      encodeChars (w.print layout level) ++ [] := by rw [h]
  exact (v.legible hlayout w [] [] endsNumeral_nil endsNumeral_nil hbytes).left

end Json
end Cardsmith
