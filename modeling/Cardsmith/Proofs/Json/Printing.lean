import Cardsmith.Proofs.Json.Strings

/-!
# The bytes of written values

What a layout writes, part by part, and how long the parts are.  The members of an object may be
written with characters of their own for each value, so that a value may be spelled otherwise than
a layout would spell it; what a layout writes for an object is one such text.
-/

namespace Cardsmith
namespace Json

open Utf8

/-! ## Objects member by member -/

/-- The characters of members, each given by its key and the characters of its value, with a comma
in front of all but the first of an object. -/
def printEntries (layout : Layout) (level : Nat) : Bool → List (String × List Char) → List Char
  | _, [] => []
  | first, entry :: rest =>
      (if first then [] else [',']) ++ layout.line level ++ stringChars entry.1 ++ layout.colon ++
        entry.2 ++ printEntries layout level false rest

def objectChars (layout : Layout) (level : Nat) (entries : List (String × List Char)) : List Char :=
  '\x7b' :: (printEntries layout (level + 1) true entries ++ (layout.line level ++ ['\x7d']))

def Mapping.entries (layout : Layout) (level : Nat) (fields : Mapping) :
    List (String × List Char) :=
  fields.map fun field => (field.1, field.2.print layout level)

theorem printFields_eq (layout : Layout) (level : Nat) (fields : Mapping) :
    printFields layout level fields =
      printEntries layout level false (fields.entries layout level) := by
  induction fields with
  | nil => rfl
  | cons field rest ih =>
      obtain ⟨key, v⟩ := field
      rw [printFields, ih]
      rfl

theorem print_object (layout : Layout) (level : Nat) {fields : Mapping} (h : fields ≠ []) :
    (Value.object fields).print layout level =
      objectChars layout level (fields.entries layout (level + 1)) := by
  cases fields with
  | nil => exact absurd rfl h
  | cons field rest =>
      obtain ⟨key, v⟩ := field
      have hentries : Mapping.entries layout (level + 1) ((key, v) :: rest) =
          (key, v.print layout (level + 1)) :: Mapping.entries layout (level + 1) rest := rfl
      rw [Value.print, printFields_eq, objectChars, hentries, printEntries]
      simp only [if_true, List.nil_append, List.cons_append, List.append_assoc]

/-! ## Bytes -/

def Within (budget : Nat) (entry : String × List Char) : Prop :=
  (encodeChars (stringChars entry.1)).length ≤ budget ∧ (encodeChars entry.2).length ≤ budget

theorem Within.mono {budget larger : Nat} {entry : String × List Char} (h : Within budget entry)
    (hle : budget ≤ larger) : Within larger entry :=
  ⟨Nat.le_trans h.left hle, Nat.le_trans h.right hle⟩

section Bytes

variable (layout : Layout) (level : Nat)

theorem encodeChars_printItems_cons (item : Value) (rest : List Value) :
    encodeChars (printItems layout level (item :: rest)) =
      ','.toUInt8 :: (encodeChars (layout.line level) ++
        (encodeChars (item.print layout level) ++
          encodeChars (printItems layout level rest))) := by
  rw [printItems, List.cons_append, List.cons_append, encodeChars_cons_ascii (by decide),
    encodeChars_append, encodeChars_append, List.append_assoc]

theorem encodeChars_printEntries_cons (first : Bool) (entry : String × List Char)
    (rest : List (String × List Char)) :
    encodeChars (printEntries layout level first (entry :: rest)) =
      encodeChars (if first then [] else [',']) ++ (encodeChars (layout.line level) ++
        (encodeChars (stringChars entry.1) ++ (encodeChars layout.colon ++
          (encodeChars entry.2 ++ encodeChars (printEntries layout level false rest))))) := by
  simp only [printEntries, encodeChars_append, List.append_assoc]

theorem encodeChars_objectChars (entries : List (String × List Char)) :
    encodeChars (objectChars layout level entries) =
      '\x7b'.toUInt8 :: (encodeChars (printEntries layout (level + 1) true entries) ++
        (encodeChars (layout.line level) ++ ['\x7d'.toUInt8])) := by
  rw [objectChars, encodeChars_cons_ascii (by decide), encodeChars_append, encodeChars_append]
  rfl

theorem length_stringChars_pos (s : String) : 0 < (encodeChars (stringChars s)).length := by
  rw [encodeChars_stringChars]
  exact Nat.zero_lt_succ _

theorem length_entries_le (first : Bool) (entries : List (String × List Char)) :
    entries.length ≤ (encodeChars (printEntries layout level first entries)).length := by
  induction entries generalizing first with
  | nil => exact Nat.zero_le _
  | cons entry rest ih =>
      have hkey := length_stringChars_pos entry.1
      have hrest := ih false
      simp only [encodeChars_printEntries_cons, List.length_cons, List.length_append]
      omega

theorem within_of_mem {entry : String × List Char} {entries : List (String × List Char)}
    (h : entry ∈ entries) (first : Bool) :
    Within (encodeChars (printEntries layout level first entries)).length entry := by
  induction entries generalizing first with
  | nil => cases h
  | cons other rest ih =>
      simp only [Within, encodeChars_printEntries_cons, List.length_append]
      rcases List.mem_cons.mp h with rfl | hrest
      · omega
      · obtain ⟨hkey, hchars⟩ := ih hrest false
        omega

theorem encodeChars_printFields_cons (key : String) (v : Value) (rest : Mapping) :
    encodeChars (printFields layout level ((key, v) :: rest)) =
      ','.toUInt8 :: (encodeChars (layout.line level) ++ (encodeChars (stringChars key) ++
        (encodeChars layout.colon ++ (encodeChars (v.print layout level) ++
          encodeChars (printFields layout level rest))))) := by
  simp only [printFields_eq]
  exact encodeChars_printEntries_cons layout level false (key, v.print layout level) _

theorem encodeChars_array (item : Value) (rest : List Value) :
    encodeChars ((Value.array (item :: rest)).print layout level) =
      '['.toUInt8 :: (encodeChars (layout.line (level + 1)) ++
        (encodeChars (item.print layout (level + 1)) ++
          (encodeChars (printItems layout (level + 1) rest) ++
            (encodeChars (layout.line level) ++ [']'.toUInt8])))) := by
  have hclose : encodeChars [']'] = [']'.toUInt8] := by decide
  rw [Value.print]
  simp only [List.cons_append]
  rw [encodeChars_cons_ascii (by decide)]
  simp only [encodeChars_append, List.append_assoc, hclose]

theorem encodeChars_object (key : String) (v : Value) (rest : Mapping) :
    encodeChars ((Value.object ((key, v) :: rest)).print layout level) =
      '\x7b'.toUInt8 :: (encodeChars (layout.line (level + 1)) ++
        (encodeChars (stringChars key) ++ (encodeChars layout.colon ++
          (encodeChars (v.print layout (level + 1)) ++
            (encodeChars (printFields layout (level + 1) rest) ++
              (encodeChars (layout.line level) ++ ['\x7d'.toUInt8])))))) := by
  have hclose : encodeChars ['\x7d'] = ['\x7d'.toUInt8] := by decide
  rw [Value.print]
  simp only [List.cons_append]
  rw [encodeChars_cons_ascii (by decide)]
  simp only [encodeChars_append, List.append_assoc, hclose]

theorem length_items_le (items : List Value) :
    items.length ≤ (encodeChars (printItems layout level items)).length := by
  induction items with
  | nil => exact Nat.zero_le _
  | cons item rest ih =>
      simp only [encodeChars_printItems_cons, List.length_cons, List.length_append]
      omega

theorem length_item_le {items : List Value} {item : Value} (h : item ∈ items) :
    (encodeChars (item.print layout level)).length ≤
      (encodeChars (printItems layout level items)).length := by
  induction items with
  | nil => cases h
  | cons first rest ih =>
      simp only [encodeChars_printItems_cons, List.length_cons, List.length_append]
      rcases List.mem_cons.mp h with rfl | hrest
      · omega
      · have hle := ih hrest
        omega

theorem length_fields_le (fields : Mapping) :
    fields.length ≤ (encodeChars (printFields layout level fields)).length := by
  have hle := length_entries_le layout level false (fields.entries layout level)
  rwa [← printFields_eq, Mapping.entries, List.length_map] at hle

theorem length_field_le {fields : Mapping} {field : String × Value} (h : field ∈ fields) :
    (encodeChars (stringChars field.1)).length ≤
        (encodeChars (printFields layout level fields)).length ∧
      (encodeChars (field.2.print layout level)).length ≤
        (encodeChars (printFields layout level fields)).length := by
  have hmem : (field.1, field.2.print layout level) ∈ fields.entries layout level :=
    List.mem_map.mpr ⟨field, h, rfl⟩
  rw [printFields_eq]
  exact within_of_mem layout level hmem false

end Bytes

end Json
end Cardsmith
