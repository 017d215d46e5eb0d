import Cardsmith.Card.Identifier
import Cardsmith.Proofs.Text.Lowercase

/-!
# What identifiers tell

The part of an identifier after the type shows a lower-case name character by character: letters
and digits of ASCII as they are, everything else as an underscore.  So it is a name of its own that
gives the same identifier, and two names are told apart exactly by what is shown.
-/

namespace Cardsmith
namespace Card

open Text

/-! ## Characters -/

def IsIdentifierChar (c : Char) : Prop :=
  ('a' ≤ c ∧ c ≤ 'z') ∨ ('0' ≤ c ∧ c ≤ '9') ∨ c = '_'

instance (c : Char) : Decidable (IsIdentifierChar c) := inferInstanceAs (Decidable (_ ∨ _))

theorem isIdentifierChar_of_lower {c : Char} (h : Lower c) :
    IsIdentifierChar (identifierChar c) := by
  unfold identifierChar
  split_ifs with halnum
  · rcases Bool.or_eq_true_iff.mp halnum with hletter | hdigit
    · rcases Bool.or_eq_true_iff.mp hletter with hupper | hlower
      · exact absurd hupper h.not_isUpper
      · obtain ⟨hfirst, hlast⟩ := Bool.and_eq_true_iff.mp hlower
        exact Or.inl ⟨of_decide_eq_true hfirst, of_decide_eq_true hlast⟩
    · obtain ⟨hfirst, hlast⟩ := Bool.and_eq_true_iff.mp hdigit
      exact Or.inr (Or.inl ⟨of_decide_eq_true hfirst, of_decide_eq_true hlast⟩)
  · exact Or.inr (Or.inr rfl)

theorem IsIdentifierChar.fixed {c : Char} (h : IsIdentifierChar c) :
    Lower c ∧ identifierChar c = c := by
  have hall : ∀ n < 0x80, IsIdentifierChar (Char.ofNat n) →
      Lower (Char.ofNat n) ∧ identifierChar (Char.ofNat n) = Char.ofNat n := by decide
  have hascii : c.toNat < 0x80 := by
    rcases h with ⟨_, hle⟩ | ⟨_, hle⟩ | rfl
    · have hlast : c.toNat ≤ 122 := hle
      omega
    · have hlast : c.toNat ≤ 57 := hle
      omega
    · decide
  rw [← Char.ofNat_toNat c] at h ⊢
  exact hall c.toNat hascii h

/-- Two characters are shown alike unless one of them is a letter or a digit of ASCII. -/
theorem identifierChar_eq_iff {c d : Char} :
    identifierChar c = identifierChar d ↔ (c.isAlphanum ∨ d.isAlphanum → c = d) := by
  have hscore : ∀ e : Char, e.isAlphanum → e ≠ '_' := by
    rintro e he rfl
    cases he
  unfold identifierChar
  split_ifs with hc hd hd
  · simp [hc]
  · simp only [hc, true_or, true_imp_iff]
    constructor
    · intro h
      exact absurd h (hscore c hc)
    · rintro rfl
      exact absurd hc hd
  · simp only [hd, or_true, true_imp_iff]
    constructor
    · intro h
      exact absurd h.symm (hscore d hd)
    · rintro rfl
      exact absurd hd hc
  · simp [hc, hd]

/-! ## Names -/

def shown (name : String) : String := String.ofList ((lowercase name).toList.map identifierChar)

theorem identifier_eq (name type : String) :
    identifier name type = lowercase type ++ "_" ++ shown name := by
  rw [String.append_assoc, identifier, shown, String.ofList_append, String.ofList_toList,
    String.ofList_cons]
  rfl

theorem isIdentifierChar_of_mem_shown {name : String} {c : Char} (h : c ∈ (shown name).toList) :
    IsIdentifierChar c := by
  rw [shown, String.toList_ofList] at h
  rcases List.mem_map.mp h with ⟨d, hd, rfl⟩
  exact isIdentifierChar_of_lower (lower_of_mem_lowercase hd)

theorem length_shown (name : String) : (shown name).length = (lowercase name).length := by
  rw [shown, String.length_ofList, List.length_map, String.length_toList]

theorem shown_shown (name : String) : shown (shown name) = shown name := by
  have hfixed := fun c (hc : c ∈ (shown name).toList) => (isIdentifierChar_of_mem_shown hc).fixed
  have hmap : (shown name).toList.map identifierChar = (shown name).toList :=
    (List.map_congr_left fun c hc => (hfixed c hc).right).trans (List.map_id' _)
  rw [shown, lowercase_of_lower fun c hc => (hfixed c hc).left, hmap, String.ofList_toList]

theorem shown_lowercase (name : String) : shown (lowercase name) = shown name := by
  rw [shown, lowercase_lowercase, shown]

theorem shown_eq_iff {name other : String} :
    shown name = shown other ↔
      (lowercase name).length = (lowercase other).length ∧
        ∀ (i : Nat) (c d : Char), (lowercase name).toList[i]? = some c →
          (lowercase other).toList[i]? = some d → c.isAlphanum ∨ d.isAlphanum → c = d := by
  simp only [shown, String.ofList_inj, List.ext_getElem_iff, List.length_map,
    String.length_toList, List.getElem_map, identifierChar_eq_iff]
  refine and_congr_right fun hlength => ?_
  constructor
  · intro h i c d hc hd
    obtain ⟨hi, rfl⟩ := List.getElem?_eq_some_iff.mp hc
    obtain ⟨hj, rfl⟩ := List.getElem?_eq_some_iff.mp hd
    exact h i hi hj
  · intro h i hi hj
    exact h i _ _ (List.getElem?_eq_getElem hi) (List.getElem?_eq_getElem hj)

/-! ## Identifiers -/

/-- An identifier is the type in lower case, an underscore and a part that shows the name in lower
case, one character for each.  That part is a name with the same identifier, and so is the name in
lower case; names of one type are told apart exactly by how many characters they have in lower
case and by where which letters and digits of ASCII stand. -/
theorem identifier_shows_name (name type : String) :
    ∃ part, identifier name type = lowercase type ++ "_" ++ part ∧
      (∀ c ∈ part.toList, IsIdentifierChar c) ∧
      part.length = (lowercase name).length ∧
      identifier part (lowercase type) = identifier name type ∧
      identifier (lowercase name) (lowercase type) = identifier name type ∧
      ∀ other, identifier other type = identifier name type ↔
        (lowercase other).length = (lowercase name).length ∧
          ∀ (i : Nat) (c d : Char), (lowercase other).toList[i]? = some c →
            (lowercase name).toList[i]? = some d → c.isAlphanum ∨ d.isAlphanum → c = d := by
  refine ⟨shown name, identifier_eq name type, fun _ hc => isIdentifierChar_of_mem_shown hc,
    length_shown name, ?_, ?_, ?_⟩
  · rw [identifier_eq, lowercase_lowercase, shown_shown, identifier_eq]
  · rw [identifier_eq, lowercase_lowercase, shown_lowercase, identifier_eq]
  · intro other
    rw [identifier_eq, identifier_eq, ← shown_eq_iff, String.append_right_inj]

/-- A final sigma, a letter that lower-casing makes two characters of, and one that it makes an
ASCII letter of. -/
example : identifier "ΟΔΟΣ İ \u212A" "SPELL" = "spell______i__k" := by decide +kernel

end Card
end Cardsmith
