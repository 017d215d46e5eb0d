import Mathlib.Data.List.Basic
import Mathlib.Data.String.Basic
import Cardsmith.Proofs.Bytes.Utf8

/-!
# The order of texts

Texts are ordered as their bytes are.  The bytes of a character are digits of its number to the
base 64, and the first one tells how many there are, so the first byte in which two characters
differ decides like their numbers.
-/

namespace Cardsmith
namespace Utf8

/-! ## Digits -/

/-- The digits of a number to the base 64, so many of them after the first, which is counted from
`base`. -/
def digits (base : Nat) : Nat → Nat → Bytes
  | 0, n => [UInt8.ofNat (base + n)]
  | more + 1, n => digits base more (n / 64) ++ [UInt8.ofNat (0x80 + n % 64)]

/-- What the first byte of a character is counted from, and how many bytes come after it. -/
def layout (n : Nat) : Nat × Nat :=
  if n < 0x80 then (0, 0)
  else if n < 0x800 then (0xC0, 1)
  else if n < 0x10000 then (0xE0, 2)
  else (0xF0, 3)

theorem encodeChar_eq_digits (c : Char) :
    encodeChar c = digits (layout c.toNat).1 (layout c.toNat).2 c.toNat := by
  simp only [encodeChar, layout]
  split_ifs <;>
    simp only [digits, Nat.div_div_eq_div_mul, Nat.zero_add, List.cons_append, List.nil_append]

theorem digits_eq_cons (base more n : Nat) :
    ∃ tail, digits base more n = UInt8.ofNat (base + n / 64 ^ more) :: tail := by
  induction more generalizing n with
  | zero => exact ⟨[], by rw [digits, Nat.pow_zero, Nat.div_one]⟩
  | succ more ih =>
      rcases ih (n / 64) with ⟨tail, htail⟩
      refine ⟨tail ++ [UInt8.ofNat (0x80 + n % 64)], ?_⟩
      rw [digits, htail, Nat.div_div_eq_div_mul, Nat.pow_succ', List.cons_append]

theorem ofNat_lt_ofNat {n m : Nat} (h : n < m) (hm : m < 256) :
    UInt8.ofNat n < UInt8.ofNat m := by
  have hn : n < 256 := Nat.lt_trans h hm
  rw [UInt8.lt_iff_toNat_lt, toNat_ofNat_of_lt hn, toNat_ofNat_of_lt hm]
  exact h

theorem digits_append_lt_of_first {base base' more more' n m : Nat}
    (h : base + n / 64 ^ more < base' + m / 64 ^ more') (hm : base' + m / 64 ^ more' < 256)
    (u v : Bytes) : digits base more n ++ u < digits base' more' m ++ v := by
  rcases digits_eq_cons base more n with ⟨tail, htail⟩
  rcases digits_eq_cons base' more' m with ⟨tail', htail'⟩
  rw [htail, htail', List.cons_append, List.cons_append, List.cons_lt_cons_iff]
  exact Or.inl (ofNat_lt_ofNat h hm)

theorem digits_append_lt {base more n m : Nat} (h : n < m) (hm : base + m / 64 ^ more < 256)
    (u v : Bytes) : digits base more n ++ u < digits base more m ++ v := by
  induction more generalizing n m u v with
  | zero =>
      rw [Nat.pow_zero, Nat.div_one] at hm
      apply digits_append_lt_of_first
      · rw [Nat.pow_zero, Nat.div_one, Nat.div_one]
        exact Nat.add_lt_add_left h base
      · rw [Nat.pow_zero, Nat.div_one]
        exact hm
  | succ more ih =>
      rw [Nat.pow_succ', ← Nat.div_div_eq_div_mul] at hm
      rw [digits, digits, List.append_assoc, List.append_assoc]
      rcases Nat.lt_or_eq_of_le (Nat.div_le_div_right (Nat.le_of_lt h) : n / 64 ≤ m / 64) with
        hbefore | hsame
      · exact ih hbefore hm _ _
      · have hlast : 0x80 + n % 64 < 0x80 + m % 64 := by omega
        rw [hsame]
        apply List.append_left_lt
        rw [List.cons_append, List.cons_append, List.cons_lt_cons_iff]
        exact Or.inl (ofNat_lt_ofNat hlast (by omega))

/-! ## Characters and texts -/

theorem layout_of_lt {c d : Char} (h : c < d) :
    layout c.toNat = layout d.toNat ∨
      (layout c.toNat).1 + c.toNat / 64 ^ (layout c.toNat).2 <
        (layout d.toNat).1 + d.toNat / 64 ^ (layout d.toNat).2 := by
  have hless : c.toNat < d.toNat := h
  unfold layout
  split_ifs <;> simp only [true_or] <;> omega

theorem first_lt (c : Char) : (layout c.toNat).1 + c.toNat / 64 ^ (layout c.toNat).2 < 256 := by
  have hc := toNat_lt_or c
  unfold layout
  split_ifs <;> simp only <;> omega

theorem encodeChar_append_lt {c d : Char} (h : c < d) (u v : Bytes) :
    encodeChar c ++ u < encodeChar d ++ v := by
  have hd := first_lt d
  rw [encodeChar_eq_digits, encodeChar_eq_digits]
  rcases layout_of_lt h with hsame | hfirst
  · rw [hsame]
    exact digits_append_lt h hd u v
  · exact digits_append_lt_of_first hfirst hd u v

theorem encodeChars_lt_encodeChars {a b : List Char} (h : a < b) :
    encodeChars a < encodeChars b := by
  induction a generalizing b with
  | nil =>
      cases b with
      | nil => cases h
      | cons d rest =>
          rcases start_encodeChar d with ⟨first, tail, hfirst, _⟩
          rw [encodeChars_cons, hfirst]
          exact List.nil_lt_cons _ _
  | cons c rest ih =>
      cases b with
      | nil => cases h
      | cons d others =>
          rw [encodeChars_cons, encodeChars_cons]
          rcases List.cons_lt_cons_iff.mp h with hless | ⟨rfl, hrest⟩
          · exact encodeChar_append_lt hless _ _
          · exact List.append_left_lt (ih hrest)

theorem encode_lt_encode {a b : String} (h : a < b) : encode a < encode b :=
  encodeChars_lt_encodeChars (String.lt_iff_toList_lt.mp h)

end Utf8
end Cardsmith
