import Mathlib.Data.List.Induction
import Cardsmith.Proofs.Json.Strings

/-!
# Reading written numerals

A numeral is read back from any text that spells it, if what follows it cannot be a part of it.
-/

namespace Cardsmith
namespace Json

open Utf8

/-! ## What may follow -/

def NoDigit (bs : Bytes) : Prop := ∀ b, bs.head? = some b → digit? b = none

def EndsNumeral (bs : Bytes) : Prop :=
  ∀ b, bs.head? = some b →
    digit? b = none ∧ b ≠ '.'.toUInt8 ∧ b ≠ 'e'.toUInt8 ∧ b ≠ 'E'.toUInt8

theorem endsNumeral_nil : EndsNumeral [] := by
  intro b hb
  cases hb

theorem EndsNumeral.noDigit {bs : Bytes} (h : EndsNumeral bs) : NoDigit bs := by
  intro b hb
  exact (h b hb).left

theorem noDigit_cons {b : UInt8} (h : digit? b = none) (rest : Bytes) : NoDigit (b :: rest) := by
  intro d hd
  cases hd
  exact h

/-! ## Digits -/

theorem digit?_char (d : Digit) : digit? d.char.toUInt8 = some d := by
  revert d
  decide

theorem encodeChars_chars (ds : List Digit) :
    encodeChars (ds.map Digit.char) = ds.map fun d => d.char.toUInt8 := by
  induction ds with
  | nil => rfl
  | cons d rest ih =>
      have hascii : d.char.toNat < 0x80 := by
        revert d
        decide
      rw [List.map_cons, encodeChars_cons, encodeChar_of_ascii hascii, ih]
      rfl

theorem spanDigits_written (ds : List Digit) {rest : Bytes} (h : NoDigit rest) :
    spanDigits (encodeChars (ds.map Digit.char) ++ rest) = (ds, rest) := by
  rw [encodeChars_chars]
  induction ds with
  | nil =>
      cases rest with
      | nil => rfl
      | cons b bs => simp [spanDigits, h b rfl]
  | cons d ds ih => simp [spanDigits, digit?_char, ih]

theorem encodeChars_digits (digits : Digits) :
    encodeChars digits.chars =
      digits.head.char.toUInt8 :: encodeChars (digits.tail.map Digit.char) := by
  rw [Digits.chars, Digits.toList, encodeChars_chars, encodeChars_chars]
  rfl

/-! ## Parts -/

theorem readWhole_written {digits : Digits} (hcanonical : digits.Canonical) {rest : Bytes}
    (h : NoDigit rest) :
    readWhole (encodeChars digits.chars ++ rest) = .ok (⟨digits, hcanonical⟩, rest) := by
  obtain ⟨head, tail⟩ := digits
  rw [encodeChars_digits, List.cons_append]
  simp only [readWhole, digit?_char]
  by_cases hzero : head.val = 0
  · have htail : tail = [] := hcanonical hzero
    subst htail
    cases rest with
    | nil => simp [hzero]
    | cons b bs => simp [hzero, h b rfl]
  · simp [hzero, spanDigits_written tail h]

def fractionChars : Option Digits → List Char
  | some digits => '.' :: digits.chars
  | none => []

/-- What a text may choose in spelling an exponent; all else in a numeral has one spelling. -/
structure Spelling where
  capital : Bool
  plus : Bool

def Spelling.plain : Spelling := ⟨false, true⟩

def Spelling.letter (spelling : Spelling) : Char := if spelling.capital then 'E' else 'e'

def Spelling.sign (spelling : Spelling) (negative : Bool) : List Char :=
  if negative then ['-'] else if spelling.plus then ['+'] else []

def exponentChars (spelling : Spelling) : Option Exponent → List Char
  | some exponent =>
      spelling.letter :: (spelling.sign exponent.negative ++ exponent.digits.chars)
  | none => []

theorem encodeChars_fraction (digits : Digits) :
    encodeChars (fractionChars (some digits)) = '.'.toUInt8 :: encodeChars digits.chars := by
  rw [fractionChars, encodeChars_cons, encodeChar_of_ascii (by decide)]
  rfl

theorem encodeChars_exponent (spelling : Spelling) (exponent : Exponent) :
    encodeChars (exponentChars spelling (some exponent)) =
      spelling.letter.toUInt8 ::
        encodeChars (spelling.sign exponent.negative ++ exponent.digits.chars) := by
  have hletter : spelling.letter.toNat < 0x80 := by
    unfold Spelling.letter
    cases spelling.capital <;> decide
  rw [exponentChars, encodeChars_cons, encodeChar_of_ascii hletter]
  rfl

theorem readExponentSign_written (spelling : Spelling) (negative : Bool) (digits : Digits)
    (rest : Bytes) :
    readExponentSign (encodeChars (spelling.sign negative ++ digits.chars) ++ rest) =
      (negative, encodeChars digits.chars ++ rest) := by
  unfold Spelling.sign
  cases negative with
  | true => rfl
  | false =>
      cases spelling.plus with
      | true => rfl
      | false =>
          have hdigit : ∀ d : Digit, d.char.toUInt8 ≠ '+'.toUInt8 ∧ d.char.toUInt8 ≠ '-'.toUInt8 :=
            by decide
          obtain ⟨hplus, hminus⟩ := hdigit digits.head
          rw [if_neg Bool.false_ne_true, if_neg Bool.false_ne_true, List.nil_append,
            encodeChars_digits, List.cons_append, readExponentSign, if_neg hplus, if_neg hminus]

theorem readFraction_written (fraction : Option Digits) {rest : Bytes} (hdigit : NoDigit rest)
    (hpoint : rest.head? ≠ some '.'.toUInt8) :
    readFraction (encodeChars (fractionChars fraction) ++ rest) = .ok (fraction, rest) := by
  cases fraction with
  | none =>
      rw [fractionChars, encodeChars_nil, List.nil_append]
      cases rest with
      | nil => rfl
      | cons b bs =>
          have hb : b ≠ '.'.toUInt8 := by simpa using hpoint
          rw [readFraction, if_neg hb]
  | some digits =>
      have hspan := spanDigits_written digits.toList hdigit
      have hbytes : encodeChars (digits.toList.map Digit.char) = encodeChars digits.chars := rfl
      rw [hbytes, Digits.toList] at hspan
      rw [encodeChars_fraction, List.cons_append, readFraction, if_pos rfl, hspan]

theorem readExponent_written (spelling : Spelling) (exponent : Option Exponent) {rest : Bytes}
    (h : EndsNumeral rest) :
    readExponent (encodeChars (exponentChars spelling exponent) ++ rest) =
      .ok (exponent, rest) := by
  cases exponent with
  | none =>
      rw [exponentChars, encodeChars_nil, List.nil_append]
      cases rest with
      | nil => rfl
      | cons b bs =>
          have hb := h b rfl
          have hletter : ¬ (b = 'e'.toUInt8 ∨ b = 'E'.toUInt8) := by
            intro hor
            rcases hor with hlower | hupper
            · exact hb.right.right.left hlower
            · exact hb.right.right.right hupper
          rw [readExponent, if_neg hletter]
  | some exponent =>
      obtain ⟨negative, digits⟩ := exponent
      have hspan := spanDigits_written digits.tail h.noDigit
      have hletter :
          spelling.letter.toUInt8 = 'e'.toUInt8 ∨ spelling.letter.toUInt8 = 'E'.toUInt8 := by
        unfold Spelling.letter
        cases spelling.capital <;> decide
      rw [encodeChars_exponent, List.cons_append, readExponent, if_pos hletter,
        readExponentSign_written, encodeChars_digits, List.cons_append]
      simp only [digit?_char, hspan]

/-! ## Whole numerals -/

def Numeral.unsignedChars (spelling : Spelling) (n : Numeral) : List Char :=
  n.whole.chars ++ (fractionChars n.fraction ++ exponentChars spelling n.exponent)

def Numeral.spelled (spelling : Spelling) (n : Numeral) : List Char :=
  (if n.negative then ['-'] else []) ++ n.unsignedChars spelling

theorem Numeral.chars_eq (n : Numeral) : n.chars = n.spelled .plain := by
  have hsign (negative : Bool) :
      Spelling.plain.sign negative = [if negative then '-' else '+'] := by
    cases negative <;> rfl
  rw [Numeral.chars, Numeral.spelled, Numeral.unsignedChars, List.append_assoc, List.append_assoc]
  cases n.fraction <;> cases n.exponent <;> simp only [exponentChars, hsign] <;> rfl

theorem head?_exponent {spelling : Spelling} {exponent : Option Exponent} {rest : Bytes}
    (h : EndsNumeral rest) {b : UInt8}
    (hb : (encodeChars (exponentChars spelling exponent) ++ rest).head? = some b) :
    digit? b = none ∧ b ≠ '.'.toUInt8 := by
  cases exponent with
  | none =>
      have hrest := h b (by simpa [exponentChars] using hb)
      exact ⟨hrest.left, hrest.right.left⟩
  | some exponent =>
      rw [encodeChars_exponent] at hb
      cases hb
      unfold Spelling.letter
      cases spelling.capital <;> decide

theorem noDigit_fraction {fraction : Option Digits} {rest : Bytes} (h : NoDigit rest) :
    NoDigit (encodeChars (fractionChars fraction) ++ rest) := by
  cases fraction with
  | none => simpa [fractionChars] using h
  | some digits =>
      rw [encodeChars_fraction]
      exact noDigit_cons (by decide) _

theorem readNumeral_written (spelling : Spelling) (n : Numeral) {rest : Bytes}
    (h : EndsNumeral rest) :
    readNumeral n.negative (encodeChars (n.unsignedChars spelling) ++ rest) = .ok (n, rest) := by
  have hexponent : ∀ b,
      (encodeChars (exponentChars spelling n.exponent) ++ rest).head? = some b →
        digit? b = none ∧ b ≠ '.'.toUInt8 := fun b hb => head?_exponent h hb
  have hdigit : NoDigit (encodeChars (exponentChars spelling n.exponent) ++ rest) := by
    intro b hb
    exact (hexponent b hb).left
  have hpoint :
      (encodeChars (exponentChars spelling n.exponent) ++ rest).head? ≠ some '.'.toUInt8 := by
    intro hhead
    exact (hexponent _ hhead).right rfl
  rw [Numeral.unsignedChars, encodeChars_append, encodeChars_append, List.append_assoc,
    List.append_assoc, readNumeral, readWhole_written n.canonical (noDigit_fraction hdigit)]
  simp only [bind, Except.bind, readFraction_written n.fraction hdigit hpoint,
    readExponent_written spelling n.exponent h]
  rfl

/-! ## Carried numerals -/

/-- The text that carries a numeral gives it back. -/
theorem Numeral.ofText_text (n : Numeral) : Numeral.ofText n.text = .ok n := by
  have hread := readNumeral_written .plain n endsNumeral_nil
  have hwhole : readWholeNumeral (encodeChars n.chars) = .ok n := by
    rw [List.append_nil] at hread
    rw [Numeral.chars_eq, Numeral.spelled]
    cases hnegative : n.negative with
    | true =>
        have hbytes : encodeChars (['-'] ++ n.unsignedChars .plain) =
            '-'.toUInt8 :: encodeChars (n.unsignedChars .plain) := by
          rw [List.singleton_append, encodeChars_cons, encodeChar_of_ascii (by decide)]
          rfl
        rw [hnegative] at hread
        rw [if_pos rfl, hbytes]
        simp only [readWholeNumeral, if_true, hread]
    | false =>
        have hminus (d : Digit) : d.char.toUInt8 ≠ '-'.toUInt8 := by
          revert d
          decide
        rw [hnegative] at hread
        rw [if_neg Bool.false_ne_true, List.nil_append]
        rw [Numeral.unsignedChars, encodeChars_append, encodeChars_digits, List.cons_append]
          at hread ⊢
        simp only [readWholeNumeral, if_neg (hminus _), digit?_char, Option.isSome_some, if_true,
          hread]
  simp only [Numeral.ofText, Numeral.text, Utf8.encode, String.toList_ofList, hwhole]

/-! ## Integers -/

namespace Digits

def push (n : Nat) (d : Digit) : Nat := n * 10 + d.val

theorem value_ofNatFrom {steps n : Nat} (hsteps : n ≤ steps) (after : List Digit) :
    (ofNatFrom steps n after).value = after.foldl push n := by
  induction steps generalizing n after with
  | zero =>
      obtain rfl : n = 0 := Nat.le_zero.mp hsteps
      rfl
  | succ steps ih =>
      rw [ofNatFrom]
      by_cases hsmall : n < 10
      · have hdigit : push 0 (Fin.ofNat 10 n) = n := by
          rw [push, Fin.val_ofNat, Nat.mod_eq_of_lt hsmall]
          omega
        rw [if_pos hsmall]
        show after.foldl push (push 0 (Fin.ofNat 10 n)) = after.foldl push n
        rw [hdigit]
      · have hdigit : push (n / 10) (Fin.ofNat 10 n) = n := by
          rw [push, Fin.val_ofNat]
          omega
        rw [if_neg hsmall, ih (by omega), List.foldl_cons, hdigit]

theorem value_ofNat (n : Nat) : (ofNat n).value = n := value_ofNatFrom (Nat.le_refl n) []

theorem value_concat (head : Digit) (tail : List Digit) (d : Digit) :
    value ⟨head, tail ++ [d]⟩ = push (value ⟨head, tail⟩) d := by
  rw [value, toList, ← List.cons_append, List.foldl_concat]
  rfl

theorem value_pos {head : Digit} (hhead : head.val ≠ 0) (tail : List Digit) :
    0 < value ⟨head, tail⟩ := by
  induction tail using List.reverseRecOn with
  | nil => simpa [value, toList] using Nat.pos_of_ne_zero hhead
  | append_singleton tail d ih =>
      rw [value_concat, push]
      omega

theorem ofNatFrom_value {head : Digit} {tail : List Digit} (hcanonical : Canonical ⟨head, tail⟩)
    {steps : Nat} (hsteps : value ⟨head, tail⟩ ≤ steps) (after : List Digit) :
    ofNatFrom steps (value ⟨head, tail⟩) after = ⟨head, tail ++ after⟩ := by
  induction tail using List.reverseRecOn generalizing steps after with
  | nil =>
      have hvalue : value ⟨head, []⟩ = head.val := by simp [value, toList]
      have hdigit : Fin.ofNat 10 head.val = head := by
        apply Fin.ext
        rw [Fin.val_ofNat, Nat.mod_eq_of_lt head.isLt]
      rw [hvalue]
      cases steps with
      | zero => rw [ofNatFrom, hdigit, List.nil_append]
      | succ steps => rw [ofNatFrom, if_pos head.isLt, hdigit, List.nil_append]
  | append_singleton tail d ih =>
      have hhead : head.val ≠ 0 := by
        intro hzero
        exact List.concat_ne_nil d tail (by simpa using hcanonical hzero)
      have hpositive := value_pos hhead tail
      have hdigit := d.isLt
      rw [value_concat, push] at hsteps ⊢
      obtain ⟨steps, rfl⟩ := Nat.exists_eq_succ_of_ne_zero (n := steps) (by omega)
      have hdiv : (value ⟨head, tail⟩ * 10 + d.val) / 10 = value ⟨head, tail⟩ := by omega
      have hlast : Fin.ofNat 10 (value ⟨head, tail⟩ * 10 + d.val) = d := by
        apply Fin.ext
        rw [Fin.val_ofNat]
        omega
      rw [ofNatFrom, if_neg (by omega), hdiv, hlast, ih (fun hzero => absurd hzero hhead) (by omega),
        List.append_assoc, List.singleton_append]

theorem ofNat_value {digits : Digits} (hcanonical : digits.Canonical) :
    ofNat digits.value = digits := by
  obtain ⟨head, tail⟩ := digits
  rw [ofNat, ofNatFrom_value hcanonical (Nat.le_refl _), List.append_nil]

end Digits

namespace Numeral

theorem integer?_ofInt (i : Int) : (ofInt i).integer? = some i := by
  simp only [integer?, ofInt, Digits.value_ofNat, decide_eq_true_eq, Option.some.injEq]
  split_ifs <;> omega

def signed (n : Numeral) : Int := if n.negative then -(n.whole.value : Int) else n.whole.value

theorem integer?_eq_some_iff {n : Numeral} {i : Int} :
    n.integer? = some i ↔ n.fraction = none ∧ n.exponent = none ∧ n.signed = i := by
  unfold integer? signed
  cases n.fraction <;> cases n.exponent <;> simp

theorem ofInt_of_machine? {n : Numeral} {i : Int} (h : n.machine? = some i) : ofInt i = n := by
  obtain ⟨negative, whole, fraction, exponent, hcanonical⟩ := n
  have hparts : fraction = none ∧ exponent = none := by
    cases fraction with
    | some digits => cases h
    | none =>
        cases exponent with
        | some digits => cases h
        | none => exact ⟨rfl, rfl⟩
  obtain ⟨rfl, rfl⟩ := hparts
  have hsign : decide (i < 0) = negative ∧ i.natAbs = whole.value := by
    cases negative with
    | true =>
        simp only [machine?, integer?, if_true] at h
        split_ifs at h with hbound
        cases h
        simp only [Bool.and_eq_true, decide_eq_true_eq] at hbound
        exact ⟨decide_eq_true hbound.left, by omega⟩
    | false =>
        simp only [machine?, integer?, Bool.false_eq_true, if_false] at h
        split_ifs at h
        cases h
        exact ⟨decide_eq_false (by omega), by omega⟩
  simp only [ofInt, hsign, Digits.ofNat_value hcanonical]

end Numeral

end Json
end Cardsmith
