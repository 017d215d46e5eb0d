/-!
# Numerals

A JSON number kept digit for digit.  A numeral is a sign, a whole part without superfluous
zeros, an optional fraction and an optional exponent; two numerals are equal exactly when they
are written alike, up to the letter and the plus sign of the exponent.
-/

namespace Cardsmith
namespace Json

abbrev Digit := Fin 10

structure Digits where
  head : Digit
  tail : List Digit
  deriving Repr, DecidableEq

namespace Digits

def toList (digits : Digits) : List Digit := digits.head :: digits.tail

def value (digits : Digits) : Nat := digits.toList.foldl (fun n d => n * 10 + d.val) 0

def Canonical (digits : Digits) : Prop := digits.head.val = 0 → digits.tail = []

/-- The digits of a number in front of the digits given, by at most `steps` divisions. -/
def ofNatFrom : Nat → Nat → List Digit → Digits
  | 0, n, after => ⟨Fin.ofNat 10 n, after⟩
  | steps + 1, n, after =>
      if n < 10 then ⟨Fin.ofNat 10 n, after⟩
      else ofNatFrom steps (n / 10) (Fin.ofNat 10 n :: after)

def ofNat (n : Nat) : Digits := ofNatFrom n n []

theorem head_ofNatFrom (steps n : Nat) (after : List Digit) (hsteps : n ≤ steps) (hn : 0 < n) :
    (ofNatFrom steps n after).head.val ≠ 0 := by
  induction steps generalizing n after with
  | zero => omega
  | succ steps ih =>
      unfold ofNatFrom
      split
      · intro h
        have : n % 10 = 0 := by simpa [Fin.ofNat] using h
        omega
      · exact ih (n / 10) _ (by omega) (by omega)

theorem canonical_ofNat (n : Nat) : (ofNat n).Canonical := by
  intro h
  cases n with
  | zero => rfl
  | succ n => exact absurd h (head_ofNatFrom _ _ _ (Nat.le_refl _) (by omega))

end Digits

structure Exponent where
  negative : Bool
  digits : Digits
  deriving Repr, DecidableEq

structure Numeral where
  negative : Bool
  whole : Digits
  fraction : Option Digits
  exponent : Option Exponent
  canonical : whole.Canonical
  deriving Repr, DecidableEq

/-! ## Text -/

def Digit.char (d : Digit) : Char := Char.ofNat (48 + d.val)

def Digits.chars (digits : Digits) : List Char := digits.toList.map Digit.char

def Exponent.chars (exponent : Exponent) : List Char :=
  'e' :: (if exponent.negative then '-' else '+') :: exponent.digits.chars

namespace Numeral

def chars (n : Numeral) : List Char :=
  (if n.negative then ['-'] else []) ++ n.whole.chars ++
    (match n.fraction with
      | some digits => '.' :: digits.chars
      | none => []) ++
    (match n.exponent with
      | some exponent => exponent.chars
      | none => [])

def text (n : Numeral) : String := String.ofList n.chars

/-! ## Value -/

def ofInt (i : Int) : Numeral :=
  { negative := i < 0
    whole := Digits.ofNat i.natAbs
    fraction := none
    exponent := none
    canonical := Digits.canonical_ofNat _ }

def integer? (n : Numeral) : Option Int :=
  match n.fraction, n.exponent with
  | none, none => some (if n.negative then -(n.whole.value : Int) else n.whole.value)
  | _, _ => none

/-- The integer a numeral stands for if a machine word holds it: an unsigned word of 64 bits
without sign, a signed one with it.  A negative zero is no machine integer. -/
def machine? (n : Numeral) : Option Int :=
  match n.integer? with
  | none => none
  | some i =>
      if n.negative then
        if i < 0 && -0x8000000000000000 <= i then some i else none
      else if i < 0x10000000000000000 then some i else none

end Numeral

end Json
end Cardsmith
