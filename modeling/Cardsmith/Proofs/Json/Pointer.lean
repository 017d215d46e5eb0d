import Mathlib.Data.List.Basic
import Cardsmith.Json.Value

/-!
# JSON Pointers

What a pointer means, after RFC 6901.  A pointer is a slash in front of each of its tokens, where
a token writes `~` as `~0` and a slash as `~1`.  In an object a token names a member; in an array
it is the number of an element in decimal, without a superfluous zero in front; anything else has
no parts.  A token that escapes something else makes the whole pointer one that means nothing.
-/

namespace Cardsmith
namespace Json
namespace Pointer

/-! ## Tokens -/

def unescapeSlashes : List Char → List Char
  | '~' :: '1' :: rest => '/' :: unescapeSlashes rest
  | c :: rest => c :: unescapeSlashes rest
  | [] => []

def unescapeTildes : List Char → List Char
  | '~' :: '0' :: rest => '~' :: unescapeTildes rest
  | c :: rest => c :: unescapeTildes rest
  | [] => []

/-- What a token as it is written stands for. -/
def unescape (token : List Char) : List Char := unescapeTildes (unescapeSlashes token)

def isToken : List Char → Bool
  | '~' :: c :: rest => (c = '0' || c = '1') && isToken rest
  | '~' :: [] => false
  | _ :: rest => isToken rest
  | [] => true

def tokens? (pointer : String) : Option (List String) :=
  match pointer.toList with
  | [] => some []
  | '/' :: rest =>
      let tokens := rest.splitOn '/'
      if tokens.all isToken then some (tokens.map fun token => String.ofList (unescape token))
      else none
  | _ => none

/-! ## Values -/

/-- The number that a token writes in decimal, without a superfluous zero in front. -/
def index? (token : String) : Option Nat :=
  match token.toList with
  | [] => none
  | c :: rest =>
      if (c :: rest).all Char.isDigit ∧ (c = '0' → rest = []) then
        some (Nat.ofDigitChars 10 (c :: rest) 0)
      else none

def part? (token : String) : Value → Option Value
  | .object fields => Mapping.get? fields token
  | .array items => (index? token).bind fun index => items[index]?
  | .null | .bool _ | .number _ | .string _ => none

def follow? (value : Value) : List String → Option Value
  | [] => some value
  | token :: rest => (part? token value).bind fun part => follow? part rest

/-- The part of a value that a pointer leads to. -/
def evaluate? (pointer : String) (value : Value) : Option Value :=
  (tokens? pointer).bind (follow? value)

theorem follow?_append (value : Value) (before after : List String) :
    follow? value (before ++ after) =
      (follow? value before).bind fun part => follow? part after := by
  induction before generalizing value with
  | nil => rfl
  | cons token rest ih =>
      rw [List.cons_append, follow?, follow?, Option.bind_assoc]
      congr 1
      funext part
      exact ih part

/-! ## Characters that are not escaped -/

theorem unescapeSlashes_cons {c : Char} (h : c ≠ '~') (rest : List Char) :
    unescapeSlashes (c :: rest) = c :: unescapeSlashes rest := by
  rw [unescapeSlashes]
  intro _ hc
  exact absurd hc h

theorem unescapeTildes_cons {c : Char} (h : c ≠ '~') (rest : List Char) :
    unescapeTildes (c :: rest) = c :: unescapeTildes rest := by
  rw [unescapeTildes]
  intro _ hc
  exact absurd hc h

theorem isToken_cons {c : Char} (h : c ≠ '~') (rest : List Char) :
    isToken (c :: rest) = isToken rest := by
  cases rest <;> simp [isToken, h]

/-! ## Numbers -/

theorem head?_toDigits {n : Nat} (h : n ≠ 0) : (Nat.toDigits 10 n).head? ≠ some '0' := by
  induction n using Nat.strongRecOn with
  | ind n ih =>
      by_cases hsmall : n < 10
      · rw [Nat.toDigits_of_lt_base hsmall, List.head?_cons]
        intro hzero
        exact h (Nat.digitChar_eq_zero.mp (Option.some.inj hzero))
      · rw [Nat.toDigits_of_base_le (by decide) (by omega),
          List.head?_append_of_ne_nil _ Nat.toDigits_ne_nil]
        exact ih (n / 10) (by omega) (by omega)

theorem index?_toDigits (n : Nat) : index? (String.ofList (Nat.toDigits 10 n)) = some n := by
  have hvalue : Nat.ofDigitChars 10 (Nat.toDigits 10 n) 0 = n :=
    Nat.ofDigitChars_toDigits (by decide) (by decide)
  have hdigits : (Nat.toDigits 10 n).all Char.isDigit = true := by
    rw [List.all_eq_true]
    intro c hc
    exact Nat.isDigit_of_mem_toDigits (by decide) (by decide) hc
  rw [index?, String.toList_ofList]
  cases hchars : Nat.toDigits 10 n with
  | nil => exact absurd hchars Nat.toDigits_ne_nil
  | cons c rest =>
      have hzero : c = '0' → rest = [] := by
        intro hc
        by_cases hn : n = 0
        · rw [hn] at hchars
          cases hchars
          rfl
        · refine absurd ?_ (head?_toDigits hn)
          rw [hchars, hc]
          rfl
      rw [hchars] at hvalue hdigits
      simp only [hdigits, hvalue, true_and, if_pos hzero]

end Pointer
end Json
end Cardsmith
