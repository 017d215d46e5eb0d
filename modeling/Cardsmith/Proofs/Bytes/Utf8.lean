import Mathlib.Data.List.Basic
import Cardsmith.Bytes.Utf8

/-!
# Decoding undoes encoding

The bytes of one character start with that character, whatever follows them, so decoding takes
the bytes of a text character by character.
-/

namespace Cardsmith
namespace Utf8

/-! ## One character -/

theorem toNat_ofNat_of_lt {n : Nat} (h : n < 256) : (UInt8.ofNat n).toNat = n := by
  simp [Nat.mod_eq_of_lt h]

theorem toNat_lt_or (c : Char) : c.toNat < 0xD800 ∨ (0xDFFF < c.toNat ∧ c.toNat < 0x110000) :=
  c.valid

theorem start_one {c : Char} (h : c.toNat < 0x80) (rest : Bytes) :
    start (UInt8.ofNat c.toNat) rest = .char c 0 := by
  have hfirst := toNat_ofNat_of_lt (n := c.toNat) (by omega)
  simp only [start, hfirst, if_pos h, Char.ofNat_toNat]

theorem start_two {c : Char} (hlow : ¬ c.toNat < 0x80) (hhigh : c.toNat < 0x800) (rest : Bytes) :
    start (UInt8.ofNat (0xC0 + c.toNat / 64)) (UInt8.ofNat (0x80 + c.toNat % 64) :: rest) =
      .char c 1 := by
  have hfirst := toNat_ofNat_of_lt (n := 0xC0 + c.toNat / 64) (by omega)
  have hsecond := toNat_ofNat_of_lt (n := 0x80 + c.toNat % 64) (by omega)
  have hbounds : secondBounds (0xC0 + c.toNat / 64) = (0x80, 0xBF) := by
    unfold secondBounds
    rw [if_neg (by omega), if_neg (by omega), if_neg (by omega), if_neg (by omega)]
  have his : isSecond (0xC0 + c.toNat / 64) (UInt8.ofNat (0x80 + c.toNat % 64)) = true := by
    simp only [isSecond, hbounds, hsecond, Bool.and_eq_true, decide_eq_true_eq]
    omega
  have hvalue : (0xC0 + c.toNat / 64 - 0xC0) * 64 + (0x80 + c.toNat % 64 - 0x80) = c.toNat := by
    omega
  simp only [start, hfirst]
  rw [if_neg (by omega), if_neg (by omega), if_pos (by omega)]
  simp only [his, hsecond, hvalue, if_true, Char.ofNat_toNat]

theorem start_three {c : Char} (hlow : ¬ c.toNat < 0x800) (hhigh : c.toNat < 0x10000)
    (rest : Bytes) :
    start (UInt8.ofNat (0xE0 + c.toNat / 4096))
        (UInt8.ofNat (0x80 + c.toNat / 64 % 64) :: UInt8.ofNat (0x80 + c.toNat % 64) :: rest) =
      .char c 2 := by
  have hvalid := toNat_lt_or c
  have hfirst := toNat_ofNat_of_lt (n := 0xE0 + c.toNat / 4096) (by omega)
  have hsecond := toNat_ofNat_of_lt (n := 0x80 + c.toNat / 64 % 64) (by omega)
  have hthird := toNat_ofNat_of_lt (n := 0x80 + c.toNat % 64) (by omega)
  have his : isSecond (0xE0 + c.toNat / 4096) (UInt8.ofNat (0x80 + c.toNat / 64 % 64)) = true := by
    simp only [isSecond, secondBounds, hsecond, Bool.and_eq_true, decide_eq_true_eq]
    split_ifs <;> omega
  have hcontinues : isContinuation (UInt8.ofNat (0x80 + c.toNat % 64)) = true := by
    simp only [isContinuation, hthird, Bool.and_eq_true, decide_eq_true_eq]
    omega
  have hvalue : (0xE0 + c.toNat / 4096 - 0xE0) * 4096 + (0x80 + c.toNat / 64 % 64 - 0x80) * 64 +
      (0x80 + c.toNat % 64 - 0x80) = c.toNat := by
    omega
  simp only [start, hfirst]
  rw [if_neg (by omega), if_neg (by omega), if_neg (by omega), if_pos (by omega)]
  simp only [his, hcontinues, hsecond, hthird, hvalue, if_true, Char.ofNat_toNat]

theorem start_four {c : Char} (hlow : ¬ c.toNat < 0x10000) (rest : Bytes) :
    start (UInt8.ofNat (0xF0 + c.toNat / 262144))
        (UInt8.ofNat (0x80 + c.toNat / 4096 % 64) :: UInt8.ofNat (0x80 + c.toNat / 64 % 64) ::
          UInt8.ofNat (0x80 + c.toNat % 64) :: rest) =
      .char c 3 := by
  have hvalid := toNat_lt_or c
  have hfirst := toNat_ofNat_of_lt (n := 0xF0 + c.toNat / 262144) (by omega)
  have hsecond := toNat_ofNat_of_lt (n := 0x80 + c.toNat / 4096 % 64) (by omega)
  have hthird := toNat_ofNat_of_lt (n := 0x80 + c.toNat / 64 % 64) (by omega)
  have hfourth := toNat_ofNat_of_lt (n := 0x80 + c.toNat % 64) (by omega)
  have his : isSecond (0xF0 + c.toNat / 262144) (UInt8.ofNat (0x80 + c.toNat / 4096 % 64)) =
      true := by
    simp only [isSecond, secondBounds, hsecond, Bool.and_eq_true, decide_eq_true_eq]
    split_ifs <;> omega
  have hcontinues : isContinuation (UInt8.ofNat (0x80 + c.toNat / 64 % 64)) = true := by
    simp only [isContinuation, hthird, Bool.and_eq_true, decide_eq_true_eq]
    omega
  have hlast : isContinuation (UInt8.ofNat (0x80 + c.toNat % 64)) = true := by
    simp only [isContinuation, hfourth, Bool.and_eq_true, decide_eq_true_eq]
    omega
  have hvalue : (0xF0 + c.toNat / 262144 - 0xF0) * 262144 +
      (0x80 + c.toNat / 4096 % 64 - 0x80) * 4096 + (0x80 + c.toNat / 64 % 64 - 0x80) * 64 +
      (0x80 + c.toNat % 64 - 0x80) = c.toNat := by
    omega
  simp only [start, hfirst]
  rw [if_neg (by omega), if_neg (by omega), if_neg (by omega), if_neg (by omega),
    if_pos (by omega)]
  simp only [his, hcontinues, hlast, hsecond, hthird, hfourth, hvalue, if_true,
    Char.ofNat_toNat]

theorem start_encodeChar (c : Char) : ∃ first tail,
    encodeChar c = first :: tail ∧ ∀ rest, start first (tail ++ rest) = .char c tail.length := by
  by_cases hone : c.toNat < 0x80
  · exact ⟨_, [], by simp only [encodeChar, if_pos hone], start_one hone⟩
  by_cases htwo : c.toNat < 0x800
  · refine ⟨_, [_], by simp only [encodeChar, if_neg hone, if_pos htwo]; rfl, ?_⟩
    exact start_two hone htwo
  by_cases hthree : c.toNat < 0x10000
  · refine ⟨_, [_, _], by simp only [encodeChar, if_neg hone, if_neg htwo, if_pos hthree]; rfl, ?_⟩
    exact start_three htwo hthree
  · refine ⟨_, [_, _, _],
      by simp only [encodeChar, if_neg hone, if_neg htwo, if_neg hthree]; rfl, ?_⟩
    exact start_four hthree

/-! ## Whole texts -/

theorem decodeFrom_skip (offset : Nat) (done : List Char) (skipped rest : Bytes) :
    decodeFrom offset done skipped.length (skipped ++ rest) =
      decodeFrom (offset + skipped.length) done 0 rest := by
  induction skipped generalizing offset with
  | nil => rfl
  | cons b tail ih =>
      rw [List.length_cons, List.cons_append, decodeFrom, ih, Nat.add_right_comm, Nat.add_assoc]

theorem decodeFrom_encodeChars (offset : Nat) (done chars : List Char) :
    decodeFrom offset done 0 (encodeChars chars) = .ok (done.reverse ++ chars) := by
  induction chars generalizing offset done with
  | nil => simp [decodeFrom]
  | cons c rest ih =>
      rcases start_encodeChar c with ⟨first, tail, hencode, hstart⟩
      rw [encodeChars_cons, hencode, List.cons_append, decodeFrom]
      simp only [hstart, decodeFrom_skip, ih]
      simp

theorem decode?_encodeChars (chars : List Char) :
    decode? (encodeChars chars) = some (String.ofList chars) := by
  simp [decode?, decode, decodeChars, decodeFrom_encodeChars, Except.map, Except.toOption]

end Utf8
end Cardsmith
