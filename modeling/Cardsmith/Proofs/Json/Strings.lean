import Cardsmith.Json.Printer
import Cardsmith.Json.Token
import Cardsmith.Proofs.Bytes.Utf8

/-!
# Reading written strings

A written string is read back as the string.  Reading goes character by character: a plain
character's bytes are taken one by one, and an escape is one step that gives the character.
-/

namespace Cardsmith
namespace Json

open Utf8

/-! ## Bytes of characters -/

theorem encodeChar_of_ascii {c : Char} (h : c.toNat < 0x80) : encodeChar c = [c.toUInt8] := by
  have hbyte : UInt8.ofNat c.toNat = c.toUInt8 := by
    apply UInt8.toNat_inj.mp
    rw [toNat_ofNat_of_lt (by omega)]
    simp only [Char.toUInt8, UInt32.toNat_toUInt8]
    exact (Nat.mod_eq_of_lt (Nat.lt_trans h (by omega))).symm
  simp only [encodeChar, if_pos h, hbyte]

theorem encodeChars_cons_ascii {c : Char} (h : c.toNat < 0x80) (rest : List Char) :
    encodeChars (c :: rest) = c.toUInt8 :: encodeChars rest := by
  rw [encodeChars_cons, encodeChar_of_ascii h]
  rfl

theorem mem_encodeChar {c : Char} {b : UInt8} (h : b ∈ encodeChar c) :
    b.toNat = c.toNat ∨ 0x80 ≤ b.toNat := by
  have hvalid := toNat_lt_or c
  simp only [encodeChar] at h
  split_ifs at h with hone htwo hthree
  · left
    rw [List.mem_singleton.mp h]
    exact toNat_ofNat_of_lt (by omega)
  · right
    simp only [List.mem_cons, List.not_mem_nil, or_false] at h
    rcases h with rfl | rfl <;> rw [toNat_ofNat_of_lt (by omega)] <;> omega
  · right
    simp only [List.mem_cons, List.not_mem_nil, or_false] at h
    rcases h with rfl | rfl | rfl <;> rw [toNat_ofNat_of_lt (by omega)] <;> omega
  · right
    simp only [List.mem_cons, List.not_mem_nil, or_false] at h
    rcases h with rfl | rfl | rfl | rfl <;> rw [toNat_ofNat_of_lt (by omega)] <;> omega

/-! ## Plain characters -/

def IsPlainByte (b : UInt8) : Prop := b ≠ '"'.toUInt8 ∧ b ≠ '\\'.toUInt8 ∧ ¬ b < 0x20

theorem readStringBytes_plain {plain : Bytes} (h : ∀ b ∈ plain, IsPlainByte b)
    (budget : Nat) (done rest : Bytes) :
    readStringBytes (plain.length + budget) done (plain ++ rest) =
      readStringBytes budget (plain.reverse ++ done) rest := by
  induction plain generalizing done with
  | nil => simp
  | cons b tail ih =>
      rcases h b List.mem_cons_self with ⟨hquote, hslash, hcontrol⟩
      have htail : ∀ b ∈ tail, IsPlainByte b := by
        intro d hd
        exact h d (List.mem_cons_of_mem _ hd)
      rw [List.length_cons, Nat.add_right_comm, List.cons_append, readStringBytes,
        if_neg hquote, if_neg hslash, if_neg hcontrol, ih htail]
      simp

theorem isPlainByte_of_mem_encodeChar {c : Char} (hquote : c ≠ '"') (hslash : c ≠ '\\')
    (hcontrol : ¬ c.toNat < 0x20) {b : UInt8} (hb : b ∈ encodeChar c) : IsPlainByte b := by
  have hchar : ∀ {d : Char}, c ≠ d → c.toNat ≠ d.toNat := by
    intro d hne heq
    apply hne
    rw [← Char.ofNat_toNat c, heq, Char.ofNat_toNat]
  have hquote' : c.toNat ≠ 34 := hchar hquote
  have hslash' : c.toNat ≠ 92 := hchar hslash
  have hbyte := mem_encodeChar hb
  refine ⟨?_, ?_, ?_⟩
  · rintro rfl
    have hvalue : ('"'.toUInt8).toNat = 34 := rfl
    omega
  · rintro rfl
    have hvalue : ('\\'.toUInt8).toNat = 92 := rfl
    omega
  · intro hless
    have hvalue : b.toNat < 32 := hless
    omega

/-! ## Escapes -/

theorem value?_digit {n : Nat} (h : n < 16) : Hex.value? (Hex.digit n).toUInt8 = some n := by
  have hall : ∀ n < 16, Hex.value? (Hex.digit n).toUInt8 = some n := by decide
  exact hall n h

theorem toNat_digit_lt {n : Nat} (h : n < 16) : (Hex.digit n).toNat < 0x80 := by
  have hall : ∀ n < 16, (Hex.digit n).toNat < 0x80 := by decide
  exact hall n h

theorem readEscape_code {c : Char} (h : c.toNat < 0x20) (rest : Bytes) :
    readEscape ('u'.toUInt8 :: '0'.toUInt8 :: '0'.toUInt8 ::
        (Hex.digit (c.toNat / 16)).toUInt8 :: (Hex.digit (c.toNat % 16)).toUInt8 :: rest) =
      .ok (c, rest) := by
  have hzero : Hex.value? '0'.toUInt8 = some 0 := by decide
  have hcode : readHexCode ('0'.toUInt8 :: '0'.toUInt8 ::
      (Hex.digit (c.toNat / 16)).toUInt8 :: (Hex.digit (c.toNat % 16)).toUInt8 :: rest) =
        .ok (c.toNat, rest) := by
    simp only [readHexCode, hzero, value?_digit (n := c.toNat / 16) (by omega),
      value?_digit (n := c.toNat % 16) (by omega)]
    congr 2
    omega
  show readCodeEscape ('0'.toUInt8 :: '0'.toUInt8 :: (Hex.digit (c.toNat / 16)).toUInt8 ::
    (Hex.digit (c.toNat % 16)).toUInt8 :: rest) = _
  rw [readCodeEscape, hcode]
  simp only [bind, Except.bind]
  rw [if_neg (by omega), if_pos (by omega), Char.ofNat_toNat]
  rfl

theorem encodeChars_code {c : Char} (h : c.toNat < 0x20) :
    encodeChars ['\\', 'u', '0', '0', Hex.digit (c.toNat / 16), Hex.digit (c.toNat % 16)] =
      ['\\'.toUInt8, 'u'.toUInt8, '0'.toUInt8, '0'.toUInt8,
        (Hex.digit (c.toNat / 16)).toUInt8, (Hex.digit (c.toNat % 16)).toUInt8] := by
  have hhigh := toNat_digit_lt (n := c.toNat / 16) (by omega)
  have hlow := toNat_digit_lt (n := c.toNat % 16) (by omega)
  have hfixed : encodeChars ['\\', 'u', '0', '0'] =
      ['\\'.toUInt8, 'u'.toUInt8, '0'.toUInt8, '0'.toUInt8] := by decide
  show encodeChars (['\\', 'u', '0', '0'] ++
    [Hex.digit (c.toNat / 16), Hex.digit (c.toNat % 16)]) = _
  rw [encodeChars_append, hfixed, encodeChars_cons, encodeChars_cons, encodeChar_of_ascii hhigh,
    encodeChar_of_ascii hlow]
  rfl

/-- A written character is its own bytes, which are plain, or an escape that is read as it. -/
theorem escapeChar_cases (c : Char) :
    (encodeChars (escapeChar c) = encodeChar c ∧ ∀ b ∈ encodeChar c, IsPlainByte b) ∨
      ∃ code, encodeChars (escapeChar c) = '\\'.toUInt8 :: code ∧
        ∀ rest, readEscape (code ++ rest) = .ok (c, rest) := by
  by_cases hquote : c = '"'
  · rw [hquote]
    exact Or.inr ⟨['"'.toUInt8], by decide, fun _ => rfl⟩
  by_cases hslash : c = '\\'
  · rw [hslash]
    exact Or.inr ⟨['\\'.toUInt8], by decide, fun _ => rfl⟩
  by_cases hback : c = '\x08'
  · rw [hback]
    exact Or.inr ⟨['b'.toUInt8], by decide, fun _ => rfl⟩
  by_cases htab : c = '\t'
  · rw [htab]
    exact Or.inr ⟨['t'.toUInt8], by decide, fun _ => rfl⟩
  by_cases hline : c = '\n'
  · rw [hline]
    exact Or.inr ⟨['n'.toUInt8], by decide, fun _ => rfl⟩
  by_cases hfeed : c = '\x0c'
  · rw [hfeed]
    exact Or.inr ⟨['f'.toUInt8], by decide, fun _ => rfl⟩
  by_cases hreturn : c = '\r'
  · rw [hreturn]
    exact Or.inr ⟨['r'.toUInt8], by decide, fun _ => rfl⟩
  rw [escapeChar, if_neg hquote, if_neg hslash, if_neg hback, if_neg htab, if_neg hline,
    if_neg hfeed, if_neg hreturn]
  by_cases hcontrol : c.toNat < 0x20
  · right
    refine ⟨['u'.toUInt8, '0'.toUInt8, '0'.toUInt8, (Hex.digit (c.toNat / 16)).toUInt8,
      (Hex.digit (c.toNat % 16)).toUInt8], ?_, readEscape_code hcontrol⟩
    rw [if_pos hcontrol]
    exact encodeChars_code hcontrol
  · left
    rw [if_neg hcontrol]
    refine ⟨by simp [encodeChars], ?_⟩
    intro b hb
    exact isPlainByte_of_mem_encodeChar hquote hslash hcontrol hb

/-! ## Whole strings -/

theorem readStringBytes_escapeChar (c : Char) :
    ∃ spent ≤ (encodeChars (escapeChar c)).length, ∀ budget done rest,
      readStringBytes (spent + budget) done (encodeChars (escapeChar c) ++ rest) =
        readStringBytes budget ((encodeChar c).reverse ++ done) rest := by
  rcases escapeChar_cases c with ⟨hbytes, hplain⟩ | ⟨code, hbytes, hread⟩
  · refine ⟨(encodeChar c).length, Nat.le_of_eq (by rw [hbytes]), ?_⟩
    intro budget done rest
    rw [hbytes]
    exact readStringBytes_plain hplain budget done rest
  · refine ⟨1, by rw [hbytes]; simp, ?_⟩
    intro budget done rest
    have hquote : ('\\'.toUInt8 : UInt8) ≠ '"'.toUInt8 := by decide
    rw [hbytes, Nat.add_comm, List.cons_append, readStringBytes, if_neg hquote, if_pos rfl,
      hread]
    rfl

theorem readStringBytes_escapeChars (chars : List Char) :
    ∃ spent ≤ (encodeChars (chars.flatMap escapeChar)).length, ∀ budget done rest,
      readStringBytes (spent + budget) done (encodeChars (chars.flatMap escapeChar) ++ rest) =
        readStringBytes budget ((encodeChars chars).reverse ++ done) rest := by
  induction chars with
  | nil => exact ⟨0, Nat.le_refl 0, fun budget done rest => by simp⟩
  | cons c tail ih =>
      rcases readStringBytes_escapeChar c with ⟨first, hfirst, hread⟩
      rcases ih with ⟨spent, hspent, htail⟩
      refine ⟨first + spent, ?_, ?_⟩
      · rw [List.flatMap_cons, encodeChars_append, List.length_append]
        omega
      · intro budget done rest
        rw [List.flatMap_cons, encodeChars_append, List.append_assoc, Nat.add_assoc, hread,
          htail, encodeChars_cons, List.reverse_append, List.append_assoc]

theorem encodeChars_stringChars (s : String) :
    encodeChars (stringChars s) =
      '"'.toUInt8 :: (encodeChars (s.toList.flatMap escapeChar) ++ ['"'.toUInt8]) := by
  have hquote : encodeChars ['"'] = ['"'.toUInt8] := by decide
  show encodeChars (['"'] ++ (s.toList.flatMap escapeChar ++ ['"'])) = _
  rw [encodeChars_append, encodeChars_append, hquote]
  rfl

theorem readString_written {budget : Nat} (s : String)
    (hbudget : (encodeChars (stringChars s)).length ≤ budget) (rest : Bytes) :
    readString budget
        (encodeChars (s.toList.flatMap escapeChar) ++ '"'.toUInt8 :: rest) = .ok (s, rest) := by
  rcases readStringBytes_escapeChars s.toList with ⟨spent, hspent, hread⟩
  rw [encodeChars_stringChars, List.length_cons, List.length_append] at hbudget
  have hbytes : readStringBytes budget []
      (encodeChars (s.toList.flatMap escapeChar) ++ '"'.toUInt8 :: rest) =
        .ok (encodeChars s.toList, '"'.toUInt8 :: rest) := by
    have hsplit : budget = spent + ((budget - spent - 1) + 1) := by omega
    rw [hsplit, hread, readStringBytes, if_pos rfl]
    simp
  rw [readString, hbytes]
  simp only [bind, Except.bind, decode?_encodeChars, String.ofList_toList]
  rfl

end Json
end Cardsmith
