import Mathlib.Data.List.Basic
import Cardsmith.Text.Lowercase

/-!
# Lower case twice

A character of a lower-case text is left as it is, wherever it stands, so lower-casing a text a
second time changes nothing.  For the table of partners this says that no partner of a code has a
partner of its own, which is decided run against run.
-/

namespace Cardsmith
namespace Text

/-! ## Runs of partners -/

namespace CaseRun

/-- No partner in the first run is a code of the second, as the ends of the runs or the parity of
their codes show. -/
def misses (a b : CaseRun) : Bool :=
  Nat.blt b.last a.target || Nat.blt (a.target + (a.last - a.first)) b.first ||
    Nat.beq b.stride 2 && (Nat.beq a.stride 2 || Nat.beq a.first a.last) &&
      Nat.beq ((a.target - b.first) % 2) 1

theorem has_partner_of_misses {a b : CaseRun} (h : a.misses b = true) {code : Nat}
    (hcode : a.has code = true) : b.has (a.partner code) = false := by
  simp only [has, Bool.and_eq_true, decide_eq_true_eq, beq_iff_eq] at hcode
  obtain ⟨⟨hfirst, hlast⟩, hstride⟩ := hcode
  simp only [misses, Bool.or_eq_true, Bool.and_eq_true, Nat.blt_eq, Nat.beq_eq] at h
  rw [Bool.eq_false_iff]
  intro hpartner
  simp only [has, Bool.and_eq_true, decide_eq_true_eq, beq_iff_eq] at hpartner
  rw [partner] at hpartner
  obtain ⟨⟨hfrom, hto⟩, hstep⟩ := hpartner
  rcases h with (habove | hbelow) | ⟨⟨heven, hsame⟩, hodd⟩
  · omega
  · omega
  · rw [heven] at hstep
    rcases hsame with htwo | hone
    · rw [htwo] at hstride
      omega
    · omega

/-- The partners of a run are codes of characters, and none of them is a capital ASCII letter or a
capital I with a dot. -/
def sound (run : CaseRun) : Bool :=
  0x5A < run.target && run.target + (run.last - run.first) < 0x130 ||
    0x130 < run.target && (run.target + (run.last - run.first) < 0xD800 ||
      0xDFFF < run.target && run.target + (run.last - run.first) < 0x110000)

theorem partner_of_sound {run : CaseRun} (h : run.sound = true) {code : Nat}
    (hcode : run.has code = true) :
    (run.partner code).isValidChar ∧ 0x5A < run.partner code ∧ run.partner code ≠ 0x130 := by
  simp only [has, Bool.and_eq_true, decide_eq_true_eq] at hcode
  simp only [sound, Bool.or_eq_true, Bool.and_eq_true, decide_eq_true_eq] at h
  unfold Nat.isValidChar partner
  omega

end CaseRun

theorem caseRuns_miss : (caseRuns.all fun a => caseRuns.all a.misses) = true := by decide +kernel

theorem caseRuns_sound : caseRuns.all CaseRun.sound = true := by decide +kernel

/-- A code is its own partner, or it is a code of a run and has its partner there. -/
theorem lowerCode_cases (code : Nat) :
    lowerCode code = code ∨
      ∃ run ∈ caseRuns, run.has code = true ∧ lowerCode code = run.partner code := by
  unfold lowerCode
  cases hfind : caseRuns.find? (·.has code) with
  | none => exact Or.inl rfl
  | some run =>
      have hcode : run.has code = true := by simpa using List.find?_some hfind
      exact Or.inr ⟨run, List.mem_of_find?_eq_some hfind, hcode, rfl⟩

theorem lowerCode_lowerCode (code : Nat) : lowerCode (lowerCode code) = lowerCode code := by
  rcases lowerCode_cases code with hself | ⟨run, hrun, hcode, hlower⟩
  · rw [hself, hself]
  · have hmiss := List.all_eq_true.mp (List.all_eq_true.mp caseRuns_miss run hrun)
    have hnone : caseRuns.find? (·.has (run.partner code)) = none := by
      rw [List.find?_eq_none]
      intro other hother
      rw [CaseRun.has_partner_of_misses (hmiss other hother) hcode]
      exact Bool.false_ne_true
    rw [hlower, lowerCode, hnone]

/-! ## Characters -/

def Lower (c : Char) : Prop := c ≠ 'Σ' ∧ lowerChar c = [c]

instance (c : Char) : Decidable (Lower c) := inferInstanceAs (Decidable (_ ∧ _))

theorem lower_toLower {c : Char} (h : c.toNat < 0x80) : Lower c.toLower := by
  have hall : ∀ n < 0x80, Lower (Char.ofNat n).toLower := by decide
  rw [← Char.ofNat_toNat c]
  exact hall c.toNat h

theorem toNat_le_of_isUpper {c : Char} (h : c.isUpper) : c.toNat ≤ 0x5A := by
  have hrange : c.val ≥ 'A'.val ∧ c.val ≤ 'Z'.val := of_decide_eq_true h
  exact hrange.right

theorem toLower_of_not_isUpper {c : Char} (h : ¬ c.isUpper) : c.toLower = c := by
  have hrange : ¬ (c.val ≥ 'A'.val ∧ c.val ≤ 'Z'.val) := fun hrange => h (decide_eq_true hrange)
  exact dif_neg hrange

theorem Lower.not_isUpper {c : Char} (h : Lower c) : ¬ c.isUpper := by
  have hall : ∀ n < 0x80, Lower (Char.ofNat n) → ¬ (Char.ofNat n).isUpper := by decide
  intro hupper
  have hle := toNat_le_of_isUpper hupper
  rw [← Char.ofNat_toNat c] at h hupper
  exact hall c.toNat (by omega) h hupper

theorem lower_of_code {code : Nat} (hvalid : code.isValidChar) (hsmall : 0x5A < code)
    (hplain : code ≠ 0x130) (hself : lowerCode code = code) : Lower (Char.ofNat code) := by
  have hcode : (Char.ofNat code).toNat = code := by
    rw [Char.ofNat, dif_pos hvalid]
    rfl
  have hne : ∀ d : Char, code ≠ d.toNat → Char.ofNat code ≠ d := by
    rintro d hd rfl
    exact hd hcode.symm
  refine ⟨?_, ?_⟩
  · apply hne
    rintro rfl
    exact absurd hself (by decide +kernel)
  · rw [lowerChar, hcode, hself]
    by_cases hascii : code < 0x80
    · have hcapital : ¬ (Char.ofNat code).isUpper := by
        intro hupper
        have hle := toNat_le_of_isUpper hupper
        omega
      rw [if_pos hascii, toLower_of_not_isUpper hcapital]
    · rw [if_neg hascii, if_neg (hne 'İ' hplain)]

theorem lower_of_mem_lowerChar {c d : Char} (hc : c ≠ 'Σ') (h : d ∈ lowerChar c) : Lower d := by
  unfold lowerChar at h
  split_ifs at h with hascii hdotted
  · rw [List.mem_singleton.mp h]
    exact lower_toLower hascii
  · simp only [List.mem_cons, List.not_mem_nil, or_false] at h
    rcases h with rfl | rfl <;> decide
  · obtain rfl := List.mem_singleton.mp h
    rcases lowerCode_cases c.toNat with hself | ⟨run, hrun, hcode, hlower⟩
    · rw [hself, Char.ofNat_toNat]
      refine ⟨hc, ?_⟩
      rw [lowerChar, if_neg hascii, if_neg hdotted, hself, Char.ofNat_toNat]
    · have hsound := List.all_eq_true.mp caseRuns_sound run hrun
      obtain ⟨hvalid, hsmall, hplain⟩ := CaseRun.partner_of_sound hsound hcode
      have hfixed := lowerCode_lowerCode c.toNat
      rw [hlower] at hfixed ⊢
      exact lower_of_code hvalid hsmall hplain hfixed

/-! ## Texts -/

theorem lower_lowerSigma (before after : List Char) : Lower (lowerSigma before after) := by
  unfold lowerSigma
  split_ifs <;> decide +kernel

/-- Every character of a lower-case text is left as it is. -/
theorem lower_of_mem_lowerAfter {before chars : List Char} {d : Char}
    (h : d ∈ lowerAfter before chars) : Lower d := by
  induction chars generalizing before with
  | nil => cases h
  | cons c rest ih =>
      rw [lowerAfter_cons, List.mem_append] at h
      rcases h with hfirst | hrest
      · split_ifs at hfirst with hsigma
        · rw [List.mem_singleton.mp hfirst]
          exact lower_lowerSigma before rest
        · exact lower_of_mem_lowerChar hsigma hfirst
      · exact ih hrest

theorem lowerAfter_of_lower {chars : List Char} (h : ∀ c ∈ chars, Lower c) (before : List Char) :
    lowerAfter before chars = chars := by
  induction chars generalizing before with
  | nil => rfl
  | cons c rest ih =>
      obtain ⟨⟨hsigma, hc⟩, hrest⟩ := List.forall_mem_cons.mp h
      rw [lowerAfter_cons, if_neg hsigma, hc, ih hrest, List.singleton_append]

theorem toList_lowercase (text : String) : (lowercase text).toList = lowerAfter [] text.toList :=
  String.toList_ofList

theorem lower_of_mem_lowercase {text : String} {c : Char} (h : c ∈ (lowercase text).toList) :
    Lower c := by
  rw [toList_lowercase] at h
  exact lower_of_mem_lowerAfter h

theorem lowercase_of_lower {text : String} (h : ∀ c ∈ text.toList, Lower c) :
    lowercase text = text := by
  rw [lowercase, lowerAfter_of_lower h, String.ofList_toList]

theorem lowercase_lowercase (text : String) : lowercase (lowercase text) = lowercase text :=
  lowercase_of_lower fun _ hc => lower_of_mem_lowercase hc

end Text
end Cardsmith
