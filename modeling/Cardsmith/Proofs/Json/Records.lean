import Mathlib.Data.List.Perm.Basic
import Cardsmith.Json.Record
import Cardsmith.Proofs.Json.Admitted

/-!
# Records in any order

The members of a record may stand in any order, among others of names that the record does not
know: what is read from them is what is read from its own members alone.  Several fields are read
from one list of members as each by itself would be, so the order matters to none of them.
-/

namespace Cardsmith
namespace Json
namespace Record

variable {σ τ υ : Type}

/-! ## Fields side by side -/

def Apart (a : Accept σ) (b : Accept τ) : Prop :=
  ∀ key draft s t, a key draft s = none ∨ b key draft t = none

theorem field_of_ne {α : Type} {name key : String} (h : key ≠ name)
    (read : Draft → Except Cause α) (draft : Draft) (slot : Option α) :
    field name read key draft slot = none := if_neg h

theorem apart_field {α β : Type} {name other : String} (h : name ≠ other)
    (read : Draft → Except Cause α) (readOther : Draft → Except Cause β) :
    Apart (field name read) (field other readOther) := by
  intro key draft s t
  by_cases hkey : key = name
  · exact Or.inr (field_of_ne (fun hother => h (hkey.symm.trans hother)) readOther draft t)
  · exact Or.inl (field_of_ne hkey read draft s)

theorem Apart.both {a : Accept σ} {b : Accept τ} {c : Accept υ} (hb : Apart a b)
    (hc : Apart a c) : Apart a (both b c) := by
  intro key draft s t
  rcases hb key draft s t.1 with ha | hbnone
  · exact Or.inl ha
  · rcases hc key draft s t.2 with ha | hcnone
    · exact Or.inl ha
    · exact Or.inr (by simp [Record.both, hbnone, hcnone])

theorem readMembers_both {a : Accept σ} {b : Accept τ} (h : Apart a b)
    {members : List (String × Draft)} {s s' : σ} {t t' : τ} :
    readMembers (both a b) (s, t) members = .ok (s', t') ↔
      readMembers a s members = .ok s' ∧ readMembers b t members = .ok t' := by
  induction members generalizing s t with
  | nil => simp [readMembers]
  | cons member rest ih =>
      obtain ⟨key, draft⟩ := member
      simp only [readMembers, both]
      cases ha : a key draft s with
      | none =>
          cases hb : b key draft t with
          | none => exact ih
          | some outcome =>
              cases outcome with
              | error cause => simp [Except.map]
              | ok next => exact ih
      | some outcome =>
          have hb : b key draft t = none := by simpa [ha] using h key draft s t
          cases outcome with
          | error cause => simp [Except.map]
          | ok next =>
              rw [hb]
              exact ih

/-! ## Any order -/

/-- From the members the same can be read as from the own ones. -/
def ReadAlike (accept : Accept σ) (own members : List (String × Draft)) : Prop :=
  ∀ state result,
    readMembers accept state members = .ok result ↔ readMembers accept state own = .ok result

theorem ReadAlike.both {a : Accept σ} {b : Accept τ} {own members : List (String × Draft)}
    (ha : ReadAlike a own members) (hb : ReadAlike b own members) (h : Apart a b) :
    ReadAlike (both a b) own members := by
  rintro ⟨s, t⟩ ⟨s', t'⟩
  rw [readMembers_both h, readMembers_both h, ha s s', hb t t']

def under (name : String) (members : List (String × Draft)) : List (String × Draft) :=
  members.filter fun member => member.1 = name

theorem readMembers_under {α : Type} (name : String) (read : Draft → Except Cause α)
    (slot : Option α) (members : List (String × Draft)) :
    readMembers (field name read) slot (under name members) =
      readMembers (field name read) slot members := by
  induction members generalizing slot with
  | nil => rfl
  | cons member rest ih =>
      obtain ⟨key, draft⟩ := member
      unfold under at ih ⊢
      by_cases hkey : key = name
      · rw [List.filter_cons_of_pos (by simpa using hkey), readMembers, readMembers]
        split
        · exact ih _
        · exact ih _
        · rfl
      · rw [List.filter_cons_of_neg (by simpa using hkey), ih, readMembers.eq_def _ _ (_ :: _)]
        simp only [field_of_ne hkey]

theorem length_under_le (name : String) {members : List (String × Draft)}
    (h : (members.map Prod.fst).Nodup) : (under name members).length ≤ 1 := by
  have hnames : (under name members).map Prod.fst =
      (members.map Prod.fst).filter fun key => key = name := by
    rw [List.filter_map]
    rfl
  rw [← List.length_map Prod.fst, hnames, ← List.countP_eq_length_filter]
  exact List.nodup_iff_count_le_one.mp h name

/-- The members are the own ones in any order, among others of other names. -/
structure Arranged (own members : List (String × Draft)) : Prop where
  nodup : (own.map Prod.fst).Nodup
  perm : ∃ others, members.Perm (own ++ others) ∧
    ∀ other ∈ others, ∀ member ∈ own, other.1 ≠ member.1

theorem readAlike_field {α : Type} {own members : List (String × Draft)}
    (h : Arranged own members) {name : String} (hname : name ∈ own.map Prod.fst)
    (read : Draft → Except Cause α) : ReadAlike (field name read) own members := by
  obtain ⟨others, hperm, hothers⟩ := h.perm
  obtain ⟨member, hmember, rfl⟩ := List.mem_map.mp hname
  have hnone : under member.1 others = [] := by
    refine List.filter_eq_nil_iff.mpr fun other hother => ?_
    simpa using hothers other hother member hmember
  have hunder : (under member.1 members).Perm (under member.1 own) := by
    have hfilter := hperm.filter fun candidate => decide (candidate.1 = member.1)
    rw [List.filter_append] at hfilter
    change (under member.1 members).Perm (under member.1 own ++ under member.1 others) at hfilter
    rwa [hnone, List.append_nil] at hfilter
  have heq : under member.1 members = under member.1 own := by
    have hlength := length_under_le member.1 h.nodup
    rcases hown : under member.1 own with _ | ⟨only, more⟩
    · rw [hown] at hunder
      exact hunder.eq_nil
    · rw [hown] at hunder hlength
      obtain rfl : more = [] := List.length_eq_zero_iff.mp (by simpa using hlength)
      exact hunder.eq_singleton
  intro state result
  rw [← readMembers_under member.1 read state members, heq, readMembers_under]

theorem readAlike_fields {α β : Type} {own members : List (String × Draft)}
    (h : Arranged own members) {name other : String} (hne : name ≠ other)
    (hname : name ∈ own.map Prod.fst) (hother : other ∈ own.map Prod.fst)
    (read : Draft → Except Cause α) (readOther : Draft → Except Cause β) :
    ReadAlike (both (field name read) (field other readOther)) own members :=
  (readAlike_field h hname read).both (readAlike_field h hother readOther)
    (apart_field hne read readOther)

end Record
end Json
end Cardsmith
