import Mathlib.Algebra.GroupWithZero.Nat
import Mathlib.Data.List.Basic
import Cardsmith.Storage.Tree

/-!
# Trees with other contents

What is left of a tree when the contents of its files are disregarded, and what changes when a
file is put in place of another one.
-/

namespace Cardsmith
namespace Storage
namespace Entry

/-! ## Names -/

structure IsName (name : String) : Prop where
  nonempty : name ≠ ""
  notHere : name ≠ "."
  notAbove : name ≠ ".."
  noSlash : '/' ∉ name.toList

instance (name : String) : Decidable (IsName name) :=
  decidable_of_iff (name ≠ "" ∧ name ≠ "." ∧ name ≠ ".." ∧ '/' ∉ name.toList)
    ⟨fun ⟨h, h', h'', h'''⟩ => ⟨h, h', h'', h'''⟩, fun ⟨h, h', h'', h'''⟩ => ⟨h, h', h'', h'''⟩⟩

mutual

/-- Whether no directory has an entry twice, or one whose name is none. -/
def WellFormed : Entry → Prop
  | .file _ | .link _ | .locked _ => True
  | .directory entries => (entries.map Prod.fst).Nodup ∧ AllWellFormed entries
termination_by structural entry => entry

def AllWellFormed : List (String × Entry) → Prop
  | [] => True
  | (name, entry) :: rest => IsName name ∧ entry.WellFormed ∧ AllWellFormed rest
termination_by structural entries => entries

end

mutual

def decideWellFormed : (entry : Entry) → Decidable entry.WellFormed
  | .file _ | .link _ | .locked _ => .isTrue trivial
  | .directory entries =>
      @instDecidableAnd _ _ inferInstance (decideAllWellFormed entries)
termination_by structural entry => entry

def decideAllWellFormed : (entries : List (String × Entry)) → Decidable (AllWellFormed entries)
  | [] => .isTrue trivial
  | (_, entry) :: rest =>
      @instDecidableAnd _ _ inferInstance
        (@instDecidableAnd _ _ (decideWellFormed entry) (decideAllWellFormed rest))
termination_by structural entries => entries

end

instance (entry : Entry) : Decidable entry.WellFormed := decideWellFormed entry

theorem allWellFormed_iff {entries : List (String × Entry)} :
    AllWellFormed entries ↔
      ∀ name entry, (name, entry) ∈ entries → IsName name ∧ entry.WellFormed := by
  induction entries with
  | nil => simp [AllWellFormed]
  | cons first rest ih =>
      obtain ⟨name, entry⟩ := first
      rw [AllWellFormed, ih]
      constructor
      · rintro ⟨hname, hentry, hrest⟩ n e hmem
        rcases List.mem_cons.mp hmem with heq | hmem
        · cases heq
          exact ⟨hname, hentry⟩
        · exact hrest n e hmem
      · intro h
        have hfirst := h name entry List.mem_cons_self
        exact ⟨hfirst.left, hfirst.right, fun n e hmem => h n e (List.mem_cons_of_mem _ hmem)⟩

theorem mem_of_lookup {entries : List (String × Entry)} {name : String} {entry : Entry}
    (h : entries.lookup name = some entry) : (name, entry) ∈ entries := by
  rcases List.lookup_eq_some_iff.mp h with ⟨before, after, hentries, _⟩
  rw [hentries]
  exact List.mem_append_right _ List.mem_cons_self

theorem lookup_of_mem {entries : List (String × Entry)} {name : String} {entry : Entry}
    (hnodup : (entries.map Prod.fst).Nodup) (h : (name, entry) ∈ entries) :
    entries.lookup name = some entry := by
  induction entries with
  | nil => cases h
  | cons first rest ih =>
      obtain ⟨n, e⟩ := first
      rw [List.map_cons, List.nodup_cons] at hnodup
      rw [List.lookup_cons]
      rcases List.mem_cons.mp h with heq | hmem
      · cases heq
        rw [beq_self_eq_true]
      · have hother : (name == n) = false := by
          apply beq_eq_false_iff_ne.mpr
          rintro rfl
          exact hnodup.left (List.mem_map.mpr ⟨_, hmem, rfl⟩)
        rw [hother]
        exact ih hnodup.right hmem

theorem WellFormed.at? {tree entry : Entry} {location : Location} (h : tree.WellFormed)
    (hat : tree.at? location = some entry) : entry.WellFormed := by
  induction location generalizing tree with
  | nil =>
      cases hat
      exact h
  | cons name rest ih =>
      rw [at?_cons] at hat
      rcases Option.bind_eq_some_iff.mp hat with ⟨child, hchild, hrest⟩
      cases tree with
      | file | link | locked => cases hchild
      | directory entries =>
          exact ih (allWellFormed_iff.mp h.right name child (mem_of_lookup hchild)).right hrest

/-! ## Without contents -/

mutual

def bare : Entry → Entry
  | .file _ => .file []
  | .link target => .link target
  | .directory entries => .directory (bareAll entries)
  | .locked isDirectory => .locked isDirectory
termination_by structural entry => entry

def bareAll : List (String × Entry) → List (String × Entry)
  | [] => []
  | (name, entry) :: rest => (name, entry.bare) :: bareAll rest
termination_by structural entries => entries

end

theorem bareAll_eq_map (entries : List (String × Entry)) :
    bareAll entries = entries.map fun entry => (entry.1, entry.2.bare) := by
  induction entries with
  | nil => rfl
  | cons first rest ih =>
      rw [List.map_cons, ← ih]
      rfl

theorem lookup_bareAll (entries : List (String × Entry)) (name : String) :
    (bareAll entries).lookup name = (entries.lookup name).map bare := by
  induction entries with
  | nil => rfl
  | cons first rest ih =>
      obtain ⟨n, entry⟩ := first
      rw [bareAll, List.lookup_cons, List.lookup_cons, ih]
      cases name == n <;> rfl

theorem at?_bare (tree : Entry) (location : Location) :
    tree.bare.at? location = (tree.at? location).map bare := by
  induction location generalizing tree with
  | nil => rfl
  | cons name rest ih =>
      rw [at?_cons, at?_cons]
      cases tree with
      | file | link | locked => rfl
      | directory entries =>
          rw [bare, child?, child?, lookup_bareAll]
          cases entries.lookup name with
          | none => rfl
          | some entry => exact ih entry

mutual

theorem count_bare : ∀ entry : Entry, entry.bare.count = entry.count
  | .file _ => rfl
  | .link _ => rfl
  | .locked _ => rfl
  | .directory entries => countAll_bareAll entries

theorem countAll_bareAll : ∀ entries : List (String × Entry),
    countAll (bareAll entries) = countAll entries
  | [] => rfl
  | (_, entry) :: rest => by
      rw [bareAll, countAll, countAll, count_bare entry, countAll_bareAll rest]

end

theorem countAll_eq_sum (entries : List (String × Entry)) :
    countAll entries = (entries.map fun entry => 1 + entry.2.count).sum := by
  induction entries with
  | nil => rfl
  | cons first rest ih =>
      obtain ⟨name, entry⟩ := first
      rw [countAll, ih, List.map_cons, List.sum_cons]

/-! ## Another file in place of one -/

theorem lookup_changeNamed (name : String) (change : Option Entry → Entry)
    (entries : List (String × Entry)) (other : String) :
    (changeNamed name change entries).lookup other =
      if other = name then some (change (entries.lookup name)) else entries.lookup other := by
  by_cases hsame : other = name
  · rw [if_pos hsame, hsame]
    induction entries with
    | nil => rw [changeNamed, List.lookup_cons, beq_self_eq_true, List.lookup_nil]
    | cons first rest ih =>
        obtain ⟨n, entry⟩ := first
        rw [changeNamed, List.lookup_cons]
        by_cases hfound : n = name
        · rw [if_pos hfound, List.lookup_cons, hfound, beq_self_eq_true]
        · have hbeq : (name == n) = false := beq_eq_false_iff_ne.mpr (Ne.symm hfound)
          rw [if_neg hfound, List.lookup_cons, hbeq, ih]
  · have hother : (other == name) = false := beq_eq_false_iff_ne.mpr hsame
    rw [if_neg hsame]
    induction entries with
    | nil => rw [changeNamed, List.lookup_cons, hother]
    | cons first rest ih =>
        obtain ⟨n, entry⟩ := first
        rw [changeNamed]
        by_cases hfound : n = name
        · rw [if_pos hfound, List.lookup_cons, List.lookup_cons, hfound, hother]
        · rw [if_neg hfound, List.lookup_cons, List.lookup_cons, ih]

theorem bareAll_changeNamed {name : String} {change : Option Entry → Entry} {entry : Entry}
    {entries : List (String × Entry)} (hfound : entries.lookup name = some entry)
    (hsame : (change (some entry)).bare = entry.bare) :
    bareAll (changeNamed name change entries) = bareAll entries := by
  induction entries with
  | nil => cases hfound
  | cons first rest ih =>
      obtain ⟨n, e⟩ := first
      rw [List.lookup_cons] at hfound
      rw [changeNamed]
      by_cases hname : n = name
      · have hbeq : (name == n) = true := beq_iff_eq.mpr hname.symm
        rw [hbeq] at hfound
        cases hfound
        rw [if_pos hname, bareAll, bareAll, hsame]
      · have hbeq : (name == n) = false := beq_eq_false_iff_ne.mpr (Ne.symm hname)
        rw [hbeq] at hfound
        rw [if_neg hname, bareAll, bareAll, ih hfound]

theorem bare_put {tree : Entry} {location : Location} {old : Bytes} (new : Bytes)
    (h : tree.at? location = some (.file old)) :
    (put (.file new) location (some tree)).bare = tree.bare := by
  induction location generalizing tree with
  | nil =>
      cases h
      rfl
  | cons name rest ih =>
      rw [at?_cons] at h
      rcases Option.bind_eq_some_iff.mp h with ⟨child, hchild, hrest⟩
      cases tree with
      | file | link | locked => cases hchild
      | directory entries =>
          rw [put, bare, bare, bareAll_changeNamed hchild (ih hrest)]

end Entry
end Storage
end Cardsmith
