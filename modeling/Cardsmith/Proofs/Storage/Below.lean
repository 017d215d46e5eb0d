import Mathlib.Data.List.Basic
import Mathlib.Data.List.Induction
import Cardsmith.Proofs.Bytes.Order
import Cardsmith.Proofs.Storage.Following

/-!
# Paths below a path

Names joined to a path one after the other lead below it.  Whatever the path is, other names make
another path, so a path below it stands for one location.  A directory is listed with each of its
names once, in the order of their bytes.
-/

namespace Cardsmith
namespace Storage

open Entry

namespace Path

/-! ## Steps of a path -/

/-- The names that a path goes through, whether or not it asks for a directory at its end. -/
def steps (path : String) : List String := (names path).filter fun name => name ≠ ""

theorem names_of_name {name : String} (h : IsName name) : names name = [name] := by
  rw [names, pieces_of_noSlash h.noSlash, List.map_singleton, String.ofList_toList]
  rfl

theorem steps_join {name : String} (h : IsName name) (path : String) :
    steps (join path name) = steps path ++ [name] := by
  have hkept : [name].filter (fun n => n ≠ "") = [name] := by simp [h.nonempty]
  by_cases hempty : path = ""
  · have hjoin : join path name = name := by simp [join, isAbsolute_name h, hempty]
    have hnone : steps path = [] := by
      rw [hempty]
      rfl
    rw [hjoin, hnone, steps, names_of_name h, hkept]
    rfl
  · rcases names_join hempty h with ⟨before, hpath, hjoined⟩
    have hsteps : steps path = before.filter fun n => n ≠ "" := by
      rcases hpath with hclosed | hopen
      · rw [steps, hclosed]
      · rw [steps, hopen, List.filter_append]
        exact List.append_nil _
    rw [hsteps, steps, hjoined, List.filter_append, hkept]

/-! ## Locations below a path -/

def below (root : String) (location : Location) : String := location.foldl join root

theorem below_concat (root : String) (location : Location) (name : String) :
    below root (location ++ [name]) = join (below root location) name :=
  List.foldl_concat join root name location

theorem steps_below (root : String) {location : Location}
    (h : ∀ name ∈ location, IsName name) : steps (below root location) = steps root ++ location := by
  induction location using List.reverseRecOn with
  | nil => exact (List.append_nil _).symm
  | append_singleton before name ih =>
      have hname : IsName name := h name (List.mem_append_right _ List.mem_cons_self)
      have hbefore := ih fun n hn => h n (List.mem_append_left _ hn)
      rw [below_concat, steps_join hname, hbefore, List.append_assoc]

theorem below_injective {root : String} {a b : Location} (ha : ∀ name ∈ a, IsName name)
    (hb : ∀ name ∈ b, IsName name) (h : below root a = below root b) : a = b := by
  have hsteps := congrArg steps h
  rw [steps_below root ha, steps_below root hb] at hsteps
  exact List.append_cancel_left hsteps

end Path

namespace Disk

/-! ## Listings -/

/-- What is listed is what is in the directory. -/
theorem list_eq_ok {disk : Disk} {path : String} {entries : List (String × Entry)}
    (h : disk.list path = .ok entries) :
    ∃ unsorted, disk.entry path = .ok (.directory unsorted) ∧ entries.Perm unsorted := by
  unfold Disk.list at h
  cases hentry : disk.entry path with
  | error reason =>
      rw [hentry] at h
      cases h
  | ok entry =>
      rw [hentry] at h
      cases entry with
      | file | link => cases h
      | locked isDirectory => cases isDirectory <;> cases h
      | directory unsorted =>
          cases h
          exact ⟨unsorted, rfl, List.mergeSort_perm _ _⟩

theorem list_names {disk : Disk} {path : String} {entries : List (String × Entry)}
    (hwell : disk.root.WellFormed) (h : disk.list path = .ok entries) :
    (entries.map Prod.fst).Nodup ∧ ∀ name entry, (name, entry) ∈ entries → IsName name := by
  rcases list_eq_ok h with ⟨unsorted, hentry, hperm⟩
  rcases entry_eq_ok_iff.mp hentry with ⟨location, _, hat⟩
  have hdirectory := hwell.at? hat
  constructor
  · exact (hperm.map Prod.fst).nodup_iff.mpr hdirectory.left
  · intro name entry hmem
    exact (allWellFormed_iff.mp hdirectory.right name entry (hperm.mem_iff.mp hmem)).left

theorem list_sorted {disk : Disk} {path : String} {entries : List (String × Entry)}
    (h : disk.list path = .ok entries) : (entries.map Prod.fst).Pairwise (· ≤ ·) := by
  unfold Disk.list at h
  cases hentry : disk.entry path with
  | error reason =>
      rw [hentry] at h
      cases h
  | ok entry =>
      rw [hentry] at h
      cases entry with
      | file | link => cases h
      | locked isDirectory => cases isDirectory <;> cases h
      | directory unsorted =>
          cases h
          rw [List.pairwise_map]
          have hsorted := @List.pairwise_mergeSort _ (fun a b : String × Entry => decide (a.1 ≤ b.1))
            (fun a b c hab hbc =>
              decide_eq_true (le_trans (of_decide_eq_true hab) (of_decide_eq_true hbc)))
            (fun a b => by simpa using le_total a.1 b.1) unsorted
          exact hsorted.imp fun hle => of_decide_eq_true hle

theorem list_in_byte_order {disk : Disk} {path : String} {entries : List (String × Entry)}
    (hwell : disk.root.WellFormed) (h : disk.list path = .ok entries) :
    (entries.map fun entry => Utf8.encode entry.1).Pairwise (· < ·) := by
  have hnodup : (entries.map Prod.fst).Pairwise (· ≠ ·) := (list_names hwell h).left
  have hboth := (list_sorted h).and hnodup
  rw [List.pairwise_map] at hboth ⊢
  refine hboth.imp ?_
  rintro a b ⟨hle, hne⟩
  exact Utf8.encode_lt_encode (lt_of_le_of_ne hle hne)

end Disk
end Storage
end Cardsmith
