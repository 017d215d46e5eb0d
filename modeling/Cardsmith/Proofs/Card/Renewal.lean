import Cardsmith.Card.File
import Cardsmith.Proofs.Bytes.Utf8
import Cardsmith.Proofs.Card.RoundTrip
import Cardsmith.Proofs.Storage.Following

/-!
# Files brought into canonical form

Writing a card's canonical text in place of the text that it was read from changes no card, at
whatever path the file is seen: whether a path leads to a card, and to which, stays the same while
files are renewed one after the other.
-/

namespace Cardsmith
namespace Card

open Storage

/-! ## Cards in files -/

/-- The card that is in a file; the path is for the fault only. -/
def inFile (path : String) (contents : Bytes) : Except Fault Card :=
  match Utf8.decode? contents with
  | some source => ofText source
  | none => .error (.storage path .notText)

theorem load_eq (disk : Disk) (path : String) :
    load disk path =
      match disk.read path with
      | .error reason => .error (.storage path reason)
      | .ok contents => inFile path contents := by
  unfold load Disk.readText inFile
  cases disk.read path with
  | error reason => rfl
  | ok contents => cases hdecode : Utf8.decode? contents <;> simp only [hdecode]

theorem inFile_eq_ok {path : String} {contents : Bytes} {card : Card}
    (h : inFile path contents = .ok card) (other : String) :
    inFile other contents = .ok card := by
  unfold inFile at h ⊢
  cases hdecode : Utf8.decode? contents with
  | none =>
      rw [hdecode] at h
      cases h
  | some source =>
      rw [hdecode] at h
      exact h

theorem inFile_text {path : String} {contents : Bytes} {card : Card}
    (h : inFile path contents = .ok card) (other : String) :
    inFile other (Utf8.encode (text card)) = .ok card := by
  have hdecode : Utf8.decode? (Utf8.encode (text card)) = some (text card) := by
    rw [Utf8.encode, Utf8.decode?_encodeChars, String.ofList_toList]
  unfold inFile at h ⊢
  rw [hdecode]
  apply (ofText_text card).mpr
  cases hsource : Utf8.decode? contents with
  | none =>
      rw [hsource] at h
      cases h
  | some source =>
      rw [hsource] at h
      exact admitted_of_ofText h

theorem exists_file_of_load {disk : Disk} {path : String} {card : Card}
    (h : load disk path = .ok card) :
    ∃ location contents, disk.find false path = .ok (.taken location) ∧
      disk.root.at? location = some (.file contents) ∧ disk.read path = .ok contents ∧
      inFile path contents = .ok card := by
  rw [load_eq] at h
  cases hread : disk.read path with
  | error reason =>
      rw [hread] at h
      cases h
  | ok contents =>
      rw [hread] at h
      rcases Disk.entry_eq_ok_iff.mp (Disk.read_eq_ok_iff.mp hread) with ⟨location, hfind, hat⟩
      exact ⟨location, contents, hfind, hat, rfl, h⟩

/-! ## Renewed disks -/

/-- A disk on which the cards at some paths have been brought into canonical form, compared with
what it was before. -/
structure Renewed (before : Disk) (paths : List String) (disk : Disk) : Prop where
  alike : before.Alike disk
  cards : ∀ path ∈ paths, ∃ card, load before path = .ok card
  renewed : ∀ path ∈ paths, ∀ card, load before path = .ok card →
    ∃ location, before.find false path = .ok (.taken location) ∧
      disk.root.at? location = some (.file (Utf8.encode (text card)))
  kept : ∀ location contents, before.root.at? location = some (.file contents) →
    (∀ path ∈ paths, before.find false path ≠ .ok (.taken location)) →
    disk.root.at? location = some (.file contents)

namespace Renewed

variable {before disk : Disk} {paths : List String}

theorem refl (disk : Disk) : Renewed disk [] disk where
  alike := ⟨rfl, rfl⟩
  cards := by simp
  renewed := by simp
  kept := fun _ _ hat _ => hat

/-- A file holds what it held or the canonical text of the card that it held. -/
theorem contents (h : Renewed before paths disk) {location : Location} {old : Bytes}
    (hat : before.root.at? location = some (.file old)) :
    ∃ new, disk.root.at? location = some (.file new) ∧
      (new = old ∨
        ∃ card, (∀ path, inFile path old = .ok card) ∧ new = Utf8.encode (text card)) := by
  -- several paths can lead to one file, so the file is asked about, not the path
  by_cases htouched : ∃ path ∈ paths, before.find false path = .ok (.taken location)
  · rcases htouched with ⟨path, hmem, hfind⟩
    rcases h.cards path hmem with ⟨card, hload⟩
    rcases exists_file_of_load hload with ⟨found, held, hfindHeld, hatHeld, _, hcard⟩
    rcases h.renewed path hmem card hload with ⟨goal, hfindGoal, hnew⟩
    rw [hfind] at hfindHeld hfindGoal
    cases hfindHeld
    cases hfindGoal
    rw [hat] at hatHeld
    cases hatHeld
    exact ⟨_, hnew, Or.inr ⟨card, inFile_eq_ok hcard, rfl⟩⟩
  · refine ⟨old, h.kept location old hat ?_, Or.inl rfl⟩
    intro path hmem hfind
    exact htouched ⟨path, hmem, hfind⟩

/-- Every path leads to the card that it led to, or to none for the same reason. -/
theorem load_eq (h : Renewed before paths disk) (path : String) :
    load disk path = load before path := by
  rw [Card.load_eq, Card.load_eq, Disk.read, Disk.read]
  rcases h.alike.entry path with
    ⟨reason, hbefore, hafter⟩ | ⟨entry, entry', hbefore, hafter, hbare⟩
  · rw [hbefore, hafter]
  · rw [hbefore, hafter]
    cases entry with
    | link | directory | locked => cases entry' <;> first | rfl | cases hbare
    | file old =>
        rcases Disk.entry_eq_ok_iff.mp hbefore with ⟨location, hfind, hat⟩
        rcases Disk.entry_eq_ok_iff.mp hafter with ⟨goal, hfindAfter, hatAfter⟩
        rw [← h.alike.find, hfind] at hfindAfter
        cases hfindAfter
        rcases h.contents hat with ⟨new, hnew, hsame⟩
        rw [hatAfter] at hnew
        cases hnew
        rcases hsame with rfl | ⟨card, hcard, rfl⟩
        · rfl
        · exact (inFile_text (hcard path) path).trans (hcard path).symm

theorem extend {disk' : Disk} {path : String} {card : Card} {location : Location}
    (h : Renewed before paths disk) (hload : load before path = .ok card)
    (hfind : before.find false path = .ok (.taken location)) (halike : before.Alike disk')
    (hself : disk'.root.at? location = some (.file (Utf8.encode (text card))))
    (hothers : ∀ other contents, other ≠ location →
      disk.root.at? other = some (.file contents) →
      disk'.root.at? other = some (.file contents)) :
    Renewed before (paths ++ [path]) disk' where
  alike := halike
  cards := by
    intro q hmem
    rcases List.mem_append.mp hmem with hold | hnew
    · exact h.cards q hold
    · rw [List.mem_singleton.mp hnew]
      exact ⟨card, hload⟩
  renewed := by
    intro q hmem held hheld
    rcases List.mem_append.mp hmem with hold | hnew
    · rcases h.renewed q hold held hheld with ⟨goal, hgoal, hat⟩
      refine ⟨goal, hgoal, ?_⟩
      by_cases hsame : goal = location
      · have hcard : held = card := by
          rcases exists_file_of_load hload with ⟨place, old, hplace, hold, _, hcard⟩
          rcases exists_file_of_load hheld with ⟨place', old', hplace', hold', _, hcard'⟩
          rw [hfind] at hplace
          rw [hgoal, hsame] at hplace'
          cases hplace
          cases hplace'
          rw [hold] at hold'
          cases hold'
          exact Except.ok.inj ((inFile_eq_ok hcard' path).symm.trans hcard)
        rw [hsame, hcard]
        exact hself
      · exact hothers goal _ hsame hat
    · rw [List.mem_singleton.mp hnew] at hheld ⊢
      rw [hload] at hheld
      cases hheld
      exact ⟨location, hfind, hself⟩
  kept := by
    intro other contents hat huntouched
    have hne : other ≠ location := by
      rintro rfl
      exact huntouched path (List.mem_append_right _ List.mem_cons_self) hfind
    apply hothers other contents hne
    apply h.kept other contents hat
    intro q hmem
    exact huntouched q (List.mem_append_left _ hmem)

end Renewed

end Card
end Cardsmith
