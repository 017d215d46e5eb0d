import Cardsmith.Proofs.Storage.Following

/-!
# Files that are written

A tree after a file has been written into it, in place of another one or under a name that was
free.  The file is there, and everything else is as it was, but for the entries of the directory
that has a new name in it.  A path that led to the place leads to the file, and a path that led to
an entry still leads there.
-/

namespace Cardsmith
namespace Storage

/-! ## Trees -/

namespace Entry

def surface : Entry → Entry
  | .file contents => .file contents
  | .link target => .link target
  | .directory _ => .directory []
  | .locked isDirectory => .locked isDirectory

theorem eq_of_surface {entry other : Entry} (h : entry.surface = other.surface)
    (hleaf : ∀ entries, other ≠ .directory entries) : entry = other := by
  cases other with
  | directory entries => exact absurd rfl (hleaf entries)
  | file | link | locked =>
      cases entry <;> cases h
      rfl

theorem eq_directory_of_surface {entry : Entry} (h : entry.surface = .directory []) :
    ∃ entries, entry = .directory entries := by
  cases entry with
  | file | link | locked => cases h
  | directory entries => exact ⟨entries, rfl⟩

/-- A file can be put at a location: in place of another one, or under a free name of a
directory. -/
inductive Writable : Entry → Location → Prop where
  | file {old : Bytes} : Writable (.file old) []
  | vacant {entries : List (String × Entry)} {name : String} :
      entries.lookup name = none → Writable (.directory entries) [name]
  | inside {entries : List (String × Entry)} {name : String} {child : Entry} {rest : Location} :
      entries.lookup name = some child → Writable child rest →
      Writable (.directory entries) (name :: rest)

theorem writable_below {tree directory : Entry} {location rest : Location}
    (hat : tree.at? location = some directory) (h : Writable directory rest) :
    Writable tree (location ++ rest) := by
  induction location generalizing tree with
  | nil =>
      cases hat
      exact h
  | cons name location ih =>
      rw [at?_cons] at hat
      rcases Option.bind_eq_some_iff.mp hat with ⟨child, hchild, hrest⟩
      cases tree with
      | file | link | locked => cases hchild
      | directory entries => exact .inside hchild (ih hrest)

theorem writable_of_file {tree : Entry} {location : Location} {old : Bytes}
    (hat : tree.at? location = some (.file old)) : Writable tree location := by
  have h := writable_below hat .file
  rwa [List.append_nil] at h

/-- A tree in which a file has been written at a location. -/
structure Written (before : Entry) (location : Location) (contents : Bytes) (after : Entry) :
    Prop where
  place : before.at? location = none ∨ ∃ old, before.at? location = some (.file old)
  here : after.at? location = some (.file contents)
  /-- No other entry has come, gone or changed, but for what is in directories. -/
  elsewhere : ∀ other, other ≠ location →
    (after.at? other).map surface = (before.at? other).map surface

theorem Writable.written {tree : Entry} {location : Location} (h : Writable tree location)
    (contents : Bytes) :
    Written tree location contents (put (.file contents) location (some tree)) := by
  induction h with
  | file =>
      refine ⟨Or.inr ⟨_, rfl⟩, rfl, ?_⟩
      intro other hne
      cases other with
      | nil => exact absurd rfl hne
      | cons name rest => rfl
  | @vacant entries name hfree =>
      refine ⟨Or.inl ?_, ?_, ?_⟩
      · rw [at?_cons, child?, hfree]
        rfl
      · rw [put, at?_cons, child?, lookup_changeNamed, if_pos rfl]
        rfl
      · intro other hne
        cases other with
        | nil => rfl
        | cons n rest =>
            rw [put, at?_cons, at?_cons, child?, child?, lookup_changeNamed]
            by_cases hname : n = name
            · subst hname
              rw [if_pos rfl, hfree]
              cases rest with
              | nil => exact absurd rfl hne
              | cons further rest => rfl
            · rw [if_neg hname]
  | @inside entries name child rest hchild _ ih =>
      have hput : put (.file contents) (name :: rest) (some (.directory entries)) =
          .directory (changeNamed name (put (.file contents) rest) entries) := rfl
      rw [hput]
      refine ⟨?_, ?_, ?_⟩
      · rw [at?_cons, child?, hchild]
        exact ih.place
      · rw [at?_cons, child?, lookup_changeNamed, if_pos rfl, hchild]
        exact ih.here
      · intro other hne
        cases other with
        | nil => rfl
        | cons n more =>
            rw [at?_cons, at?_cons, child?, child?, lookup_changeNamed]
            by_cases hname : n = name
            · subst hname
              rw [if_pos rfl, hchild]
              apply ih.elsewhere
              rintro rfl
              exact hne rfl
            · rw [if_neg hname]

/-! ## What is found in a tree that was written to -/

namespace Written

variable {before after : Entry} {location here : Location} {contents : Bytes}

theorem ne_of_noFile (h : Written before location contents after) {entry : Entry}
    (hat : before.at? here = some entry) (hnotFile : ∀ old, entry ≠ .file old) :
    here ≠ location := by
  rintro rfl
  rcases h.place with hnone | ⟨old, hfile⟩
  · rw [hat] at hnone
    cases hnone
  · rw [hat] at hfile
    exact hnotFile old (Option.some.inj hfile)

theorem kept (h : Written before location contents after) {entry : Entry}
    (hne : here ≠ location) (hat : before.at? here = some entry) :
    ∃ entry', after.at? here = some entry' ∧ entry'.surface = entry.surface := by
  have hsame := h.elsewhere here hne
  rw [hat] at hsame
  exact Option.map_eq_some_iff.mp hsame

theorem file (h : Written before location contents after) {held : Bytes} (hne : here ≠ location)
    (hat : before.at? here = some (.file held)) : after.at? here = some (.file held) := by
  rcases h.kept hne hat with ⟨entry, hentry, hsurface⟩
  rw [hentry, eq_of_surface hsurface (by simp)]

theorem directory (h : Written before location contents after) {entries : List (String × Entry)}
    (hat : before.at? here = some (.directory entries)) :
    ∃ entries', after.at? here = some (.directory entries') := by
  rcases h.kept (h.ne_of_noFile hat (by simp)) hat with ⟨entry, hentry, hsurface⟩
  obtain ⟨entries', rfl⟩ := eq_directory_of_surface hsurface
  exact ⟨entries', hentry⟩

/-- What is neither a file nor a directory stays as it is. -/
theorem leaf (h : Written before location contents after) {entry : Entry}
    (hat : before.at? here = some entry) (hnotFile : ∀ old, entry ≠ .file old)
    (hleaf : ∀ entries, entry ≠ .directory entries) : after.at? here = some entry := by
  rcases h.kept (h.ne_of_noFile hat hnotFile) hat with ⟨entry', hentry, hsurface⟩
  rw [hentry, eq_of_surface hsurface hleaf]

theorem noLink (h : Written before location contents after) {entry : Entry}
    (hat : before.at? here = some entry) (hnotLink : ∀ target, entry ≠ .link target) :
    ∃ entry', after.at? here = some entry' ∧ ∀ target, entry' ≠ .link target := by
  by_cases hhere : here = location
  · rw [hhere]
    exact ⟨_, h.here, by simp⟩
  · rcases h.kept hhere hat with ⟨entry', hentry, hsurface⟩
    refine ⟨entry', hentry, ?_⟩
    rintro target rfl
    exact hnotLink target (eq_of_surface hsurface.symm (by simp))

end Written

end Entry

/-! ## Paths -/

open Entry

def Place.location : Place → Location
  | .taken location => location
  | .free above name => above ++ [name]

namespace Disk

theorem lookup_eq_at? {root : Entry} {here : Location} {entries : List (String × Entry)}
    (hat : root.at? here = some (.directory entries)) (name : String) :
    entries.lookup name = root.at? (here ++ [name]) := by
  rw [at?_append, hat, Option.bind_some, at?_cons, child?]
  cases entries.lookup name <;> rfl

theorem Looked.reading {creating : Bool} {name : String} {rest : List String}
    (h : Looked creating name rest) : Looked false name rest :=
  { h with closed := by simp }

theorem leads_of_written_followNames {before after : Entry} {creating : Bool} {links : Nat}
    {names : List String} {here location : Location} {contents : Bytes} {place : Place}
    (hwritten : Written before location contents after)
    (hplace : ∀ directory name, place = .free directory name → directory ++ [name] = location)
    (hjump : ∀ names here, jumping before creating links names here = .ok place →
      ∃ fewer, links = fewer + 1 ∧ Leads after false fewer names here place.location)
    (h : followNames before creating (jumping before creating links) names here = .ok place) :
    Leads after false links names here place.location := by
  induction names generalizing here with
  | nil =>
      cases h
      exact .arrive
  | cons name rest ih =>
      rcases exists_onward h with ⟨rfl, hat, hrest⟩ | ⟨entries, hat, honward⟩
      · exact .pass (hwritten.leaf hat (by simp) (by simp)) (ih hrest)
      rcases hwritten.directory hat with ⟨entries', hat'⟩
      have hlookup := lookup_eq_at? hat name
      have hlookup' := lookup_eq_at? hat' name
      cases honward with
      | stay hstay hrest => exact .stay hat' hstay (ih hrest)
      | rise hrest => exact .rise hat' (ih hrest)
      | vacant hlooked _ hlast hfree =>
          subst hlast hfree
          have hhere : entries'.lookup name = some (.file contents) := by
            rw [hlookup', hplace here name rfl, hwritten.here]
          exact .enter hat' hlooked.reading hhere (by simp) .arrive
      | jump hlooked hfound hrest =>
          rcases hjump _ _ hrest with ⟨fewer, rfl, hleads⟩
          rw [hlookup] at hfound
          have hlink := hwritten.leaf hfound (by simp) (by simp)
          exact .jump hat' hlooked.reading (hlookup'.trans hlink) hleads
      | enter hlooked hfound hnotLink hrest =>
          rw [hlookup] at hfound
          rcases hwritten.noLink hfound hnotLink with ⟨entry', hfound', hnotLink'⟩
          exact .enter hat' hlooked.reading (hlookup'.trans hfound') hnotLink' (ih hrest)

/-- A path that led to an entry, or to the free name where a file has been written, leads there
in the tree with the file. -/
theorem leads_of_written {before after : Entry} {creating : Bool} {links : Nat}
    {names : List String} {here location : Location} {contents : Bytes} {place : Place}
    (hwritten : Written before location contents after)
    (hplace : ∀ directory name, place = .free directory name → directory ++ [name] = location)
    (h : follow before creating links names here = .ok place) :
    Leads after false links names here place.location := by
  rw [follow_eq] at h
  induction links generalizing names here with
  | zero =>
      apply leads_of_written_followNames hwritten hplace _ h
      intro _ _ hjump
      cases hjump
  | succ links ih =>
      apply leads_of_written_followNames hwritten hplace _ h
      intro names here hjump
      rw [jumping, follow_eq] at hjump
      exact ⟨links, rfl, ih hjump⟩

theorem free_of_followNames {root : Entry} {creating : Bool} {links : Nat} {names : List String}
    {here directory : Location} {name : String}
    (hjump : ∀ names here, jumping root creating links names here = .ok (.free directory name) →
      Writable root (directory ++ [name]))
    (h : followNames root creating (jumping root creating links) names here =
      .ok (.free directory name)) :
    Writable root (directory ++ [name]) := by
  induction names generalizing here with
  | nil => cases h
  | cons first rest ih =>
      rcases exists_onward h with ⟨_, _, hrest⟩ | ⟨entries, hat, honward⟩
      · exact ih hrest
      cases honward with
      | stay _ hrest => exact ih hrest
      | rise hrest => exact ih hrest
      | vacant _ hfree _ hplace =>
          cases hplace
          exact writable_below hat (.vacant hfree)
      | jump _ _ hrest => exact hjump _ _ hrest
      | enter _ _ _ hrest => exact ih hrest

theorem writable_of_free {root : Entry} {creating : Bool} {links : Nat} {names : List String}
    {here directory : Location} {name : String}
    (h : follow root creating links names here = .ok (.free directory name)) :
    Writable root (directory ++ [name]) := by
  rw [follow_eq] at h
  induction links generalizing names here with
  | zero =>
      apply free_of_followNames _ h
      intro _ _ hjump
      cases hjump
  | succ links ih =>
      apply free_of_followNames _ h
      intro names here hjump
      rw [jumping, follow_eq] at hjump
      exact ih hjump

/-! ## Disks -/

structure Wrote (before : Disk) (location : Location) (contents : Bytes) (after : Disk) :
    Prop where
  tree : Written before.root location contents after.root
  here : after.here = before.here

theorem wrote_put {disk : Disk} {location : Location} (h : Writable disk.root location)
    (contents : Bytes) : Wrote disk location contents (disk.put location (.file contents)) :=
  ⟨h.written contents, rfl⟩

theorem Wrote.find {before after : Disk} {location : Location} {contents : Bytes}
    (h : Wrote before location contents after) {creating : Bool} {path : String} {place : Place}
    (hplace : ∀ directory name, place = .free directory name → directory ++ [name] = location)
    (hfind : before.find creating path = .ok place) :
    after.find false path = .ok (.taken place.location) := by
  obtain ⟨hallowed, hfollow⟩ := find_eq_ok_iff.mp hfind
  have horigin : after.origin path = before.origin path := by rw [origin, origin, h.here]
  have hleads := leads_of_written h.tree hplace hfollow
  rw [← horigin] at hleads
  exact find_eq_taken_iff.mpr ⟨hallowed, hleads⟩

theorem write_eq_ok {disk after : Disk} {path : String} {contents : Bytes}
    (h : disk.write path contents = .ok after) :
    ∃ place, disk.find true path = .ok place ∧ Wrote disk place.location contents after ∧
      after.find false path = .ok (.taken place.location) := by
  unfold write at h
  cases hfind : disk.find true path with
  | error fault =>
      rw [hfind] at h
      cases h
  | ok place =>
      rw [hfind] at h
      have hwrote : Wrote disk place.location contents after := by
        cases place with
        | free directory name =>
            cases h
            exact wrote_put (writable_of_free (find_eq_ok_iff.mp hfind).right) contents
        | taken location =>
            simp only at h
            split at h
            case h_1 old hat =>
              cases h
              exact wrote_put (writable_of_file hat) contents
            all_goals cases h
      refine ⟨place, rfl, hwrote, hwrote.find ?_ hfind⟩
      rintro directory name rfl
      rfl

/-- A writing fails if the path leads nowhere, to a file that may not be opened, or to no file. -/
theorem write_eq_error_iff {disk : Disk} {path : String} {contents : Bytes} {reason : Fault} :
    disk.write path contents = .error reason ↔
      disk.find true path = .error reason ∨
        ∃ location, disk.find true path = .ok (.taken location) ∧
          (disk.root.at? location = some (.locked false) ∧ reason = .denied ∨
            (∀ old, disk.root.at? location ≠ some (.file old)) ∧
              disk.root.at? location ≠ some (.locked false) ∧ reason = .isDirectory) := by
  unfold write
  cases hfind : disk.find true path with
  | error fault => simp
  | ok place =>
      cases place with
      | free directory name => simp
      | taken location =>
          simp only [reduceCtorEq, false_or, Except.ok.injEq, Place.taken.injEq, exists_eq_left']
          split
          case h_1 old hat => simp [hat]
          case h_2 hlocked => simp [hlocked, eq_comm]
          case h_3 hnoFile hopen =>
            rw [Except.error.injEq, eq_comm]
            constructor
            · intro hreason
              exact Or.inr ⟨hnoFile, hopen, hreason⟩
            · rintro (⟨hlocked, _⟩ | ⟨_, _, hreason⟩)
              · exact absurd hlocked hopen
              · exact hreason

end Disk
end Storage
end Cardsmith
