import Mathlib.Data.List.Sort
import Cardsmith.Card.Collection
import Cardsmith.Proofs.Storage.Below

/-!
# Tours of directories

What there is to see below a directory, from the directory down: its files, and then everything
below each of its subdirectories.  A collection that keeps its directories on a stack and its
files in a queue meets exactly this, in this order.
-/

namespace Cardsmith
namespace Card

open Storage

/-! ## Sightings -/

inductive Sighting where
  | barred (path : String) (reason : Storage.Fault)
  | met (path : String)
  deriving Repr, DecidableEq

namespace Sighting

def file? : Sighting → Option String
  | .barred _ _ => none
  | .met path => some path

def loaded? (disk : Disk) : Sighting → Option (String × Card)
  | .barred _ _ => none
  | .met path =>
      match load disk path with
      | .ok card => some (path, card)
      | .error _ => none

def skipped? (disk : Disk) : Sighting → Option String
  | .barred _ _ => none
  | .met path =>
      match load disk path with
      | .ok _ => none
      | .error _ => some path

def warning? (disk : Disk) : Sighting → Option Warning
  | .barred path reason => some (.unlisted path reason)
  | .met path =>
      match load disk path with
      | .ok _ => none
      | .error fault => some (.unloaded path fault)

theorem met_of_ok {disk : Disk} {path : String} {card : Card} (h : load disk path = .ok card) :
    (met path).loaded? disk = some (path, card) ∧ (met path).skipped? disk = none ∧
      (met path).warning? disk = none := by
  simp only [loaded?, skipped?, warning?, h, and_self]

theorem met_of_error {disk : Disk} {path : String} {fault : Fault}
    (h : load disk path = .error fault) :
    (met path).loaded? disk = none ∧ (met path).skipped? disk = some path ∧
      (met path).warning? disk = some (.unloaded path fault) := by
  simp only [loaded?, skipped?, warning?, h, and_self]

theorem perm_loaded?_skipped? (disk : Disk) (sights : List Sighting) :
    (sights.filterMap file?).Perm
      ((sights.filterMap (loaded? disk)).map Prod.fst ++ sights.filterMap (skipped? disk)) := by
  induction sights with
  | nil => exact List.Perm.refl _
  | cons sighting rest ih =>
      cases sighting with
      | barred path reason => exact ih
      | met path =>
          rw [List.filterMap_cons_some (f := file?) rfl]
          cases hload : load disk path with
          | ok card =>
              obtain ⟨hcard, hkept, _⟩ := met_of_ok hload
              rw [List.filterMap_cons_some hcard, List.filterMap_cons_none hkept]
              exact ih.cons path
          | error fault =>
              obtain ⟨hnone, hpassed, _⟩ := met_of_error hload
              rw [List.filterMap_cons_none hnone, List.filterMap_cons_some hpassed]
              exact (ih.cons path).trans List.perm_middle.symm

theorem length_loaded?_add_skipped? (disk : Disk) (sights : List Sighting) :
    (sights.filterMap (loaded? disk)).length + (sights.filterMap (skipped? disk)).length =
      (sights.filterMap file?).length := by
  rw [(perm_loaded?_skipped? disk sights).length_eq, List.length_append, List.length_map]

theorem filterMap_met {β : Type} {f : Sighting → Option β} {path : String}
    (h : f (.met path) = none) (passed later : List Sighting) :
    (passed ++ .met path :: later).filterMap f = passed.filterMap f ++ later.filterMap f := by
  rw [List.filterMap_append, List.filterMap_cons_none h]

end Sighting

namespace Collection

/-- A tour through directories in turn: the files of each, and then everything below it. -/
inductive Tour (disk : Disk) : List String → List Sighting → Prop where
  | finished : Tour disk [] []
  | barred {path : String} {reason : Storage.Fault} {others : List String}
      {later : List Sighting} :
      disk.list path = .error reason → Tour disk others later →
      Tour disk (path :: others) (.barred path reason :: later)
  | listed {path : String} {entries : List (String × Entry)} {others : List String}
      {below later : List Sighting} :
      disk.list path = .ok entries → Tour disk (subdirectories path entries) below →
      Tour disk others later →
      Tour disk (path :: others) ((candidates path entries).map .met ++ below ++ later)

theorem Tour.append {disk : Disk} {first others : List String} {sights later : List Sighting}
    (h : Tour disk first sights) (h' : Tour disk others later) :
    Tour disk (first ++ others) (sights ++ later) := by
  induction h with
  | finished => exact h'
  | barred hlist _ ih => exact .barred hlist ih
  | listed hlist hbelow _ _ ih =>
      rw [List.append_assoc]
      exact .listed hlist hbelow ih

def Faces (disk : Disk) (c : Collection) (sights : List Sighting) : Prop :=
  ∃ later, Tour disk c.directories later ∧ sights = c.files.map .met ++ later

/-! ## How much there is -/

theorem extent_join_le {disk : Disk} {path name : String} {entries : List (String × Entry)}
    {entry : Entry} (hwell : disk.root.WellFormed)
    (hpath : disk.entry path = .ok (.directory entries)) (hmem : (name, entry) ∈ entries)
    (hdirectory : isDirectory entry = true) :
    disk.extent (Path.join path name) ≤ 1 + entry.count := by
  have hnotLink (target : String) : entry ≠ .link target := by
    rintro rfl
    cases hdirectory
  unfold Disk.extent
  cases hentry : disk.entry (Path.join path name) with
  | error reason => exact Nat.le_add_right 1 _
  | ok found => rw [Disk.entry_join hwell hpath hmem hnotLink hentry]

theorem length_candidates_cons_le (path name : String) (entry : Entry)
    (rest : List (String × Entry)) :
    (candidates path ((name, entry) :: rest)).length ≤ 1 + (candidates path rest).length := by
  unfold candidates
  rw [List.length_map, List.length_map, List.filter_cons]
  split_ifs
  · rw [List.length_cons, Nat.add_comm]
  · exact Nat.le_add_left _ _

theorem subdirectories_cons (path name : String) (entry : Entry) (rest : List (String × Entry)) :
    subdirectories path ((name, entry) :: rest) =
      if isDirectory entry then Path.join path name :: subdirectories path rest
      else subdirectories path rest := by
  unfold subdirectories
  rw [List.filter_cons]
  split_ifs <;> rfl

theorem length_candidates_add_le {disk : Disk} {path : String} {entries : List (String × Entry)}
    (h : ∀ name entry, (name, entry) ∈ entries → isDirectory entry = true →
      disk.extent (Path.join path name) ≤ 1 + entry.count) :
    (candidates path entries).length + ((subdirectories path entries).map disk.extent).sum ≤
      (entries.map fun entry => 1 + entry.2.count).sum := by
  induction entries with
  | nil => exact Nat.le_refl 0
  | cons first rest ih =>
      obtain ⟨name, entry⟩ := first
      have hrest := ih fun n e hmem => h n e (List.mem_cons_of_mem _ hmem)
      have hcandidates := length_candidates_cons_le path name entry rest
      rw [List.map_cons, List.sum_cons, subdirectories_cons]
      by_cases hdirectory : isDirectory entry = true
      · have hfirst := h name entry List.mem_cons_self hdirectory
        have hsame : candidates path ((name, entry) :: rest) = candidates path rest := by
          simp [candidates, hdirectory]
        rw [hsame, if_pos hdirectory, List.map_cons, List.sum_cons]
        dsimp only
        omega
      · rw [if_neg hdirectory]
        omega

/-- Listing a directory leaves less to do than it was. -/
theorem extent_listed_lt {disk : Disk} {path : String} {entries : List (String × Entry)}
    (hwell : disk.root.WellFormed) (h : disk.list path = .ok entries) :
    (candidates path entries).length + ((subdirectories path entries).map disk.extent).sum <
      disk.extent path := by
  rcases Disk.list_eq_ok h with ⟨unsorted, hentry, hperm⟩
  have hbelow (name : String) (entry : Entry) (hmem : (name, entry) ∈ entries)
      (hdirectory : isDirectory entry = true) :
      disk.extent (Path.join path name) ≤ 1 + entry.count :=
    extent_join_le hwell hentry (hperm.mem_iff.mp hmem) hdirectory
  have hle := length_candidates_add_le hbelow
  have hsum : (entries.map fun entry => 1 + entry.2.count).sum = (Entry.directory unsorted).count := by
    rw [Entry.count, Entry.countAll_eq_sum, (hperm.map _).sum_nat]
  have hextent : disk.extent path = 1 + (Entry.directory unsorted).count := by
    rw [Disk.extent, hentry]
  omega

theorem extent_mk (disk : Disk) (directories files skipped : List String) :
    extent disk ⟨directories, files, skipped⟩ =
      files.length + (directories.map disk.extent).sum := rfl

theorem extent_pos (disk : Disk) (path : String) : 0 < disk.extent path := by
  unfold Disk.extent
  cases disk.entry path with
  | error reason => exact Nat.one_pos
  | ok entry => exact Nat.lt_add_right _ Nat.one_pos

theorem exists_tour {disk : Disk} (hwell : disk.root.WellFormed) (directories : List String) :
    ∃ sights, Tour disk directories sights := by
  -- on how much there is below the directories; both premises of a listing have less
  induction hextent : (directories.map disk.extent).sum using Nat.strongRecOn
    generalizing directories with
  | _ n ih =>
      cases directories with
      | nil => exact ⟨[], .finished⟩
      | cons path others =>
          have hpositive := extent_pos disk path
          rw [List.map_cons, List.sum_cons] at hextent
          rcases ih _ (by omega) others rfl with ⟨later, hlater⟩
          cases hlist : disk.list path with
          | error reason => exact ⟨_, .barred hlist hlater⟩
          | ok entries =>
              have hless := extent_listed_lt hwell hlist
              rcases ih _ (by omega) (subdirectories path entries) rfl with ⟨below, hbelow⟩
              exact ⟨_, .listed hlist hbelow hlater⟩

/-! ## Steps -/

inductive Meets (disk : Disk) (c : Collection) : List Sighting → Step → Prop where
  | finished : c.files = [] → c.directories = [] → Meets disk c [] .finished
  | listed {sights : List Sighting} {next : Collection} :
      next.Faces disk sights → next.skipped = c.skipped → extent disk next < extent disk c →
      Meets disk c sights (.listed none next)
  | barred {path : String} {reason : Storage.Fault} {later : List Sighting}
      {next : Collection} :
      next.Faces disk later → next.skipped = c.skipped → extent disk next < extent disk c →
      Meets disk c (.barred path reason :: later) (.listed (some (.unlisted path reason)) next)
  | skipped {path : String} {fault : Fault} {later : List Sighting} {next : Collection} :
      load disk path = .error fault → next.Faces disk later →
      next.skipped = c.skipped ++ [path] → extent disk next < extent disk c →
      Meets disk c (.met path :: later) (.skipped (.unloaded path fault) next)
  | loaded {path : String} {card : Card} {later : List Sighting} {next : Collection} :
      load disk path = .ok card → next.Faces disk later → next.skipped = c.skipped →
      extent disk next < extent disk c → Meets disk c (.met path :: later) (.loaded path card next)

theorem step_meets {disk : Disk} {c : Collection} {sights : List Sighting}
    (hwell : disk.root.WellFormed) (h : c.Faces disk sights) :
    Meets disk c sights (step disk c) := by
  rcases h with ⟨later, htour, rfl⟩
  obtain ⟨directories, files, skipped⟩ := c
  cases files with
  | cons path files =>
      have hless : extent disk ⟨directories, files, skipped⟩ <
          extent disk ⟨directories, path :: files, skipped⟩ := by
        rw [extent_mk, extent_mk, List.length_cons]
        omega
      cases hload : load disk path with
      | ok card =>
          simp only [step, hload]
          exact .loaded hload ⟨later, htour, rfl⟩ rfl hless
      | error fault =>
          simp only [step, hload]
          exact .skipped hload ⟨later, htour, rfl⟩ rfl hless
  | nil =>
      cases htour with
      | finished => exact .finished rfl rfl
      | @barred path reason others later hlist hlater =>
          have hless : extent disk ⟨others, [], skipped⟩ <
              extent disk ⟨path :: others, [], skipped⟩ := by
            have hpositive := extent_pos disk path
            rw [extent_mk, extent_mk, List.map_cons, List.sum_cons]
            omega
          simp only [step, hlist]
          exact .barred ⟨later, hlater, rfl⟩ rfl hless
      | @listed path entries others below later hlist hbelow hlater =>
          have hless : extent disk
              ⟨subdirectories path entries ++ others, candidates path entries, skipped⟩ <
              extent disk ⟨path :: others, [], skipped⟩ := by
            have hlisted := extent_listed_lt hwell hlist
            rw [extent_mk, extent_mk, List.map_append, List.sum_append, List.map_cons,
              List.sum_cons, List.length_nil]
            omega
          simp only [step, hlist]
          exact .listed ⟨_, hbelow.append hlater, by simp⟩ rfl hless

/-! ## The next card -/

/-- What asking for a card comes to: some sights are passed, and the card is the next one. -/
structure Answer.Gives (disk : Disk) (c : Collection) (sights : List Sighting)
    (answer : Answer) (passed left : List Sighting) : Prop where
  sights : sights = passed ++ left
  nothing : passed.filterMap (Sighting.loaded? disk) = []
  warnings : answer.warnings = passed.filterMap (Sighting.warning? disk)
  skipped : answer.rest.skipped = c.skipped ++ passed.filterMap (Sighting.skipped? disk)
  card : (left = [] ∧ answer.card = none) ∨
    ∃ path card later, left = .met path :: later ∧ load disk path = .ok card ∧
      answer.card = some (path, card) ∧ answer.rest.Faces disk later ∧
      extent disk answer.rest < extent disk c

theorem Answer.Gives.cons {disk : Disk} {c next : Collection} {later passed left : List Sighting}
    {answer : Answer} (h : answer.Gives disk next later passed left) (sighting : Sighting)
    (hnothing : sighting.loaded? disk = none)
    (hskipped : next.skipped = c.skipped ++ (sighting.skipped? disk).toList)
    (hless : extent disk next < extent disk c) :
    Answer.Gives disk c (sighting :: later)
      { answer with warnings := (sighting.warning? disk).toList ++ answer.warnings }
      (sighting :: passed) left where
  sights := by rw [h.sights]; rfl
  nothing := by rw [List.filterMap_cons_none hnothing, h.nothing]
  warnings := by
    rw [h.warnings]
    cases hwarning : sighting.warning? disk with
    | none => rw [List.filterMap_cons_none hwarning]; rfl
    | some warning => rw [List.filterMap_cons_some hwarning]; rfl
  skipped := by
    rw [h.skipped, hskipped, List.append_assoc]
    cases hpath : sighting.skipped? disk with
    | none => rw [List.filterMap_cons_none hpath]; rfl
    | some path => rw [List.filterMap_cons_some hpath]; rfl
  card := by
    rcases h.card with hnone | ⟨path, card, after, hleft, hload, hcard, hfaces, hextent⟩
    · exact Or.inl hnone
    · exact Or.inr ⟨path, card, after, hleft, hload, hcard, hfaces, hextent.trans hless⟩

theorem nextWithin_gives {disk : Disk} {limit : Nat} {c : Collection} {sights : List Sighting}
    (hwell : disk.root.WellFormed) (h : c.Faces disk sights) (hlimit : extent disk c < limit) :
    ∃ passed left, (nextWithin disk limit c).Gives disk c sights passed left := by
  induction limit generalizing c sights with
  | zero => exact absurd hlimit (Nat.not_lt_zero _)
  | succ limit ih =>
      have hmeets := step_meets hwell h
      rw [nextWithin]
      generalize step disk c = outcome at hmeets
      cases hmeets with
      | finished hfiles hdirectories =>
          exact ⟨[], [], rfl, rfl, rfl, (List.append_nil _).symm, Or.inl ⟨rfl, rfl⟩⟩
      | listed hfaces hskipped hless =>
          rcases ih hfaces (by omega) with ⟨passed, left, hgives⟩
          refine ⟨passed, left, hgives.sights, hgives.nothing, hgives.warnings, ?_, ?_⟩
          · rw [hgives.skipped, hskipped]
          · rcases hgives.card with hnone | ⟨path, card, after, hleft, hload, hcard, hon, hextent⟩
            · exact Or.inl hnone
            · exact Or.inr ⟨path, card, after, hleft, hload, hcard, hon, hextent.trans hless⟩
      | @barred path reason later next hfaces hskipped hless =>
          rcases ih hfaces (by omega) with ⟨passed, left, hgives⟩
          have hskip : next.skipped = c.skipped ++
              ((Sighting.barred path reason).skipped? disk).toList := by
            rw [hskipped]
            exact (List.append_nil _).symm
          exact ⟨_, left, hgives.cons (.barred path reason) rfl hskip hless⟩
      | @skipped path fault later next hload hfaces hskipped hless =>
          rcases ih hfaces (by omega) with ⟨passed, left, hgives⟩
          obtain ⟨hnothing, hpassed, hwarning⟩ := Sighting.met_of_error hload
          have hskip : next.skipped = c.skipped ++
              ((Sighting.met path).skipped? disk).toList := by
            rw [hskipped, hpassed]
            rfl
          have hgiven := hgives.cons (.met path) hnothing hskip hless
          rw [hwarning] at hgiven
          exact ⟨_, left, hgiven⟩
      | @loaded path card later next hload hfaces hskipped hless =>
          refine ⟨[], .met path :: later, rfl, rfl, rfl, ?_, ?_⟩
          · rw [hskipped]
            exact (List.append_nil _).symm
          · exact Or.inr ⟨path, card, later, rfl, hload, rfl, hfaces, hless⟩

theorem next_gives {disk : Disk} {c : Collection} {sights : List Sighting}
    (hwell : disk.root.WellFormed) (h : c.Faces disk sights) :
    ∃ passed left, (next disk c).Gives disk c sights passed left :=
  nextWithin_gives hwell h (Nat.lt_succ_self _)

/-! ## Disks with other contents -/

theorem isDirectory_bare (entry : Entry) : isDirectory entry.bare = isDirectory entry := by
  cases entry <;> rfl

theorem candidates_bareAll (path : String) (entries : List (String × Entry)) :
    candidates path (Entry.bareAll entries) = candidates path entries := by
  rw [Entry.bareAll_eq_map, candidates, List.filter_map, List.map_map, candidates]
  simp only [Function.comp_def, isDirectory_bare]

theorem subdirectories_bareAll (path : String) (entries : List (String × Entry)) :
    subdirectories path (Entry.bareAll entries) = subdirectories path entries := by
  rw [Entry.bareAll_eq_map, subdirectories, List.filter_map, List.map_map, subdirectories]
  simp only [Function.comp_def, isDirectory_bare]

/-- At a path either neither directory can be listed, for one reason, or both show the same. -/
theorem list_of_alike {a b : Disk} (h : a.Alike b) (path : String) :
    (∃ reason, a.list path = .error reason ∧ b.list path = .error reason) ∨
      ∃ entries entries', a.list path = .ok entries ∧ b.list path = .ok entries' ∧
        candidates path entries = candidates path entries' ∧
        subdirectories path entries = subdirectories path entries' := by
  have hlist := h.list path
  cases hfrom : a.list path with
  | error reason =>
      cases hto : b.list path with
      | error reason' =>
          rw [hfrom, hto] at hlist
          cases hlist
          exact Or.inl ⟨reason, rfl, rfl⟩
      | ok entries' =>
          rw [hfrom, hto] at hlist
          cases hlist
  | ok entries =>
      cases hto : b.list path with
      | error reason =>
          rw [hfrom, hto] at hlist
          cases hlist
      | ok entries' =>
          rw [hfrom, hto] at hlist
          have hbare : Entry.bareAll entries = Entry.bareAll entries' := Except.ok.inj hlist
          refine Or.inr ⟨entries, entries', rfl, rfl, ?_, ?_⟩
          · rw [← candidates_bareAll, hbare, candidates_bareAll]
          · rw [← subdirectories_bareAll, hbare, subdirectories_bareAll]

theorem step_of_alike {a b : Disk} (h : a.Alike b) (hload : ∀ path, load a path = load b path)
    (c : Collection) : step a c = step b c := by
  obtain ⟨directories, files, skipped⟩ := c
  cases files with
  | cons path files => simp only [step, hload]
  | nil =>
      cases directories with
      | nil => rfl
      | cons path others =>
          rcases list_of_alike h path with
            ⟨reason, hfrom, hto⟩ | ⟨entries, entries', hfrom, hto, hfiles, hdirectories⟩
          · simp only [step, hfrom, hto]
          · simp only [step, hfrom, hto, hfiles, hdirectories]

theorem extent_of_alike {a b : Disk} (h : a.Alike b) (c : Collection) :
    extent a c = extent b c := by
  rw [extent, extent, List.map_congr_left fun path _ => h.extent path]

theorem next_of_alike {a b : Disk} (h : a.Alike b) (hload : ∀ path, load a path = load b path)
    (c : Collection) : next a c = next b c := by
  have hextent := extent_of_alike h c
  have hwithin (limit : Nat) (c : Collection) : nextWithin a limit c = nextWithin b limit c := by
    induction limit generalizing c with
    | zero => rfl
    | succ limit ih =>
        rw [nextWithin, nextWithin, step_of_alike h hload]
        simp only [ih]
  rw [next, next, hextent, hwithin]

end Collection
end Card
end Cardsmith
