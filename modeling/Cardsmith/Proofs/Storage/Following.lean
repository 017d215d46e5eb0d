import Cardsmith.Storage.Disk
import Cardsmith.Proofs.Storage.Path

/-!
# Where paths lead

The way along a path that leads to an entry, as a relation: name by name, through links on the
way.  A path that has a name joined to it leads on from where it led before.  Where a path leads
does not depend on what is in files, and a file found at a path can be written there.
-/

namespace Cardsmith
namespace Storage

open Entry

namespace Disk

/-! ## Ways -/

/-- A name that is looked up, with names after it; a file that is to be created has no directory
asked for at its end. -/
structure Looked (creating : Bool) (name : String) (rest : List String) : Prop where
  nonempty : name ≠ ""
  notHere : name ≠ "."
  notAbove : name ≠ ".."
  closed : creating = true → rest ≠ [""]
  short : name.utf8ByteSize ≤ maxName

/-- Names lead from one location to another, through at most the number of links given. -/
inductive Leads (root : Entry) (creating : Bool) :
    Nat → List String → Location → Location → Prop where
  | arrive {links : Nat} {here : Location} : Leads root creating links [] here here
  | stay {links : Nat} {name : String} {rest : List String} {here goal : Location}
      {entries : List (String × Entry)} :
      root.at? here = some (.directory entries) → name = "" ∨ name = "." →
      Leads root creating links rest here goal →
      Leads root creating links (name :: rest) here goal
  | pass {links : Nat} {rest : List String} {here goal : Location} :
      root.at? here = some (.locked true) → Leads root creating links rest here goal →
      Leads root creating links ("" :: rest) here goal
  | rise {links : Nat} {rest : List String} {here goal : Location}
      {entries : List (String × Entry)} :
      root.at? here = some (.directory entries) →
      Leads root creating links rest here.dropLast goal →
      Leads root creating links (".." :: rest) here goal
  | jump {links : Nat} {name target : String} {rest : List String} {here goal : Location}
      {entries : List (String × Entry)} :
      root.at? here = some (.directory entries) → Looked creating name rest →
      entries.lookup name = some (.link target) →
      Leads root creating links (Path.names target ++ rest)
        (if Path.isAbsolute target then [] else here) goal →
      Leads root creating (links + 1) (name :: rest) here goal
  | enter {links : Nat} {name : String} {rest : List String} {here goal : Location}
      {entries : List (String × Entry)} {entry : Entry} :
      root.at? here = some (.directory entries) → Looked creating name rest →
      entries.lookup name = some entry → (∀ target, entry ≠ .link target) →
      Leads root creating links rest (here ++ [name]) goal →
      Leads root creating links (name :: rest) here goal

def jumping (root : Entry) (creating : Bool) :
    Nat → List String → Location → Except Fault Place
  | 0 => fun _ _ => .error .linkLoop
  | links + 1 => follow root creating links

theorem follow_eq (root : Entry) (creating : Bool) (links : Nat) :
    follow root creating links = followNames root creating (jumping root creating links) := by
  cases links <;> rfl

/-- What becomes of the first name on a way that ends at a place: where it stands among the
entries of the directory, and how the way goes on. -/
inductive Onward (root : Entry) (creating : Bool)
    (follow : List String → Location → Except Fault Place) (rest : List String) (here : Location)
    (entries : List (String × Entry)) (place : Place) : String → Prop where
  | stay {name : String} :
      name = "" ∨ name = "." → followNames root creating follow rest here = .ok place →
      Onward root creating follow rest here entries place name
  | rise :
      followNames root creating follow rest here.dropLast = .ok place →
      Onward root creating follow rest here entries place ".."
  | vacant {name : String} :
      Looked creating name rest → entries.lookup name = none → rest = [] →
      place = .free here name → Onward root creating follow rest here entries place name
  | jump {name target : String} :
      Looked creating name rest → entries.lookup name = some (.link target) →
      follow (Path.names target ++ rest) (if Path.isAbsolute target then [] else here) =
        .ok place →
      Onward root creating follow rest here entries place name
  | enter {name : String} {entry : Entry} :
      Looked creating name rest → entries.lookup name = some entry →
      (∀ target, entry ≠ .link target) →
      followNames root creating follow rest (here ++ [name]) = .ok place →
      Onward root creating follow rest here entries place name

theorem exists_onward {root : Entry} {creating : Bool}
    {follow : List String → Location → Except Fault Place} {name : String} {rest : List String}
    {here : Location} {place : Place}
    (h : followNames root creating follow (name :: rest) here = .ok place) :
    (name = "" ∧ root.at? here = some (.locked true) ∧
      followNames root creating follow rest here = .ok place) ∨
    ∃ entries, root.at? here = some (.directory entries) ∧
      Onward root creating follow rest here entries place name := by
  rw [followNames] at h
  split at h
  case h_3 => cases h
  case h_2 hat =>
    split_ifs at h with hempty
    exact Or.inl ⟨hempty, hat, h⟩
  case h_1 entries hat =>
    refine Or.inr ⟨entries, hat, ?_⟩
    by_cases hstay : (name = "" || name = ".") = true
    · rw [if_pos hstay] at h
      rw [Bool.or_eq_true, decide_eq_true_iff, decide_eq_true_iff] at hstay
      exact .stay hstay h
    rw [if_neg hstay] at h
    by_cases habove : name = ".."
    · rw [if_pos habove] at h
      subst habove
      exact .rise h
    rw [if_neg habove] at h
    by_cases hopen : (creating && rest = [""]) = true
    · rw [if_pos hopen] at h
      cases h
    rw [if_neg hopen] at h
    by_cases hlong : maxName < name.utf8ByteSize
    · rw [if_pos hlong] at h
      cases h
    rw [if_neg hlong] at h
    rw [Bool.or_eq_true, decide_eq_true_iff, decide_eq_true_iff, not_or] at hstay
    rw [Bool.and_eq_true, decide_eq_true_iff, not_and] at hopen
    have hlooked : Looked creating name rest :=
      ⟨hstay.left, hstay.right, habove, hopen, Nat.le_of_not_lt hlong⟩
    split at h
    case h_1 hnone =>
      by_cases hlast : rest = []
      · rw [if_pos hlast] at h
        cases h
        exact .vacant hlooked hnone hlast rfl
      · rw [if_neg hlast] at h
        cases h
    case h_2 target hfound => exact .jump hlooked hfound h
    case h_3 entry hnotLink hfound =>
      apply Onward.enter hlooked hfound _ h
      rintro target rfl
      exact hnotLink target rfl

theorem leads_of_followNames {root : Entry} {creating : Bool} {links : Nat} {names : List String}
    {here goal : Location}
    (hjump : ∀ names here, jumping root creating links names here = .ok (.taken goal) →
      ∃ fewer, links = fewer + 1 ∧ Leads root creating fewer names here goal)
    (h : followNames root creating (jumping root creating links) names here =
      .ok (.taken goal)) :
    Leads root creating links names here goal := by
  induction names generalizing here with
  | nil =>
      cases h
      exact .arrive
  | cons name rest ih =>
      rcases exists_onward h with ⟨rfl, hat, hrest⟩ | ⟨entries, hat, honward⟩
      · exact .pass hat (ih hrest)
      cases honward with
      | stay hstay hrest => exact .stay hat hstay (ih hrest)
      | rise hrest => exact .rise hat (ih hrest)
      | vacant _ _ _ hplace => cases hplace
      | jump hlooked hfound hrest =>
          rcases hjump _ _ hrest with ⟨fewer, rfl, hleads⟩
          exact .jump hat hlooked hfound hleads
      | enter hlooked hfound hnotLink hrest =>
          exact .enter hat hlooked hfound hnotLink (ih hrest)

/-- Following names finds an entry exactly if they lead to it. -/
theorem follow_eq_taken_iff {root : Entry} {creating : Bool} {links : Nat} {names : List String}
    {here goal : Location} :
    follow root creating links names here = .ok (.taken goal) ↔
      Leads root creating links names here goal := by
  constructor
  · intro h
    rw [follow_eq] at h
    induction links generalizing names here with
    | zero =>
        apply leads_of_followNames _ h
        intro _ _ hjump
        cases hjump
    | succ links ih =>
        apply leads_of_followNames _ h
        intro names here hjump
        rw [jumping, follow_eq] at hjump
        exact ⟨links, rfl, ih hjump⟩
  · intro h
    induction h with
    | arrive =>
        rw [follow_eq]
        rfl
    | stay hat hstay _ ih =>
        rw [follow_eq] at ih ⊢
        rw [followNames, hat]
        simp only
        rw [if_pos (by simpa using hstay)]
        exact ih
    | pass hat _ ih =>
        rw [follow_eq] at ih ⊢
        rw [followNames, hat]
        exact ih
    | rise hat _ ih =>
        rw [follow_eq] at ih ⊢
        rw [followNames, hat]
        exact ih
    | jump hat hlooked hfound _ ih =>
        rw [follow_eq, followNames, hat]
        simp only [hfound]
        rw [if_neg (by simp [hlooked.nonempty, hlooked.notHere]), if_neg hlooked.notAbove,
          if_neg (by simpa using hlooked.closed), if_neg (Nat.not_lt.mpr hlooked.short)]
        exact ih
    | @enter links name rest here goal entries entry hat hlooked hfound hnotLink _ ih =>
        rw [follow_eq] at ih ⊢
        rw [followNames, hat]
        simp only [hfound]
        rw [if_neg (by simp [hlooked.nonempty, hlooked.notHere]), if_neg hlooked.notAbove,
          if_neg (by simpa using hlooked.closed), if_neg (Nat.not_lt.mpr hlooked.short)]
        cases entry with
        | link target => exact absurd rfl (hnotLink target)
        | file | directory | locked => exact ih

theorem Leads.unique {root : Entry} {creating : Bool} {links : Nat} {names : List String}
    {here a b : Location} (ha : Leads root creating links names here a)
    (hb : Leads root creating links names here b) : a = b := by
  have hsame := (follow_eq_taken_iff.mpr ha).symm.trans (follow_eq_taken_iff.mpr hb)
  cases hsame
  rfl

theorem Leads.split {root : Entry} {links : Nat} {names more : List String}
    {here goal : Location} (h : Leads root false links (names ++ more) here goal) :
    ∃ between fewer, Leads root false links names here between ∧
      Leads root false fewer more between goal := by
  generalize hall : names ++ more = all at h
  have hlooked {name : String} {rest rest' : List String} (h : Looked false name rest) :
      Looked false name rest' :=
    { h with closed := by simp }
  induction h generalizing names with
  | arrive =>
      rcases List.append_eq_nil_iff.mp hall with ⟨rfl, rfl⟩
      exact ⟨_, 0, .arrive, .arrive⟩
  | @stay links name rest here goal entries hat hstay hleads ih =>
      cases names with
      | nil =>
          rw [List.nil_append] at hall
          subst hall
          exact ⟨here, links, .arrive, .stay hat hstay hleads⟩
      | cons first others =>
          cases hall
          rcases ih rfl with ⟨between, fewer, hfirst, hmore⟩
          exact ⟨between, fewer, .stay hat hstay hfirst, hmore⟩
  | @pass links rest here goal hat hleads ih =>
      cases names with
      | nil =>
          rw [List.nil_append] at hall
          subst hall
          exact ⟨here, links, .arrive, .pass hat hleads⟩
      | cons first others =>
          cases hall
          rcases ih rfl with ⟨between, fewer, hfirst, hmore⟩
          exact ⟨between, fewer, .pass hat hfirst, hmore⟩
  | @rise links rest here goal entries hat hleads ih =>
      cases names with
      | nil =>
          rw [List.nil_append] at hall
          subst hall
          exact ⟨here, links, .arrive, .rise hat hleads⟩
      | cons first others =>
          cases hall
          rcases ih rfl with ⟨between, fewer, hfirst, hmore⟩
          exact ⟨between, fewer, .rise hat hfirst, hmore⟩
  | @jump links name target rest here goal entries hat hlook hfound hleads ih =>
      cases names with
      | nil =>
          rw [List.nil_append] at hall
          subst hall
          exact ⟨here, links + 1, .arrive, .jump hat hlook hfound hleads⟩
      | cons first others =>
          cases hall
          rcases ih (List.append_assoc _ _ _) with ⟨between, fewer, hfirst, hmore⟩
          exact ⟨between, fewer, .jump hat (hlooked hlook) hfound hfirst, hmore⟩
  | @enter links name rest here goal entries entry hat hlook hfound hnotLink hleads ih =>
      cases names with
      | nil =>
          rw [List.nil_append] at hall
          subst hall
          exact ⟨here, links, .arrive, .enter hat hlook hfound hnotLink hleads⟩
      | cons first others =>
          cases hall
          rcases ih rfl with ⟨between, fewer, hfirst, hmore⟩
          exact ⟨between, fewer, .enter hat (hlooked hlook) hfound hnotLink hfirst, hmore⟩

theorem Leads.open_end {root : Entry} {creating : Bool} {links : Nat} {here goal : Location}
    (h : Leads root creating links [""] here goal) :
    goal = here ∧ ∀ contents, root.at? here ≠ some (.file contents) := by
  generalize hnames : [""] = names at h
  cases h with
  | arrive => cases hnames
  | stay hat _ hleads =>
      cases hnames
      cases hleads
      exact ⟨rfl, by simp [hat]⟩
  | pass hat hleads =>
      cases hnames
      cases hleads
      exact ⟨rfl, by simp [hat]⟩
  | rise _ _ => simp at hnames
  | jump _ hlooked _ _ =>
      cases hnames
      exact absurd rfl hlooked.nonempty
  | enter _ hlooked _ _ _ =>
      cases hnames
      exact absurd rfl hlooked.nonempty

theorem Leads.creating {root : Entry} {links : Nat} {names : List String}
    {here goal : Location} {contents : Bytes} (h : Leads root false links names here goal)
    (hfile : root.at? goal = some (.file contents)) : Leads root true links names here goal := by
  have hclosed {links : Nat} {names rest : List String} {start : Location}
      (hleads : Leads root false links (names ++ rest) start goal) : rest ≠ [""] := by
    rintro rfl
    rcases hleads.split with ⟨between, fewer, _, hend⟩
    obtain ⟨rfl, hnoFile⟩ := hend.open_end
    exact hnoFile contents hfile
  induction h with
  | arrive => exact .arrive
  | stay hat hstay _ ih => exact .stay hat hstay (ih hfile hclosed)
  | pass hat _ ih => exact .pass hat (ih hfile hclosed)
  | rise hat _ ih => exact .rise hat (ih hfile hclosed)
  | jump hat hlooked hfound hleads ih =>
      exact .jump hat { hlooked with closed := fun _ => hclosed hleads } hfound
        (ih hfile hclosed)
  | enter hat hlooked hfound hnotLink hleads ih =>
      have hrest := @hclosed _ [] _ _ hleads
      exact .enter hat { hlooked with closed := fun _ => hrest } hfound hnotLink
        (ih hfile hclosed)

/-! ## Paths -/

def origin (disk : Disk) (path : String) : Location :=
  if Path.isAbsolute path then [] else disk.here

structure Allowed (path : String) : Prop where
  noNul : '\x00' ∉ path.toList
  nonempty : path ≠ ""
  short : path.utf8ByteSize ≤ maxPath

theorem find_eq_ok_iff {disk : Disk} {creating : Bool} {path : String} {place : Place} :
    disk.find creating path = .ok place ↔
      Allowed path ∧
        follow disk.root creating maxLinks (Path.names path) (disk.origin path) = .ok place := by
  rw [find, origin]
  by_cases hnul : '\x00' ∈ path.toList
  · have hnot : ¬ Allowed path := fun h => h.noNul hnul
    simp [hnul, hnot]
  by_cases hempty : path = ""
  · have hnot : ¬ Allowed "" := fun h => h.nonempty rfl
    simp [hempty, hnot]
  by_cases hlong : maxPath < path.utf8ByteSize
  · have hnot : ¬ Allowed path := fun h => absurd h.short (Nat.not_le.mpr hlong)
    simp [hnul, hempty, hlong, hnot]
  · have hallowed : Allowed path := ⟨hnul, hempty, Nat.le_of_not_lt hlong⟩
    simp [hnul, hempty, hlong, hallowed]

theorem find_eq_taken_iff {disk : Disk} {creating : Bool} {path : String} {goal : Location} :
    disk.find creating path = .ok (.taken goal) ↔
      Allowed path ∧
        Leads disk.root creating maxLinks (Path.names path) (disk.origin path) goal := by
  rw [find_eq_ok_iff, follow_eq_taken_iff]

theorem entry_eq_ok_iff {disk : Disk} {path : String} {entry : Entry} :
    disk.entry path = .ok entry ↔
      ∃ location, disk.find false path = .ok (.taken location) ∧
        disk.root.at? location = some entry := by
  unfold Disk.entry
  cases disk.find false path with
  | error fault => simp
  | ok place =>
      cases place with
      | free directory name => simp
      | taken location => cases hat : disk.root.at? location <;> simp [hat]

theorem read_eq_ok_iff {disk : Disk} {path : String} {contents : Bytes} :
    disk.read path = .ok contents ↔ disk.entry path = .ok (.file contents) := by
  unfold read
  cases disk.entry path with
  | error fault => simp
  | ok entry => cases entry <;> simp

theorem write_of_file {disk : Disk} {path : String} {location : Location} {old : Bytes}
    (hfind : disk.find false path = .ok (.taken location))
    (hfile : disk.root.at? location = some (.file old)) (new : Bytes) :
    disk.write path new = .ok (disk.put location (.file new)) := by
  obtain ⟨hallowed, hleads⟩ := find_eq_taken_iff.mp hfind
  have hcreating : disk.find true path = .ok (.taken location) :=
    find_eq_taken_iff.mpr ⟨hallowed, hleads.creating hfile⟩
  simp only [write, hcreating, hfile]

theorem Leads.name_below {root : Entry} {links : Nat} {names : List String} {name : String}
    {here location goal : Location} {entries : List (String × Entry)} {found : Entry}
    (hname : IsName name) (hat : root.at? location = some (.directory entries))
    (hlookup : entries.lookup name = some found) (hnotLink : ∀ target, found ≠ .link target)
    (hfirst : Leads root false links names here location)
    (hgoal : Leads root false links (names ++ [name]) here goal) :
    goal = location ++ [name] := by
  rcases hgoal.split with ⟨between, fewer, hbetween, hlast⟩
  obtain rfl := hbetween.unique hfirst
  generalize hnames : [name] = last at hlast
  cases hlast with
  | arrive => cases hnames
  | stay _ hstay _ =>
      cases hnames
      rcases hstay with hempty | hhere
      · exact absurd hempty hname.nonempty
      · exact absurd hhere hname.notHere
  | pass _ _ => exact absurd (List.cons.inj hnames).left hname.nonempty
  | rise _ _ => exact absurd (List.cons.inj hnames).left hname.notAbove
  | jump hdirectory _ hlink _ =>
      cases hnames
      rw [hat] at hdirectory
      cases hdirectory
      rw [hlookup] at hlink
      exact absurd (Option.some.inj hlink) (hnotLink _)
  | enter _ _ _ _ hend =>
      cases hnames
      cases hend
      rfl

/-- What is in a directory and no link is found by its name joined to the path, if anything is. -/
theorem entry_join {disk : Disk} {path name : String} {entries : List (String × Entry)}
    {found entry : Entry} (hwell : disk.root.WellFormed)
    (hpath : disk.entry path = .ok (.directory entries)) (hmem : (name, found) ∈ entries)
    (hnotLink : ∀ target, found ≠ .link target)
    (hentry : disk.entry (Path.join path name) = .ok entry) : entry = found := by
  rcases entry_eq_ok_iff.mp hpath with ⟨location, hfind, hat⟩
  rcases entry_eq_ok_iff.mp hentry with ⟨goal, hfindJoined, hatGoal⟩
  obtain ⟨hallowed, hleads⟩ := find_eq_taken_iff.mp hfind
  obtain ⟨_, hleadsJoined⟩ := find_eq_taken_iff.mp hfindJoined
  have hdirectory := hwell.at? hat
  have hname := (allWellFormed_iff.mp hdirectory.right name _ hmem).left
  have hlookup := lookup_of_mem hdirectory.left hmem
  have horigin : disk.origin (Path.join path name) = disk.origin path := by
    rw [origin, origin, Path.isAbsolute_join hallowed.nonempty hname]
  rcases Path.names_join hallowed.nonempty hname with ⟨steps, hsteps, hjoined⟩
  have hfirst : Leads disk.root false maxLinks steps (disk.origin path) location := by
    rcases hsteps with hclosed | hopen
    · rw [← hclosed]
      exact hleads
    · rw [hopen] at hleads
      rcases hleads.split with ⟨between, fewer, hbetween, hend⟩
      rw [hend.open_end.left]
      exact hbetween
  rw [hjoined, horigin] at hleadsJoined
  have hgoal := hfirst.name_below hname hat hlookup hnotLink hleadsJoined
  rw [hgoal, at?_append, hat] at hatGoal
  rw [Option.bind_some, at?_cons, child?, hlookup] at hatGoal
  cases hatGoal
  rfl

/-! ## What is in files -/

theorem followNames_bare (root : Entry) (creating : Bool)
    (jump : List String → Location → Except Fault Place) (names : List String)
    (here : Location) :
    followNames root.bare creating jump names here = followNames root creating jump names here := by
  induction names generalizing here with
  | nil => rfl
  | cons name rest ih =>
      rw [followNames, followNames, at?_bare]
      cases root.at? here with
      | none => rfl
      | some entry =>
          cases entry with
          | file | link => rfl
          | locked isDirectory =>
              cases isDirectory with
              | false => rfl
              | true => simp only [Option.map_some, bare, ih]
          | directory entries =>
              simp only [Option.map_some, bare, lookup_bareAll, ih]
              cases entries.lookup name with
              | none => rfl
              | some found => cases found <;> rfl

theorem follow_bare (root : Entry) (creating : Bool) (links : Nat) :
    follow root.bare creating links = follow root creating links := by
  induction links with
  | zero =>
      funext names here
      exact followNames_bare root creating _ names here
  | succ links ih =>
      funext names here
      rw [follow, follow, ih]
      exact followNames_bare root creating _ names here

structure Alike (a b : Disk) : Prop where
  root : a.root.bare = b.root.bare
  here : a.here = b.here

theorem Alike.find {a b : Disk} (h : Alike a b) (creating : Bool) (path : String) :
    a.find creating path = b.find creating path := by
  rw [Disk.find, Disk.find, ← follow_bare a.root, h.root, follow_bare b.root, h.here]

theorem Alike.at? {a b : Disk} (h : Alike a b) (location : Location) :
    (a.root.at? location).map bare = (b.root.at? location).map bare := by
  rw [← at?_bare, ← at?_bare, h.root]

/-- At a path either both have nothing, for one reason, or both have an entry. -/
theorem Alike.entry {a b : Disk} (h : Alike a b) (path : String) :
    (∃ reason, a.entry path = .error reason ∧ b.entry path = .error reason) ∨
      ∃ entry entry', a.entry path = .ok entry ∧ b.entry path = .ok entry' ∧
        entry.bare = entry'.bare := by
  unfold Disk.entry
  rw [h.find]
  cases b.find false path with
  | error fault => exact Or.inl ⟨fault, rfl, rfl⟩
  | ok place =>
      cases place with
      | free directory name => exact Or.inl ⟨.absent, rfl, rfl⟩
      | taken location =>
          have hat := h.at? location
          simp only
          cases hfrom : a.root.at? location with
          | none =>
              rw [hfrom, Option.map_none, eq_comm, Option.map_eq_none_iff] at hat
              rw [hat]
              exact Or.inl ⟨.absent, rfl, rfl⟩
          | some entry =>
              rw [hfrom, Option.map_some, eq_comm] at hat
              rcases Option.map_eq_some_iff.mp hat with ⟨entry', hto, hbare⟩
              rw [hto]
              exact Or.inr ⟨entry, entry', rfl, rfl, hbare.symm⟩

theorem Alike.symm {a b : Disk} (h : Alike a b) : Alike b a := ⟨h.root.symm, h.here.symm⟩

theorem bareAll_mergeSort (entries : List (String × Entry)) :
    bareAll (entries.mergeSort fun a b => decide (a.1 ≤ b.1)) =
      (bareAll entries).mergeSort fun a b => decide (a.1 ≤ b.1) := by
  rw [bareAll_eq_map, bareAll_eq_map]
  exact List.map_mergeSort fun _ _ _ _ => rfl

theorem Alike.list {a b : Disk} (h : Alike a b) (path : String) :
    (a.list path).map bareAll = (b.list path).map bareAll := by
  unfold Disk.list
  rcases h.entry path with ⟨reason, hfrom, hto⟩ | ⟨entry, entry', hfrom, hto, hbare⟩
  · rw [hfrom, hto]
  · rw [hfrom, hto]
    cases entry with
    | directory entries =>
        cases entry' with
        | directory entries' =>
            have hall : bareAll entries = bareAll entries' := Entry.directory.inj hbare
            show Except.ok (bareAll _) = Except.ok (bareAll _)
            rw [bareAll_mergeSort, bareAll_mergeSort, hall]
        | file | link | locked => cases hbare
    | file | link | locked =>
        cases entry' <;> cases hbare
        rfl

theorem Alike.extent {a b : Disk} (h : Alike a b) (path : String) :
    a.extent path = b.extent path := by
  unfold Disk.extent
  rcases h.entry path with ⟨reason, hfrom, hto⟩ | ⟨entry, entry', hfrom, hto, hbare⟩
  · rw [hfrom, hto]
  · rw [hfrom, hto]
    show 1 + entry.count = 1 + entry'.count
    rw [← count_bare, hbare, count_bare]

end Disk
end Storage
end Cardsmith
