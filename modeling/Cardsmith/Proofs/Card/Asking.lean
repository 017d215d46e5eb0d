import Mathlib.Data.List.Nodup
import Mathlib.Data.List.Perm.Basic
import Cardsmith.Proofs.Card.RoundTrip
import Cardsmith.Proofs.Card.Tour

/-!
# Asking for cards while files come and go

A collection keeps paths of directories and files that may have changed by the time it gets to
them.  However the files change between two calls, every call comes to its end, no directory is
listed twice, and no file is tried twice: a path comes from the one listing of the directory that
it is in.
-/

namespace Cardsmith
namespace Card

open Storage Entry

theorem load_eq_ok_iff {disk : Disk} {path : String} {card : Card} :
    load disk path = .ok card ↔
      ∃ text, disk.readText path = .ok text ∧ Json.Value.ofText text = .ok (.object card) := by
  unfold load
  cases hread : disk.readText path with
  | error reason => simp
  | ok text => simp [ofText_eq_ok]

namespace Collection

/-! ## One call -/

/-- A call on a disk: the directories that it lists, or fails to list, and its answer. -/
inductive Asks (disk : Disk) : Collection → List String → Answer → Prop where
  | finished {skipped : List String} :
      Asks disk ⟨[], [], skipped⟩ [] ⟨[], none, ⟨[], [], skipped⟩⟩
  | barred {path : String} {reason : Storage.Fault} {others skipped listed : List String}
      {answer : Answer} :
      disk.list path = .error reason → Asks disk ⟨others, [], skipped⟩ listed answer →
      Asks disk ⟨path :: others, [], skipped⟩ (path :: listed)
        { answer with warnings := .unlisted path reason :: answer.warnings }
  | listed {path : String} {entries : List (String × Entry)} {others skipped listed : List String}
      {answer : Answer} :
      disk.list path = .ok entries →
      Asks disk ⟨subdirectories path entries ++ others, candidates path entries, skipped⟩ listed
        answer →
      Asks disk ⟨path :: others, [], skipped⟩ (path :: listed) answer
  | skipped {path : String} {fault : Fault} {directories files skipped listed : List String}
      {answer : Answer} :
      load disk path = .error fault →
      Asks disk ⟨directories, files, skipped ++ [path]⟩ listed answer →
      Asks disk ⟨directories, path :: files, skipped⟩ listed
        { answer with warnings := .unloaded path fault :: answer.warnings }
  | loaded {path : String} {card : Card} {directories files skipped : List String} :
      load disk path = .ok card →
      Asks disk ⟨directories, path :: files, skipped⟩ []
        ⟨[], some (path, card), ⟨directories, files, skipped⟩⟩

theorem Asks.unique {disk : Disk} {c : Collection} {listed listed' : List String}
    {answer answer' : Answer} (h : Asks disk c listed answer) (h' : Asks disk c listed' answer') :
    listed = listed' ∧ answer = answer' := by
  induction h generalizing listed' answer' with
  | finished =>
      cases h'
      exact ⟨rfl, rfl⟩
  | barred hlist _ ih =>
      cases h' with
      | barred hlist' hrest =>
          rw [hlist] at hlist'
          cases hlist'
          obtain ⟨rfl, rfl⟩ := ih hrest
          exact ⟨rfl, rfl⟩
      | listed hlist' _ =>
          rw [hlist] at hlist'
          cases hlist'
  | listed hlist _ ih =>
      cases h' with
      | barred hlist' _ =>
          rw [hlist] at hlist'
          cases hlist'
      | listed hlist' hrest =>
          rw [hlist] at hlist'
          cases hlist'
          obtain ⟨rfl, rfl⟩ := ih hrest
          exact ⟨rfl, rfl⟩
  | skipped hload _ ih =>
      cases h' with
      | skipped hload' hrest =>
          rw [hload] at hload'
          cases hload'
          obtain ⟨rfl, rfl⟩ := ih hrest
          exact ⟨rfl, rfl⟩
      | loaded hload' =>
          rw [hload] at hload'
          cases hload'
  | loaded hload =>
      cases h' with
      | skipped hload' _ =>
          rw [hload] at hload'
          cases hload'
      | loaded hload' =>
          rw [hload] at hload'
          cases hload'
          exact ⟨rfl, rfl⟩

theorem extent_step_lt {disk : Disk} {c next : Collection} (hwell : disk.root.WellFormed)
    (h : (∃ warning?, step disk c = .listed warning? next) ∨
      ∃ warning, step disk c = .skipped warning next) : extent disk next < extent disk c := by
  rcases exists_tour hwell c.directories with ⟨later, htour⟩
  have hfaces : c.Faces disk (c.files.map .met ++ later) := ⟨later, htour, rfl⟩
  have hmeets := step_meets hwell hfaces
  generalize c.files.map Sighting.met ++ later = sights at hmeets
  rcases h with ⟨warning?, hstep⟩ | ⟨warning, hstep⟩
  · rw [hstep] at hmeets
    cases hmeets with
    | listed _ _ hless => exact hless
    | barred _ _ hless => exact hless
  · rw [hstep] at hmeets
    cases hmeets with
    | skipped _ _ _ hless => exact hless

theorem nextWithin_asks {disk : Disk} {limit : Nat} {c : Collection}
    (hwell : disk.root.WellFormed) (hlimit : extent disk c < limit) :
    ∃ listed, Asks disk c listed (nextWithin disk limit c) := by
  induction limit generalizing c with
  | zero => exact absurd hlimit (Nat.not_lt_zero _)
  | succ limit ih =>
      have hless {next : Collection} (h : (∃ warning?, step disk c = .listed warning? next) ∨
          ∃ warning, step disk c = .skipped warning next) : extent disk next < limit :=
        Nat.lt_of_lt_of_le (extent_step_lt hwell h) (Nat.le_of_lt_succ hlimit)
      rw [nextWithin]
      obtain ⟨directories, files, skipped⟩ := c
      cases files with
      | cons path files =>
          cases hload : load disk path with
          | ok card =>
              simp only [step, hload]
              exact ⟨[], .loaded hload⟩
          | error fault =>
              simp only [step, hload] at hless ⊢
              rcases ih (hless (Or.inr ⟨_, rfl⟩)) with ⟨listed, hasks⟩
              exact ⟨listed, .skipped hload hasks⟩
      | nil =>
          cases directories with
          | nil => exact ⟨[], .finished⟩
          | cons path others =>
              cases hlist : disk.list path with
              | error reason =>
                  simp only [step, hlist] at hless ⊢
                  rcases ih (hless (Or.inl ⟨_, rfl⟩)) with ⟨listed, hasks⟩
                  exact ⟨path :: listed, .barred hlist hasks⟩
              | ok entries =>
                  simp only [step, hlist] at hless ⊢
                  rcases ih (hless (Or.inl ⟨_, rfl⟩)) with ⟨listed, hasks⟩
                  exact ⟨path :: listed, .listed hlist hasks⟩

theorem next_asks {disk : Disk} (hwell : disk.root.WellFormed) (c : Collection) :
    ∃ listed, Asks disk c listed (next disk c) :=
  nextWithin_asks hwell (Nat.lt_succ_self _)

theorem Asks.skipped_prefix {disk : Disk} {c : Collection} {listed : List String}
    {answer : Answer} (h : Asks disk c listed answer) : c.skipped <+: answer.rest.skipped := by
  induction h with
  | finished => exact List.prefix_refl _
  | barred _ _ ih => exact ih
  | listed _ _ ih => exact ih
  | skipped _ _ ih => exact (List.prefix_append _ _).trans ih
  | loaded _ => exact List.prefix_refl _

theorem Asks.load_eq {disk : Disk} {c : Collection} {listed : List String} {answer : Answer}
    (h : Asks disk c listed answer) {path : String} {card : Card}
    (hcard : answer.card = some (path, card)) : load disk path = .ok card := by
  induction h with
  | finished => cases hcard
  | barred _ _ ih => exact ih hcard
  | listed _ _ ih => exact ih hcard
  | skipped _ _ ih => exact ih hcard
  | loaded hload =>
      cases hcard
      exact hload

theorem Asks.exhausted {disk : Disk} {c : Collection} {listed : List String} {answer : Answer}
    (h : Asks disk c listed answer) (hcard : answer.card = none) :
    answer.rest = ⟨[], [], answer.rest.skipped⟩ := by
  induction h with
  | finished => rfl
  | barred _ _ ih => exact ih hcard
  | listed _ _ ih => exact ih hcard
  | skipped _ _ ih => exact ih hcard
  | loaded _ => cases hcard

/-! ## Calls in a row -/

/-- Calls one after the other, each on the disk as it is by then: the directories that they list,
their answers, and the collection after them. -/
inductive Course :
    Collection → List Disk → List String → List Answer → Collection → Prop where
  | done (c : Collection) : Course c [] [] [] c
  | ask {c last : Collection} {disk : Disk} {later : List Disk} {listed more : List String}
      {answer : Answer} {answers : List Answer} :
      Asks disk c listed answer → Course answer.rest later more answers last →
      Course c (disk :: later) (listed ++ more) (answer :: answers) last

def answers : Collection → List Disk → List Answer
  | _, [] => []
  | c, disk :: later => next disk c :: answers (next disk c).rest later

theorem exists_course {disks : List Disk} (hwell : ∀ disk ∈ disks, disk.root.WellFormed)
    (c : Collection) : ∃ listed last, Course c disks listed (c.answers disks) last := by
  induction disks generalizing c with
  | nil => exact ⟨[], c, .done c⟩
  | cons disk later ih =>
      rcases next_asks (hwell disk List.mem_cons_self) c with ⟨listed, hasks⟩
      rcases ih (fun d hd => hwell d (List.mem_cons_of_mem _ hd)) (next disk c).rest with
        ⟨more, last, hcourse⟩
      exact ⟨listed ++ more, last, .ask hasks hcourse⟩

theorem Course.answers_eq {c last : Collection} {disks : List Disk} {listed : List String}
    {found : List Answer} (h : Course c disks listed found last)
    (hwell : ∀ disk ∈ disks, disk.root.WellFormed) : found = c.answers disks := by
  induction h with
  | done => rfl
  | @ask c last disk later listed more answer found hasks _ ih =>
      rcases next_asks (hwell disk List.mem_cons_self) c with ⟨listed', hnext⟩
      obtain ⟨-, rfl⟩ := hasks.unique hnext
      rw [answers, ← ih fun d hd => hwell d (List.mem_cons_of_mem _ hd)]

theorem Course.skipped_prefix {c last : Collection} {disks : List Disk} {listed : List String}
    {answers : List Answer} (h : Course c disks listed answers last) :
    (c.skipped :: answers.map fun answer => answer.rest.skipped).Pairwise (· <+: ·) ∧
      ∀ skipped ∈ c.skipped :: answers.map fun answer => answer.rest.skipped,
        skipped <+: last.skipped := by
  induction h with
  | done c =>
      constructor
      · exact List.pairwise_singleton _ _
      · intro skipped hskipped
        rw [List.map_nil, List.mem_singleton] at hskipped
        exact hskipped ▸ List.prefix_refl _
  | @ask c last disk later listed more answer answers hasks _ ih =>
      obtain ⟨hgrows, hlast⟩ := ih
      have hfirst := hasks.skipped_prefix
      constructor
      · rw [List.pairwise_cons]
        constructor
        · intro skipped hskipped
          rcases List.mem_cons.mp hskipped with rfl | hlater
          · exact hfirst
          · exact hfirst.trans ((List.pairwise_cons.mp hgrows).left skipped hlater)
        · exact hgrows
      · intro skipped hskipped
        rcases List.mem_cons.mp hskipped with rfl | hlater
        · exact hfirst.trans (hlast _ List.mem_cons_self)
        · exact hlast skipped hlater

/-- Whoever is given a card is given what its path held on the disk of that call. -/
theorem Course.load_eq {c last : Collection} {disks : List Disk} {listed : List String}
    {answers : List Answer} (h : Course c disks listed answers last) {disk : Disk}
    {answer : Answer} (hmem : (disk, answer) ∈ disks.zip answers) {path : String} {card : Card}
    (hcard : answer.card = some (path, card)) : load disk path = .ok card := by
  induction h with
  | done => cases hmem
  | ask hasks _ ih =>
      rcases List.mem_cons.mp hmem with hfirst | hlater
      · cases hfirst
        exact hasks.load_eq hcard
      · exact ih hlater

/-! ## What a collection has had to do with -/

/-- Locations below the root of a collection. -/
structure Ledger where
  listed : List Location
  waiting : List Location
  loaded : List Location
  skipped : List Location
  queued : List Location

namespace Ledger

def directories (l : Ledger) : List Location := l.listed ++ l.waiting

def files (l : Ledger) : List Location := l.loaded ++ l.skipped ++ l.queued

def Found (l : Ledger) (location : Location) : Prop :=
  location = [] ∨ ∃ parent ∈ l.listed, ∃ name, location = parent ++ [name]

structure Sound (l : Ledger) : Prop where
  named : ∀ location ∈ l.directories ++ l.files, ∀ name ∈ location, IsName name
  found : ∀ location ∈ l.directories ++ l.files, l.Found location
  directories : l.directories.Nodup
  files : l.files.Nodup

def list (l : Ledger) (first : Location) (others : List Location) (names fileNames : List String) :
    Ledger :=
  { l with
    listed := l.listed ++ [first]
    waiting := (names.map fun name => first ++ [name]) ++ others
    queued := fileNames.map fun name => first ++ [name] }

theorem nodup_map_concat (first : Location) {names : List String} (h : names.Nodup) :
    (names.map fun name => first ++ [name]).Nodup := by
  refine h.map ?_
  intro a b hab
  exact List.singleton_inj.mp (List.append_cancel_left hab)

/-- What is in a directory that was not listed yet is new. -/
theorem Sound.not_mem_of_parent {l : Ledger} (h : l.Sound) {parent : Location} {name : String}
    (hparent : parent ∉ l.listed) : parent ++ [name] ∉ l.directories ++ l.files := by
  intro hmem
  rcases h.found _ hmem with hroot | ⟨other, hother, otherName, heq⟩
  · simp at hroot
  · obtain ⟨rfl, _⟩ := List.append_inj' heq rfl
    exact hparent hother

theorem Sound.list {l : Ledger} (h : l.Sound) {first : Location} {others : List Location}
    {names fileNames : List String} (hwaiting : l.waiting = first :: others)
    (hqueued : l.queued = []) (hnodup : names.Nodup) (hfiles : fileNames.Nodup)
    (hnames : ∀ name ∈ names ++ fileNames, IsName name) :
    (l.list first others names fileNames).Sound := by
  have hdirectories : l.directories = l.listed ++ [first] ++ others := by
    rw [Ledger.directories, hwaiting, List.append_assoc, List.singleton_append]
  have hfilesBefore : l.files = l.loaded ++ l.skipped := by
    rw [Ledger.files, hqueued, List.append_nil]
  have hfirst : first ∉ l.listed := by
    intro hmem
    have hdisjoint := List.nodup_append.mp h.directories
    have hhead : first ∈ l.waiting := by
      rw [hwaiting]
      exact List.mem_cons_self
    exact hdisjoint.right.right first hmem first hhead rfl
  have hnew {ns : List String} {location : Location}
      (hmem : location ∈ ns.map fun name => first ++ [name]) :
      location ∉ l.directories ++ l.files := by
    rcases List.mem_map.mp hmem with ⟨name, _, rfl⟩
    exact h.not_mem_of_parent hfirst
  have hdirectoriesAfter : (l.list first others names fileNames).directories.Perm
      (l.directories ++ names.map fun name => first ++ [name]) := by
    rw [hdirectories, List.append_assoc _ others]
    exact List.Perm.append_left _ List.perm_append_comm
  have hfilesAfter : (l.list first others names fileNames).files =
      l.files ++ fileNames.map fun name => first ++ [name] := by
    rw [hfilesBefore]
    rfl
  have hall {location : Location} (hmem : location ∈
      (l.list first others names fileNames).directories ++
        (l.list first others names fileNames).files) :
      location ∈ l.directories ++ l.files ∨
        ∃ name ∈ names ++ fileNames, location = first ++ [name] := by
    rcases List.mem_append.mp hmem with hdirectory | hfile
    · rcases List.mem_append.mp (hdirectoriesAfter.mem_iff.mp hdirectory) with hold | hadded
      · exact Or.inl (List.mem_append_left _ hold)
      · rcases List.mem_map.mp hadded with ⟨name, hname, rfl⟩
        exact Or.inr ⟨name, List.mem_append_left _ hname, rfl⟩
    · rw [hfilesAfter] at hfile
      rcases List.mem_append.mp hfile with hold | hadded
      · exact Or.inl (List.mem_append_right _ hold)
      · rcases List.mem_map.mp hadded with ⟨name, hname, rfl⟩
        exact Or.inr ⟨name, List.mem_append_right _ hname, rfl⟩
  have hmember : first ∈ l.directories := by
    rw [hdirectories]
    exact List.mem_append_left _ (List.mem_append_right _ List.mem_cons_self)
  constructor
  · intro location hmem n hn
    rcases hall hmem with hold | ⟨name, hname, rfl⟩
    · exact h.named location hold n hn
    · rcases List.mem_append.mp hn with hbefore | hlast
      · exact h.named first (List.mem_append_left _ hmember) n hbefore
      · rw [List.mem_singleton.mp hlast]
        exact hnames name hname
  · intro location hmem
    rcases hall hmem with hold | ⟨name, _, rfl⟩
    · rcases h.found location hold with hroot | ⟨parent, hparent, name, hlocation⟩
      · exact Or.inl hroot
      · exact Or.inr ⟨parent, List.mem_append_left _ hparent, name, hlocation⟩
    · exact Or.inr ⟨first, List.mem_append_right _ List.mem_cons_self, name, rfl⟩
  · rw [hdirectoriesAfter.nodup_iff, List.nodup_append]
    refine ⟨h.directories, nodup_map_concat first hnodup, ?_⟩
    rintro a ha b hb rfl
    exact hnew hb (List.mem_append_left _ ha)
  · rw [hfilesAfter, List.nodup_append]
    refine ⟨h.files, nodup_map_concat first hfiles, ?_⟩
    rintro a ha b hb rfl
    exact hnew hb (List.mem_append_right _ ha)

theorem Sound.of_files {l m : Ledger} (h : l.Sound) (hlisted : m.listed = l.listed)
    (hwaiting : m.waiting = l.waiting) (hfiles : m.files.Perm l.files) : m.Sound := by
  have hdirectories : m.directories = l.directories := by
    rw [Ledger.directories, hlisted, hwaiting, Ledger.directories]
  have hmem {location : Location} (hlocation : location ∈ m.directories ++ m.files) :
      location ∈ l.directories ++ l.files := by
    rw [hdirectories] at hlocation
    exact (hfiles.append_left _).mem_iff.mp hlocation
  constructor
  · intro location hlocation
    exact h.named location (hmem hlocation)
  · intro location hlocation
    have hfound := h.found location (hmem hlocation)
    rw [Found, ← hlisted] at hfound
    exact hfound
  · rw [hdirectories]
    exact h.directories
  · exact hfiles.nodup_iff.mpr h.files

/-- A ledger of a collection, of the directories that it has listed, and of the files whose cards
it has given, as paths below a root. -/
structure Keeps (l : Ledger) (root : String) (c : Collection) (listed loaded : List String) :
    Prop where
  sound : l.Sound
  directories : c.directories = l.waiting.map (Path.below root)
  files : c.files = l.queued.map (Path.below root)
  skipped : c.skipped = l.skipped.map (Path.below root)
  listed : listed = l.listed.map (Path.below root)
  loaded : loaded = l.loaded.map (Path.below root)

end Ledger

def Accounted (root : String) (c : Collection) (listed loaded : List String) : Prop :=
  ∃ l : Ledger, l.Keeps root c listed loaded

theorem accounted_root (root : String) : Accounted root ⟨[root], [], []⟩ [] [] := by
  refine ⟨⟨[], [[]], [], [], []⟩, ?_, rfl, rfl, rfl, rfl, rfl⟩
  constructor
  · intro location hmem
    rw [List.mem_singleton.mp hmem]
    exact fun name hname => absurd hname List.not_mem_nil
  · intro location hmem
    exact Or.inl (List.mem_singleton.mp hmem)
  · exact List.nodup_singleton _
  · exact List.nodup_nil

theorem map_below_concat (root : String) (first : Location) (names : List String) :
    (names.map fun name => first ++ [name]).map (Path.below root) =
      names.map fun name => Path.join (Path.below root first) name := by
  rw [List.map_map]
  exact List.map_congr_left fun name _ => Path.below_concat root first name

namespace Accounted

variable {root path : String} {directories files skipped listed loaded : List String}

theorem list {others names fileNames : List String}
    (h : Accounted root ⟨path :: others, [], skipped⟩ listed loaded)
    (hnodup : names.Nodup) (hfiles : fileNames.Nodup)
    (hnames : ∀ name ∈ names ++ fileNames, IsName name) :
    Accounted root
      ⟨(names.map fun name => Path.join path name) ++ others,
        fileNames.map fun name => Path.join path name, skipped⟩
      (listed ++ [path]) loaded := by
  rcases h with ⟨l, hkeeps⟩
  rcases List.map_eq_cons_iff.mp hkeeps.directories.symm with ⟨first, rest, hwaiting, rfl, rfl⟩
  have hqueued : l.queued = [] := List.map_eq_nil_iff.mp hkeeps.files.symm
  refine ⟨l.list first rest names fileNames, ?_⟩
  constructor
  · exact hkeeps.sound.list hwaiting hqueued hnodup hfiles hnames
  · simp only [Ledger.list, List.map_append, map_below_concat]
  · exact (map_below_concat root first fileNames).symm
  · exact hkeeps.skipped
  · rw [hkeeps.listed, Ledger.list, List.map_append, List.map_singleton]
  · exact hkeeps.loaded

theorem skip (h : Accounted root ⟨directories, path :: files, skipped⟩ listed loaded) :
    Accounted root ⟨directories, files, skipped ++ [path]⟩ listed loaded := by
  rcases h with ⟨l, hkeeps⟩
  rcases List.map_eq_cons_iff.mp hkeeps.files.symm with ⟨first, rest, hqueued, rfl, rfl⟩
  refine ⟨{ l with skipped := l.skipped ++ [first], queued := rest }, ?_⟩
  constructor
  · refine hkeeps.sound.of_files rfl rfl ?_
    simp [Ledger.files, hqueued]
  · exact hkeeps.directories
  · rfl
  · rw [List.map_append, ← hkeeps.skipped]
    rfl
  · exact hkeeps.listed
  · exact hkeeps.loaded

theorem load (h : Accounted root ⟨directories, path :: files, skipped⟩ listed loaded) :
    Accounted root ⟨directories, files, skipped⟩ listed (loaded ++ [path]) := by
  rcases h with ⟨l, hkeeps⟩
  rcases List.map_eq_cons_iff.mp hkeeps.files.symm with ⟨first, rest, hqueued, rfl, rfl⟩
  refine ⟨{ l with loaded := l.loaded ++ [first], queued := rest }, ?_⟩
  constructor
  · refine hkeeps.sound.of_files rfl rfl ?_
    simp only [Ledger.files, hqueued, List.append_assoc, List.singleton_append]
    exact List.Perm.append_left _ List.perm_middle.symm
  · exact hkeeps.directories
  · rfl
  · exact hkeeps.skipped
  · exact hkeeps.listed
  · rw [List.map_append, ← hkeeps.loaded]
    rfl

theorem asks {disk : Disk} {c : Collection} {more : List String} {answer : Answer}
    (hwell : disk.root.WellFormed) (hasks : Asks disk c more answer)
    (h : Accounted root c listed loaded) :
    Accounted root answer.rest (listed ++ more)
      (loaded ++ (answer.card.map Prod.fst).toList) := by
  induction hasks generalizing listed with
  | finished => simpa using h
  | barred _ _ ih =>
      have hlisted := h.list List.nodup_nil List.nodup_nil
        fun name hname => absurd hname List.not_mem_nil
      have hrest := ih hlisted
      rw [List.append_assoc] at hrest
      exact hrest
  | @listed path entries others skipped more answer hlist _ ih =>
      obtain ⟨hnodup, hnames⟩ := Disk.list_names hwell hlist
      have hpart (p : String × Entry → Bool) :
          ((entries.filter p).map Prod.fst).Sublist (entries.map Prod.fst) :=
        List.filter_sublist.map Prod.fst
      have hlisted := h.list (hnodup.sublist (hpart fun entry => isDirectory entry.2))
        (hnodup.sublist (hpart fun entry => !isDirectory entry.2 && isCandidate entry.1))
        (by
          intro name hname
          have hmem : name ∈ entries.map Prod.fst := by
            rcases List.mem_append.mp hname with hdirectory | hfile
            · exact (hpart _).mem hdirectory
            · exact (hpart _).mem hfile
          rcases List.mem_map.mp hmem with ⟨⟨_, entry⟩, hentry, rfl⟩
          exact hnames _ entry hentry)
      rw [List.map_map, List.map_map] at hlisted
      have hrest := ih hlisted
      rw [List.append_assoc] at hrest
      exact hrest
  | skipped _ _ ih => exact ih h.skip
  | loaded _ =>
      rw [List.append_nil]
      exact h.load

theorem course {c last : Collection} {disks : List Disk} {more : List String}
    {answers : List Answer} (hwell : ∀ disk ∈ disks, disk.root.WellFormed)
    (hcourse : Course c disks more answers last) (h : Accounted root c listed loaded) :
    Accounted root last (listed ++ more)
      (loaded ++ answers.filterMap fun answer => answer.card.map Prod.fst) := by
  induction hcourse generalizing listed loaded with
  | done =>
      rw [List.append_nil, List.filterMap_nil, List.append_nil]
      exact h
  | @ask c last disk later first more answer answers hasks _ ih =>
      have hafter := h.asks (hwell disk List.mem_cons_self) hasks
      have hrest := ih (fun d hd => hwell d (List.mem_cons_of_mem _ hd)) hafter
      rw [List.append_assoc, List.append_assoc] at hrest
      rw [List.filterMap_cons]
      cases hcard : answer.card.map Prod.fst with
      | none =>
          rw [hcard] at hrest
          exact hrest
      | some path =>
          rw [hcard] at hrest
          exact hrest

theorem nodup {c : Collection} (h : Accounted root c listed loaded) :
    (listed ++ c.directories).Nodup ∧ (loaded ++ c.skipped ++ c.files).Nodup := by
  rcases h with ⟨l, hkeeps⟩
  have hbelow {locations : List Location} (hnodup : locations.Nodup)
      (hsub : ∀ location ∈ locations, location ∈ l.directories ++ l.files) :
      (locations.map (Path.below root)).Nodup := by
    refine hnodup.map_on ?_
    intro a ha b hb hab
    exact Path.below_injective (hkeeps.sound.named a (hsub a ha))
      (hkeeps.sound.named b (hsub b hb)) hab
  constructor
  · rw [hkeeps.listed, hkeeps.directories, ← List.map_append]
    exact hbelow hkeeps.sound.directories fun location hmem => List.mem_append_left _ hmem
  · rw [hkeeps.loaded, hkeeps.skipped, hkeeps.files, ← List.map_append, ← List.map_append]
    exact hbelow hkeeps.sound.files fun location hmem => List.mem_append_right _ hmem

end Accounted

/-! ## No path twice -/

/-- However the files change between the calls, every call comes to its end; no directory is
listed twice; no file is tried twice, whether it held a card or was passed over; the files passed
over only become more, at the end of their list; and a card is what its path held at the time of
the call. -/
theorem calls_repeat_no_path (disk : Disk) (path : String) {disks : List Disk}
    (hwell : ∀ later ∈ disks, later.root.WellFormed) :
    (∃ listed last, Course (start disk path) disks listed ((start disk path).answers disks) last) ∧
      ∀ listed found last, Course (start disk path) disks listed found last →
        found = (start disk path).answers disks ∧
        listed.Nodup ∧
        ((found.filterMap fun answer => answer.card.map Prod.fst) ++ last.skipped).Nodup ∧
        (([] :: found.map fun answer => answer.rest.skipped) ++ [last.skipped]).Pairwise
          (· <+: ·) ∧
        ∀ later answer, (later, answer) ∈ disks.zip found →
          ∀ file card, answer.card = some (file, card) →
            ∃ text, later.readText file = .ok text ∧ Json.Value.ofText text = .ok (.object card) := by
  refine ⟨exists_course hwell _, ?_⟩
  intro listed found last hcourse
  have hlast := (accounted_root _).course hwell hcourse
  obtain ⟨hlisted, hfiles⟩ := hlast.nodup
  obtain ⟨hgrows, hends⟩ := hcourse.skipped_prefix
  refine ⟨hcourse.answers_eq hwell, ?_, ?_, ?_, ?_⟩
  · exact (List.nodup_append.mp hlisted).left
  · exact (List.nodup_append.mp hfiles).left
  · rw [List.pairwise_append]
    refine ⟨hgrows, List.pairwise_singleton _ _, ?_⟩
    intro skipped hskipped final hfinal
    rw [List.mem_singleton.mp hfinal]
    exact hends skipped hskipped
  · intro later answer hmem file card hcard
    exact load_eq_ok_iff.mp (hcourse.load_eq hmem hcard)

/-! ## A tree that is turned over -/

def upright : Disk := ⟨.directory [("a.json", .file [0x7B, 0x7D]), ("b", .directory [])], []⟩

def overturned : Disk :=
  ⟨.directory [("a.json", .directory []), ("b", .directory [("c.json", .file [0x7B])])], []⟩

theorem overturned_calls :
    (∀ later ∈ [upright, overturned], later.root.WellFormed) ∧
      ∃ found last, Course (start upright "/") [upright, overturned] ["/", "/b"] found last ∧
        found = (start upright "/").answers [upright, overturned] ∧
        (found.filterMap fun answer => answer.card.map Prod.fst) = ["/a.json"] ∧
        last.skipped = ["/b/c.json"] := by
  have hwell : ∀ later ∈ [upright, overturned], later.root.WellFormed := by decide
  have hroot : upright.list "/" =
      .ok [("a.json", .file [0x7B, 0x7D]), ("b", .directory [])] := by
    have hentry : upright.entry "/" = .ok upright.root := rfl
    rw [Disk.list, hentry]
    exact congrArg Except.ok (List.mergeSort_of_pairwise (by decide))
  have hinner : overturned.list "/b" = .ok [("c.json", .file [0x7B])] := by
    have hentry : overturned.entry "/b" = .ok (.directory [("c.json", .file [0x7B])]) := rfl
    rw [Disk.list, hentry]
    exact congrArg Except.ok (List.mergeSort_singleton _)
  have hcard : Card.load upright "/a.json" = .ok [] := rfl
  rcases (⟨_, rfl⟩ : ∃ fault, Card.load overturned "/b/c.json" = .error fault) with
    ⟨fault, hfault⟩
  have hfirst : Asks upright (start upright "/") ["/"]
      ⟨[], some ("/a.json", []), ⟨["/b"], [], []⟩⟩ := .listed hroot (.loaded hcard)
  have hsecond : Asks overturned ⟨["/b"], [], []⟩ ["/b"]
      ⟨[.unloaded "/b/c.json" fault], none, ⟨[], [], ["/b/c.json"]⟩⟩ :=
    .listed hinner (.skipped hfault .finished)
  have hcourse := Course.ask hfirst (.ask hsecond (.done _))
  obtain ⟨hfound, _⟩ := (calls_repeat_no_path upright "/" hwell).right _ _ _ hcourse
  exact ⟨hwell, _, _, hcourse, hfound, rfl, rfl⟩

end Collection
end Card
end Cardsmith
