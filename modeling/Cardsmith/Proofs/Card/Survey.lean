import Mathlib.Data.List.Infix
import Mathlib.Data.List.Nodup
import Cardsmith.Proofs.Card.Asking

/-!
# Surveys of directories

Asked until it has no more, a collection on files that stay as they are has met every file with
the right name in every directory that can be reached, each once and in preorder.  It has given
the cards and passed over the rest, and there is nothing more to come.
-/

namespace Cardsmith
namespace Card

open Storage Entry

/-! ## Names -/

theorem occursIn_iff {part text : List Char} : occursIn part text = true ↔ part <:+: text := by
  induction text with
  | nil => rw [occursIn, List.isEmpty_iff, List.infix_nil]
  | cons c rest ih =>
      rw [occursIn, Bool.or_eq_true, List.isPrefixOf_iff_prefix, ih, List.infix_cons_iff]

/-- A directory, whether or not it may be opened, and not a link to one. -/
def IsFolder (_ : String) (entry : Entry) : Prop :=
  (∃ inner, entry = .directory inner) ∨ entry = .locked true

theorem isDirectory_iff {name : String} {entry : Entry} :
    isDirectory entry = true ↔ IsFolder name entry := by
  cases entry <;> simp [isDirectory, IsFolder]

structure IsCardFile (name : String) (entry : Entry) : Prop where
  file : ¬ IsFolder name entry
  named : ".json".toList <:+: name.toList

theorem isCardFile_iff {name : String} {entry : Entry} :
    (!isDirectory entry && isCandidate name) = true ↔ IsCardFile name entry := by
  rw [Bool.and_eq_true, Bool.not_eq_true', ← Bool.not_eq_true, @isDirectory_iff name, isCandidate,
    occursIn_iff]
  constructor
  · rintro ⟨hfile, hnamed⟩
    exact ⟨hfile, hnamed⟩
  · rintro ⟨hfile, hnamed⟩
    exact ⟨hfile, hnamed⟩

/-- The names of the entries of a kind, each once, in the order of their bytes. -/
structure Selects (entries : List (String × Entry)) (kind : String → Entry → Prop)
    (names : List String) : Prop where
  mem (name : String) : name ∈ names ↔ ∃ entry, (name, entry) ∈ entries ∧ kind name entry
  order : names.Pairwise fun a b => Utf8.encode a < Utf8.encode b

theorem selects_of_list {disk : Disk} {path : String} {entries unsorted : List (String × Entry)}
    {kind : String → Entry → Prop} (keep : String × Entry → Bool)
    (hwell : disk.root.WellFormed) (hlist : disk.list path = .ok entries)
    (hperm : entries.Perm unsorted)
    (hkeep : ∀ name entry, keep (name, entry) = true ↔ kind name entry) :
    Selects unsorted kind ((entries.filter keep).map Prod.fst) := by
  constructor
  · intro name
    simp only [List.mem_map, List.mem_filter, Prod.exists, exists_and_right, exists_eq_right,
      hkeep, hperm.mem_iff]
  · have horder := Disk.list_in_byte_order hwell hlist
    rw [List.pairwise_map] at horder ⊢
    exact horder.sublist List.filter_sublist

namespace Collection

/-! ## Preorder -/

/-- What there is in directories in turn: the files of each in the order of their names, and then
its subdirectories in the order of their names, each with everything below it. -/
inductive Preorder (disk : Disk) : List String → List Sighting → Prop where
  | finished : Preorder disk [] []
  | barred {path : String} {reason : Storage.Fault} {others : List String}
      {later : List Sighting} :
      disk.list path = .error reason → Preorder disk others later →
      Preorder disk (path :: others) (.barred path reason :: later)
  | listed {path : String} {entries : List (String × Entry)} {files folders others : List String}
      {below later : List Sighting} :
      disk.entry path = .ok (.directory entries) → Selects entries IsCardFile files →
      Selects entries IsFolder folders →
      Preorder disk (folders.map fun name => Path.join path name) below →
      Preorder disk others later →
      Preorder disk (path :: others)
        ((files.map fun name => .met (Path.join path name)) ++ below ++ later)

theorem Tour.preorder {disk : Disk} {directories : List String} {sights : List Sighting}
    (hwell : disk.root.WellFormed) (h : Tour disk directories sights) :
    Preorder disk directories sights := by
  induction h with
  | finished => exact .finished
  | barred hlist _ ih => exact .barred hlist ih
  | @listed path entries others below later hlist _ _ ihbelow ihlater =>
      rcases Disk.list_eq_ok hlist with ⟨unsorted, hentry, hperm⟩
      have hfiles : Selects unsorted IsCardFile _ :=
        selects_of_list (fun entry => !isDirectory entry.2 && isCandidate entry.1) hwell
          hlist hperm fun name entry => isCardFile_iff
      have hfolders : Selects unsorted IsFolder _ :=
        selects_of_list (fun entry => isDirectory entry.2) hwell hlist hperm
          fun name entry => isDirectory_iff
      have hsubdirectories : subdirectories path entries =
          ((entries.filter fun entry => isDirectory entry.2).map Prod.fst).map
            fun name => Path.join path name := by
        rw [List.map_map]
        rfl
      have hcandidates : (candidates path entries).map Sighting.met =
          ((entries.filter fun entry => !isDirectory entry.2 && isCandidate entry.1).map
            Prod.fst).map fun name => .met (Path.join path name) := by
        rw [candidates, List.map_map, List.map_map]
        rfl
      rw [hsubdirectories] at ihbelow
      rw [hcandidates]
      exact .listed hentry hfiles hfolders ihbelow ihlater

/-! ## What can be reached -/

/-- A directory is reached from another through directories that can be listed. -/
inductive Reached (disk : Disk) : String → String → Prop where
  | here (directory : String) : Reached disk directory directory
  | inside {outer name directory : String} {entries : List (String × Entry)} {entry : Entry} :
      disk.entry outer = .ok (.directory entries) → (name, entry) ∈ entries →
      IsFolder name entry → Reached disk (Path.join outer name) directory →
      Reached disk outer directory

inductive Sees (disk : Disk) (directory : String) : Sighting → Prop where
  | barred {reason : Storage.Fault} :
      disk.list directory = .error reason → Sees disk directory (.barred directory reason)
  | met {name : String} {entry : Entry} {entries : List (String × Entry)} :
      disk.entry directory = .ok (.directory entries) → (name, entry) ∈ entries →
      IsCardFile name entry → Sees disk directory (.met (Path.join directory name))

theorem mem_candidates_iff {path file : String} {entries : List (String × Entry)} :
    file ∈ candidates path entries ↔
      ∃ name entry, (name, entry) ∈ entries ∧ IsCardFile name entry ∧ file = Path.join path name := by
  rw [candidates, List.mem_map]
  constructor
  · rintro ⟨⟨name, entry⟩, hmem, rfl⟩
    obtain ⟨hentry, hkept⟩ := List.mem_filter.mp hmem
    exact ⟨name, entry, hentry, isCardFile_iff.mp hkept, rfl⟩
  · rintro ⟨name, entry, hentry, hkept, rfl⟩
    exact ⟨(name, entry), List.mem_filter.mpr ⟨hentry, isCardFile_iff.mpr hkept⟩, rfl⟩

theorem mem_subdirectories_iff {path folder : String} {entries : List (String × Entry)} :
    folder ∈ subdirectories path entries ↔
      ∃ name entry, (name, entry) ∈ entries ∧ IsFolder name entry ∧
        folder = Path.join path name := by
  rw [subdirectories, List.mem_map]
  constructor
  · rintro ⟨⟨name, entry⟩, hmem, rfl⟩
    obtain ⟨hentry, hkept⟩ := List.mem_filter.mp hmem
    exact ⟨name, entry, hentry, isDirectory_iff.mp hkept, rfl⟩
  · rintro ⟨name, entry, hentry, hfolder, rfl⟩
    exact ⟨(name, entry), List.mem_filter.mpr ⟨hentry, isDirectory_iff.mpr hfolder⟩, rfl⟩

/-- A tour goes by what there is to see of the directories that can be reached, and by nothing
else. -/
theorem Tour.mem_iff {disk : Disk} {directories : List String} {sights : List Sighting}
    (h : Tour disk directories sights) {sighting : Sighting} :
    sighting ∈ sights ↔ ∃ outer ∈ directories, ∃ directory,
      Reached disk outer directory ∧ Sees disk directory sighting := by
  induction h with
  | finished => simp
  | @barred path reason others later hlist _ ih =>
      have hhead : sighting = .barred path reason ↔
          ∃ directory, Reached disk path directory ∧ Sees disk directory sighting := by
        constructor
        · rintro rfl
          exact ⟨path, .here path, .barred hlist⟩
        · rintro ⟨directory, hreached, hsees⟩
          cases hreached with
          | here =>
              cases hsees with
              | barred hlist' =>
                  rw [hlist] at hlist'
                  cases hlist'
                  rfl
              | met hentry _ _ =>
                  rw [Disk.list, hentry] at hlist
                  cases hlist
          | inside hentry _ _ _ =>
              rw [Disk.list, hentry] at hlist
              cases hlist
      rw [List.mem_cons, ih, hhead, List.exists_mem_cons_iff]
  | @listed path entries others below later hlist _ _ ihbelow ihlater =>
      rcases Disk.list_eq_ok hlist with ⟨unsorted, hentry, hperm⟩
      have hhead : sighting ∈ (candidates path entries).map Sighting.met ++ below ↔
          ∃ directory, Reached disk path directory ∧ Sees disk directory sighting := by
        rw [List.mem_append, List.mem_map, ihbelow]
        constructor
        · rintro (⟨file, hfile, rfl⟩ | ⟨folder, hfolder, directory, hreached, hsees⟩)
          · rcases mem_candidates_iff.mp hfile with ⟨name, entry, hmem, hcard, rfl⟩
            exact ⟨path, .here path, .met hentry (hperm.mem_iff.mp hmem) hcard⟩
          · rcases mem_subdirectories_iff.mp hfolder with ⟨name, entry, hmem, hkind, rfl⟩
            exact ⟨directory, .inside hentry (hperm.mem_iff.mp hmem) hkind hreached, hsees⟩
        · rintro ⟨directory, hreached, hsees⟩
          cases hreached with
          | here =>
              cases hsees with
              | barred hlist' =>
                  rw [hlist] at hlist'
                  cases hlist'
              | met hentry' hmem hcard =>
                  rw [hentry] at hentry'
                  cases hentry'
                  exact Or.inl ⟨_, mem_candidates_iff.mpr
                    ⟨_, _, hperm.mem_iff.mpr hmem, hcard, rfl⟩, rfl⟩
          | inside hentry' hmem hkind hreached =>
              rw [hentry] at hentry'
              cases hentry'
              exact Or.inr ⟨_, mem_subdirectories_iff.mpr
                ⟨_, _, hperm.mem_iff.mpr hmem, hkind, rfl⟩, directory, hreached, hsees⟩
      rw [List.mem_append, ihlater, hhead, List.exists_mem_cons_iff]

/-! ## To the end -/

/-- Asking until there is no card: the warnings, the cards and what is left. -/
inductive Drains (disk : Disk) :
    Collection → List Warning → List (String × Card) → Collection → Prop where
  | finished {c rest : Collection} {warnings : List Warning} :
      next disk c = ⟨warnings, none, rest⟩ → Drains disk c warnings [] rest
  | given {c rest last : Collection} {warnings more : List Warning} {card : String × Card}
      {cards : List (String × Card)} :
      next disk c = ⟨warnings, some card, rest⟩ → Drains disk rest more cards last →
      Drains disk c (warnings ++ more) (card :: cards) last

theorem Drains.drainWithin_eq {disk : Disk} {c last : Collection} {warnings : List Warning}
    {cards : List (String × Card)} (h : Drains disk c warnings cards last) {limit : Nat}
    (hlimit : cards.length < limit) : drainWithin disk limit c = (warnings, cards, last) := by
  induction h generalizing limit with
  | finished hnext =>
      cases limit with
      | zero => exact absurd hlimit (Nat.not_lt_zero _)
      | succ limit => simp only [drainWithin, hnext]
  | given hnext _ ih =>
      cases limit with
      | zero => exact absurd hlimit (Nat.not_lt_zero _)
      | succ limit => simp only [drainWithin, hnext, ih (Nat.lt_of_succ_lt_succ hlimit)]

theorem Faces.drains {disk : Disk} {c : Collection} {sights : List Sighting}
    (hwell : disk.root.WellFormed) (h : c.Faces disk sights) :
    (sights.filterMap (Sighting.loaded? disk)).length ≤ extent disk c ∧
      Drains disk c (sights.filterMap (Sighting.warning? disk))
        (sights.filterMap (Sighting.loaded? disk))
        ⟨[], [], c.skipped ++ sights.filterMap (Sighting.skipped? disk)⟩ := by
  induction hextent : extent disk c using Nat.strongRecOn generalizing c sights with
  | _ n ih =>
      rcases next_asks hwell c with ⟨listed, hasks⟩
      rcases next_gives hwell h with ⟨passed, left, hgives⟩
      have hsights := hgives.sights
      rcases hgives.card with ⟨rfl, hcard⟩ | ⟨path, card, later, rfl, hload, hcard, hon, hless⟩
      · rw [List.append_nil] at hsights
        rw [hsights, hgives.nothing]
        have hnext : next disk c = ⟨passed.filterMap (Sighting.warning? disk), none,
            ⟨[], [], c.skipped ++ passed.filterMap (Sighting.skipped? disk)⟩⟩ := by
          rw [← hgives.warnings, ← hgives.skipped, ← hasks.exhausted hcard, ← hcard]
        exact ⟨Nat.zero_le _, .finished hnext⟩
      · obtain ⟨hloaded, hkept, hquiet⟩ := Sighting.met_of_ok hload
        have hnext : next disk c = ⟨passed.filterMap (Sighting.warning? disk), some (path, card),
            (next disk c).rest⟩ := by
          rw [← hgives.warnings, ← hcard]
        rw [hextent] at hless
        obtain ⟨hlength, hdrains⟩ := ih _ hless hon rfl
        have hcards : sights.filterMap (Sighting.loaded? disk) =
            (path, card) :: later.filterMap (Sighting.loaded? disk) := by
          rw [hsights, List.filterMap_append, hgives.nothing, List.filterMap_cons_some hloaded]
          rfl
        rw [hcards, hsights, Sighting.filterMap_met hkept, Sighting.filterMap_met hquiet,
          ← List.append_assoc, ← hgives.skipped]
        constructor
        · rw [List.length_cons]
          omega
        · exact .given hnext hdrains

/-! ## Each once -/

def directoryOf? : Warning → Option String
  | .unlisted path _ => some path
  | .unloaded _ _ => none

def barred? : Sighting → Option String
  | .barred path _ => some path
  | .met _ => none

theorem filterMap_warning? (disk : Disk) (sights : List Sighting) :
    (sights.filterMap (Sighting.warning? disk)).filterMap directoryOf? =
      sights.filterMap barred? := by
  rw [List.filterMap_filterMap]
  refine List.filterMap_congr fun sighting _ => ?_
  cases sighting with
  | barred path reason => rfl
  | met path =>
      rw [Sighting.warning?]
      cases load disk path <;> rfl

theorem Asks.warnings_sublist {disk : Disk} {c : Collection} {listed : List String}
    {answer : Answer} (h : Asks disk c listed answer) :
    (answer.warnings.filterMap directoryOf?).Sublist listed := by
  induction h with
  | finished => exact List.Sublist.refl _
  | barred _ _ ih => exact ih.cons_cons _
  | listed _ _ ih => exact ih.cons _
  | skipped _ _ ih => exact ih
  | loaded _ => exact List.Sublist.refl _

theorem Drains.accounted {disk : Disk} {c last : Collection} {warnings : List Warning}
    {cards : List (String × Card)} {root : String} {listed loaded : List String}
    (h : Drains disk c warnings cards last) (hwell : disk.root.WellFormed)
    (hbefore : Accounted root c listed loaded) :
    ∃ more, Accounted root last (listed ++ more) (loaded ++ cards.map Prod.fst) ∧
      (warnings.filterMap directoryOf?).Sublist more := by
  induction h generalizing listed loaded with
  | @finished c rest warnings hnext =>
      rcases next_asks hwell c with ⟨more, hasks⟩
      rw [hnext] at hasks
      exact ⟨more, hbefore.asks hwell hasks, hasks.warnings_sublist⟩
  | @given c rest last warnings others card cards hnext _ ih =>
      rcases next_asks hwell c with ⟨first, hasks⟩
      rw [hnext] at hasks
      rcases ih (hbefore.asks hwell hasks) with ⟨more, hafter, hsublist⟩
      refine ⟨first ++ more, ?_, ?_⟩
      · rw [List.append_assoc, List.append_assoc] at hafter
        exact hafter
      · rw [List.filterMap_append]
        exact hasks.warnings_sublist.append hsublist

/-! ## Surveys -/

/-- Sights are a survey of a directory: in preorder, everything that there is to see of the
directories that can be reached and nothing else, and no path twice. -/
structure Surveyed (disk : Disk) (root : String) (sights : List Sighting) : Prop where
  preorder : Preorder disk [root] sights
  complete (sighting : Sighting) : sighting ∈ sights ↔
    ∃ directory, Reached disk root directory ∧ Sees disk directory sighting
  files : (sights.filterMap Sighting.file?).Nodup
  directories : (sights.filterMap barred?).Nodup

theorem surveyed_of_tour {disk : Disk} {root : String} {sights : List Sighting}
    (hwell : disk.root.WellFormed) (h : Tour disk [root] sights) : Surveyed disk root sights := by
  have hfaces : Faces disk ⟨[root], [], []⟩ sights := ⟨sights, h, rfl⟩
  obtain ⟨_, hdrains⟩ := hfaces.drains hwell
  rcases hdrains.accounted hwell (accounted_root root) with ⟨more, hlast, hsublist⟩
  obtain ⟨hlisted, hfiles⟩ := hlast.nodup
  rw [List.append_nil, List.nil_append, List.nil_append] at hfiles
  rw [List.append_nil, List.nil_append] at hlisted
  rw [filterMap_warning?] at hsublist
  constructor
  · exact h.preorder hwell
  · intro sighting
    rw [h.mem_iff]
    simp only [List.mem_singleton, exists_eq_left]
  · exact (Sighting.perm_loaded?_skipped? disk sights).nodup_iff.mpr hfiles
  · exact hlisted.sublist hsublist

theorem mem_loaded?_iff {disk : Disk} {sights : List Sighting} {path : String} {card : Card} :
    (path, card) ∈ sights.filterMap (Sighting.loaded? disk) ↔
      .met path ∈ sights ∧ load disk path = .ok card := by
  rw [List.mem_filterMap]
  constructor
  · rintro ⟨sighting, hmem, hloaded⟩
    cases sighting with
    | barred other reason => cases hloaded
    | met other =>
        cases hload : load disk other with
        | ok found =>
            rw [(Sighting.met_of_ok hload).left] at hloaded
            cases hloaded
            exact ⟨hmem, hload⟩
        | error fault =>
            rw [(Sighting.met_of_error hload).left] at hloaded
            cases hloaded
  · rintro ⟨hmem, hload⟩
    exact ⟨.met path, hmem, (Sighting.met_of_ok hload).left⟩

/-- Asked until it has no more, a collection has made a survey of its directory: it has given the
files that hold an object, with it, and passed over the others, in the order of the survey; it
has warned of each file that it passed over and each directory that cannot be listed; and it
never changes after that, whatever becomes of the files. -/
theorem drain_surveys (disk : Disk) (path : String) (hwell : disk.root.WellFormed) :
    let root := (Path.absolute? (Path.ofNames disk.here) path).getD path
    ∃ sights, Surveyed disk root sights ∧
      let warnings := sights.filterMap (Sighting.warning? disk)
      let cards := sights.filterMap (Sighting.loaded? disk)
      let last : Collection := ⟨[], [], sights.filterMap (Sighting.skipped? disk)⟩
      Drains disk (start disk path) warnings cards last ∧
        drain disk (start disk path) = (warnings, cards, last) ∧
        (∀ file card, (file, card) ∈ cards ↔ .met file ∈ sights ∧
          ∃ text, disk.readText file = .ok text ∧ Json.Value.ofText text = .ok (.object card)) ∧
        ∀ later, next later last = ⟨[], none, last⟩ := by
  intro root
  rcases exists_tour hwell [root] with ⟨sights, htour⟩
  have hfaces : Faces disk (start disk path) sights := ⟨sights, htour, rfl⟩
  obtain ⟨hlength, hdrains⟩ := hfaces.drains hwell
  refine ⟨sights, surveyed_of_tour hwell htour, hdrains, ?_, ?_, ?_⟩
  · exact hdrains.drainWithin_eq (Nat.lt_succ_of_le hlength)
  · intro file card
    rw [mem_loaded?_iff, load_eq_ok_iff]
  · intro later
    rfl

/-! ## A directory that may not be opened -/

/-- A directory with a card in a directory of its own, a file and a directory that may not be
opened, and a link back to itself. -/
def shelf : Disk :=
  ⟨.directory [("cards", .directory
    [("b", .directory [("c.json", .file [0x7B, 0x7D])]), ("d.json", .locked false),
      ("loop", .link "/cards"), ("vault", .locked true)])], []⟩

theorem shelf_drain_surveys :
    shelf.root.WellFormed ∧ ∃ sights, Surveyed shelf "/cards" sights ∧
      (drain shelf (start shelf "/cards")).2.1 = sights.filterMap (Sighting.loaded? shelf) ∧
      ("/cards/b/c.json", []) ∈ (drain shelf (start shelf "/cards")).2.1 ∧
      "/cards/d.json" ∈ (drain shelf (start shelf "/cards")).2.2.skipped ∧
      .unlisted "/cards/vault" .denied ∈ (drain shelf (start shelf "/cards")).1 := by
  have hwell : shelf.root.WellFormed := by decide
  rcases drain_surveys shelf "/cards" hwell with ⟨sights, hsurveyed, _, hdrain, hcards, _⟩
  have hinside : Reached shelf "/cards" "/cards/b" :=
    @Reached.inside _ _ "b" _ _ _ rfl List.mem_cons_self (Or.inl ⟨_, rfl⟩) (.here _)
  have hvault : Reached shelf "/cards" "/cards/vault" :=
    @Reached.inside _ _ "vault" _ _ (.locked true) rfl (by simp) (Or.inr rfl) (.here _)
  have hcard : .met "/cards/b/c.json" ∈ sights := (hsurveyed.complete _).mpr ⟨_, hinside,
    @Sees.met _ _ "c.json" _ _ rfl List.mem_cons_self ⟨by simp [IsFolder], by decide⟩⟩
  have hclosed : .met "/cards/d.json" ∈ sights := (hsurveyed.complete _).mpr ⟨_, .here _,
    @Sees.met _ _ "d.json" (.locked false) _ rfl (by simp) ⟨by simp [IsFolder], by decide⟩⟩
  have hbarred : .barred "/cards/vault" .denied ∈ sights :=
    (hsurveyed.complete _).mpr ⟨_, hvault, .barred rfl⟩
  rw [hdrain]
  exact ⟨hwell, sights, hsurveyed, rfl, (hcards _ _).mpr ⟨hcard, "{}", rfl, rfl⟩,
    List.mem_filterMap.mpr ⟨_, hclosed, rfl⟩, List.mem_filterMap.mpr ⟨_, hbarred, rfl⟩⟩

end Collection
end Card
end Cardsmith
