import Cardsmith.Proofs.Card.Renewal
import Cardsmith.Proofs.Storage.Writing

/-!
# Cards saved and loaded

A card that was read and is saved at a path is loaded from it, and nothing else on the disk has
changed; where no file can be made, the disk stays as it is.  However many cards are saved and
loaded, a file holds the last card that was saved in it, by whatever path, and all others hold
what they held.
-/

namespace Cardsmith
namespace Card

open Storage

def FromText (card : Card) : Prop := ∃ source, ofText source = .ok card

/-! ## One card -/

structure Saved (before : Disk) (path : String) (card : Card) (location : Location)
    (after : Disk) : Prop where
  holds : after.root.at? location = some (.file (Utf8.encode (text card)))
  leads : after.find false path = .ok (.taken location)
  loads : load after path = .ok card
  digests : ∃ contents, after.read path = .ok contents ∧ Sha256.hexDigest contents = digest card
  others : ∀ other, other ≠ location →
    (after.root.at? other).map Entry.surface = (before.root.at? other).map Entry.surface
  here : after.here = before.here

theorem load_of_holds {disk : Disk} {path : String} {location : Location} {card : Card}
    (hcard : FromText card) (hfind : disk.find false path = .ok (.taken location))
    (hat : disk.root.at? location = some (.file (Utf8.encode (text card)))) :
    disk.read path = .ok (Utf8.encode (text card)) ∧ load disk path = .ok card := by
  rcases hcard with ⟨source, hsource⟩
  have hread : disk.read path = .ok (Utf8.encode (text card)) :=
    Disk.read_eq_ok_iff.mpr (Disk.entry_eq_ok_iff.mpr ⟨location, hfind, hat⟩)
  have hinFile : inFile path (Utf8.encode source) = .ok card := by
    rw [inFile, Utf8.encode, Utf8.decode?_encodeChars, String.ofList_toList]
    exact hsource
  refine ⟨hread, ?_⟩
  rw [load_eq, hread]
  exact inFile_text hinFile path

theorem saved_of_wrote {before after : Disk} {path : String} {location : Location} {card : Card}
    (hcard : FromText card) (hwrote : before.Wrote location (Utf8.encode (text card)) after)
    (hfind : after.find false path = .ok (.taken location)) :
    Saved before path card location after := by
  obtain ⟨hread, hload⟩ := load_of_holds hcard hfind hwrote.tree.here
  exact {
    holds := hwrote.tree.here
    leads := hfind
    loads := hload
    digests := ⟨_, hread, rfl⟩
    others := hwrote.tree.elsewhere
    here := hwrote.here }

/-! ## Deeds -/

inductive Deed where
  | save (path : String) (card : Card)
  | load (path : String)

def Deed.perform (disk : Disk) : Deed → Except Fault (Option Card) × Disk
  | .save path card =>
      match Card.save disk path card with
      | .ok after => (.ok none, after)
      | .error fault => (.error fault, disk)
  | .load path => ((Card.load disk path).map some, disk)

def Deed.puts? (disk : Disk) : Deed → Option (Location × Card)
  | .save path card =>
      match Card.save disk path card, disk.find true path with
      | .ok _, .ok place => some (place.location, card)
      | _, _ => none
  | .load _ => none

/-- What a saving comes to on a disk: the card is saved where its path leads, or a fault names the
path and the disk is as it was. -/
inductive Attempted (disk : Disk) (path : String) (card : Card) :
    Except Fault (Option Card) × Disk → Prop where
  | saved {place : Place} {after : Disk} :
      disk.find true path = .ok place → Saved disk path card place.location after →
      Attempted disk path card (.ok none, after)
  | refused {reason : Storage.Fault} :
      disk.find true path = .error reason ∨
        (∃ location, disk.find true path = .ok (.taken location) ∧
          (disk.root.at? location = some (.locked false) ∧ reason = .denied ∨
            (∀ old, disk.root.at? location ≠ some (.file old)) ∧
              disk.root.at? location ≠ some (.locked false) ∧ reason = .isDirectory)) →
      Attempted disk path card (.error (.storage path reason), disk)

theorem save_eq (disk : Disk) (path : String) (card : Card) :
    save disk path card =
      (disk.write path (Utf8.encode (text card))).mapError (Fault.storage path) := by
  unfold save
  cases disk.write path (Utf8.encode (text card)) <;> rfl

theorem attempted {disk : Disk} (path : String) {card : Card} (hcard : FromText card) :
    Attempted disk path card ((Deed.save path card).perform disk) := by
  rw [Deed.perform, save_eq]
  cases hwrite : disk.write path (Utf8.encode (text card)) with
  | ok after =>
      rcases Disk.write_eq_ok hwrite with ⟨place, hplace, hwrote, hfind⟩
      exact .saved hplace (saved_of_wrote hcard hwrote hfind)
  | error reason => exact .refused (Disk.write_eq_error_iff.mp hwrite)

/-! ## Many deeds -/

/-- A disk after some deeds, and which cards they put where, the last one first. -/
structure Record where
  disk : Disk
  put : List (Location × Card)

namespace Record

def goOn (r : Record) (deed : Deed) : Record :=
  ⟨(deed.perform r.disk).2, (deed.puts? r.disk).toList ++ r.put⟩

def ofDeeds (disk : Disk) (deeds : List Deed) : Record := deeds.foldl goOn ⟨disk, []⟩

/-- A deed puts a card in one file, or leaves the disk as it is. -/
theorem goOn_cases (r : Record) (deed : Deed) :
    (∃ location card, (∃ path, deed = .save path card) ∧
        r.disk.Wrote location (Utf8.encode (text card)) (r.goOn deed).disk ∧
        (r.goOn deed).put = (location, card) :: r.put) ∨
      r.goOn deed = r := by
  cases deed with
  | load path => exact Or.inr rfl
  | save path card =>
      rw [goOn, Deed.perform, Deed.puts?, save_eq]
      cases hwrite : r.disk.write path (Utf8.encode (text card)) with
      | error reason => exact Or.inr rfl
      | ok after =>
          rcases Disk.write_eq_ok hwrite with ⟨place, hplace, hwrote, _⟩
          rw [hplace]
          exact Or.inl ⟨place.location, card, ⟨path, rfl⟩, hwrote, rfl⟩

/-- All entries are as they were on a disk before, but for the files in which cards were put: each
of those holds the last one. -/
def Holds (before : Disk) (r : Record) : Prop :=
  ∀ location, (r.disk.root.at? location).map Entry.surface =
    match r.put.lookup location with
    | some card => some (.file (Utf8.encode (text card)))
    | none => (before.root.at? location).map Entry.surface

theorem Holds.goOn {before : Disk} {r : Record} (h : Holds before r) (deed : Deed) :
    Holds before (r.goOn deed) := by
  rcases r.goOn_cases deed with ⟨place, card, _, hwrote, hput⟩ | hsame
  · intro location
    rw [hput, List.lookup_cons]
    by_cases hhere : location = place
    · rw [hhere, beq_self_eq_true, hwrote.tree.here]
      rfl
    · have hother : (location == place) = false := beq_eq_false_iff_ne.mpr hhere
      rw [hother, hwrote.tree.elsewhere location hhere]
      exact h location
  · rw [hsame]
    exact h

theorem holds_foldl {before : Disk} {r : Record} (h : Holds before r) (deeds : List Deed) :
    Holds before (deeds.foldl Record.goOn r) := by
  induction deeds generalizing r with
  | nil => exact h
  | cons deed rest ih => exact ih (h.goOn deed)

theorem find_foldl {r : Record} {path : String} {location : Location}
    (h : r.disk.find false path = .ok (.taken location)) (deeds : List Deed) :
    (deeds.foldl Record.goOn r).disk.find false path = .ok (.taken location) := by
  induction deeds generalizing r with
  | nil => exact h
  | cons deed rest ih =>
      apply ih
      rcases r.goOn_cases deed with ⟨_, _, _, hwrote, _⟩ | hsame
      · exact hwrote.find (by simp) h
      · rw [hsame]
        exact h

theorem fromText_of_mem_put {r : Record} (h : ∀ entry ∈ r.put, FromText entry.2)
    {deeds : List Deed} (hdeeds : ∀ path card, .save path card ∈ deeds → FromText card) :
    ∀ entry ∈ (deeds.foldl Record.goOn r).put, FromText entry.2 := by
  induction deeds generalizing r with
  | nil => exact h
  | cons deed rest ih =>
      apply ih _ fun path card hmem => hdeeds path card (List.mem_cons_of_mem _ hmem)
      rcases r.goOn_cases deed with ⟨location, card, ⟨path, hdeed⟩, _, hput⟩ | hsame
      · intro entry hentry
        rw [hput] at hentry
        rcases List.mem_cons.mp hentry with rfl | hold
        · exact hdeeds path card (by rw [hdeed]; exact List.mem_cons_self)
        · exact h entry hold
      · rw [hsame]
        exact h

end Record

/-- After any saving and loading of cards every file holds the last card that was saved in it, or
what it held, and no other entry has changed; a path that led somewhere at any time leads there,
and to the last card saved there; and one more card, whatever its path, is saved with nothing else
changed, or refused with nothing changed at all. -/
theorem files_hold_last_saved_cards (disk : Disk) (deeds : List Deed)
    (hdeeds : ∀ path card, .save path card ∈ deeds → FromText card) :
    let now := Record.ofDeeds disk deeds
    (∀ location, (now.disk.root.at? location).map Entry.surface =
        match now.put.lookup location with
        | some card => some (.file (Utf8.encode (text card)))
        | none => (disk.root.at? location).map Entry.surface) ∧
      (∀ earlier later, deeds = earlier ++ later → ∀ path location,
        (Record.ofDeeds disk earlier).disk.find false path = .ok (.taken location) →
        now.disk.find false path = .ok (.taken location)) ∧
      (∀ path location card, now.disk.find false path = .ok (.taken location) →
        now.put.lookup location = some card → load now.disk path = .ok card) ∧
      ∀ path card, FromText card →
        Attempted now.disk path card ((Deed.save path card).perform now.disk) := by
  intro now
  have hstart : Record.Holds disk ⟨disk, []⟩ := fun _ => rfl
  have hholds : Record.Holds disk now := Record.holds_foldl hstart deeds
  refine ⟨hholds, ?_, ?_, fun path card => attempted path⟩
  · rintro earlier later rfl path location hfind
    have hnow : now = later.foldl Record.goOn (Record.ofDeeds disk earlier) :=
      List.foldl_append
    rw [hnow]
    exact Record.find_foldl hfind later
  · intro path location card hfind hlast
    rcases List.lookup_eq_some_iff.mp hlast with ⟨later, earlier, hput, _⟩
    have hmem : (location, card) ∈ now.put := by
      rw [hput]
      exact List.mem_append_right _ List.mem_cons_self
    have hcard : FromText card :=
      Record.fromText_of_mem_put (r := ⟨disk, []⟩) (by simp) hdeeds _ hmem
    have hat := hholds location
    rw [hlast] at hat
    rcases Option.map_eq_some_iff.mp hat with ⟨entry, hentry, hsurface⟩
    rw [@Entry.eq_of_surface _ (.file _) hsurface (by simp)] at hentry
    exact (load_of_holds hcard hfind hentry).right

/-! ## A link to a file that is not there -/

def danglingDisk : Disk :=
  ⟨.directory [("decks", .directory []), ("a.json", .link "decks/b.json"),
    ("c.json", .locked false)], []⟩

/-- A card is saved through the link, another one in its place, and one where the directory is. -/
def danglingDeeds : List Deed :=
  [.save "/a.json" [("name", .string "Wisp"), ("attributes", .object [])],
    .save "/decks/../decks/b.json" [("name", .null)], .load "/a.json", .save "/decks" []]

theorem dangling_link_leads_to_last_card :
    (∀ path card, .save path card ∈ danglingDeeds → FromText card) ∧
      load (Record.ofDeeds danglingDisk danglingDeeds).disk "/a.json" =
        .ok [("name", .null)] ∧
      ((Record.ofDeeds danglingDisk danglingDeeds).disk.root.at? ["decks", "b.json"]).map
          Entry.surface = some (.file (Utf8.encode (text [("name", .null)]))) ∧
      (Deed.save "/c.json" []).perform (Record.ofDeeds danglingDisk danglingDeeds).disk =
        (.error (.storage "/c.json" .denied), (Record.ofDeeds danglingDisk danglingDeeds).disk) := by
  have hcards (path : String) (card : Card) (h : Deed.save path card ∈ danglingDeeds) :
      FromText card := by
    simp only [danglingDeeds, List.mem_cons, List.not_mem_nil, or_false, reduceCtorEq, false_or,
      Deed.save.injEq] at h
    rcases h with ⟨_, rfl⟩ | ⟨_, rfl⟩ | ⟨_, rfl⟩
    · exact ⟨"\x7b\"name\":\"Wisp\",\"attributes\":\x7b\x7d\x7d", rfl⟩
    · exact ⟨"\x7b\"name\":null\x7d", rfl⟩
    · exact ⟨"\x7b\x7d", rfl⟩
  have hfind : (Record.ofDeeds danglingDisk danglingDeeds).disk.find false "/a.json" =
      .ok (.taken ["decks", "b.json"]) := rfl
  have hlast : (Record.ofDeeds danglingDisk danglingDeeds).put.lookup ["decks", "b.json"] =
      some [("name", .null)] := rfl
  obtain ⟨hcontents, _, hloads, _⟩ :=
    files_hold_last_saved_cards danglingDisk danglingDeeds hcards
  refine ⟨hcards, hloads _ _ _ hfind hlast, ?_, rfl⟩
  have hat := hcontents ["decks", "b.json"]
  rw [hlast] at hat
  exact hat

end Card
end Cardsmith
