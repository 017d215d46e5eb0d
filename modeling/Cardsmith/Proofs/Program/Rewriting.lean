import Cardsmith.Program.Run
import Cardsmith.Proofs.Card.Renewal
import Cardsmith.Proofs.Card.Tour
import Cardsmith.Proofs.Storage.Writing

/-!
# Rewriting

What rewriting does to the files below a directory, although it changes them while the collection
is under way: each card that is met is left in canonical form, everything else as it was, and a
second rewriting finds nothing to do.
-/

namespace Cardsmith
namespace Program

open Card Storage

namespace Rewriting

/-! ## One card -/

/-- No other text has the digest of the card that a path leads to. -/
def Distinguished (disk : Disk) (path : String) : Prop :=
  ∀ contents card, disk.read path = .ok contents → load disk path = .ok card →
    Sha256.hexDigest contents = digest card → contents = Utf8.encode (text card)

structure Treated (before : Disk) (paths : List String) (path : String) (r next : Rewriting) :
    Prop where
  collection : next.collection = r.collection
  log : next.log = r.log
  failure : next.failure = r.failure
  counted : next.rewritten + next.unchanged = r.rewritten + r.unchanged + 1
  renewed : Renewed before (paths ++ [path]) next.disk
  again : path ∈ paths → next.disk = r.disk ∧ next.rewritten = r.rewritten

theorem treat_treated {before : Disk} {paths : List String} {r : Rewriting} {path : String}
    {card : Card} (h : Renewed before paths r.disk) (hload : load before path = .ok card)
    (hdigest : Distinguished before path) : Treated before paths path r (r.treat path card) := by
  rcases exists_file_of_load hload with ⟨location, old, hfind, hat, hread, hcard⟩
  rcases h.contents hat with ⟨new, hnew, hsame⟩
  have hfindNow : r.disk.find false path = .ok (.taken location) := by
    rw [← h.alike.find, hfind]
  have hreadNow : r.disk.read path = .ok new :=
    Disk.read_eq_ok_iff.mpr (Disk.entry_eq_ok_iff.mpr ⟨location, hfindNow, hnew⟩)
  by_cases hdone : Sha256.hexDigest new = digest card
  · -- the only place where equal digests have to mean equal texts
    have hcanonical : new = Utf8.encode (text card) := by
      rcases hsame with rfl | ⟨held, hheld, rfl⟩
      · exact hdigest new card hread hload hdone
      · rw [Except.ok.inj ((hheld path).symm.trans hcard)]
    have htreat : r.treat path card = { r with unchanged := r.unchanged + 1 } := by
      simp only [treat, hreadNow]
      rw [if_pos hdone]
    rw [hcanonical] at hnew
    rw [htreat]
    exact {
      collection := rfl
      log := rfl
      failure := rfl
      counted := rfl
      renewed := h.extend hload hfind h.alike hnew fun _ _ _ hother => hother
      again := fun _ => ⟨rfl, rfl⟩ }
  · have hwrite := Disk.write_of_file hfindNow hnew (Utf8.encode (text card))
    have htreat : r.treat path card =
        { r with
          disk := r.disk.put location (.file (Utf8.encode (text card)))
          rewritten := r.rewritten + 1 } := by
      simp only [treat, hreadNow, save, hwrite]
      rw [if_neg hdone]
    have halike : before.Alike (r.disk.put location (.file (Utf8.encode (text card)))) :=
      ⟨h.alike.root.trans (Entry.bare_put _ hnew).symm, h.alike.here⟩
    have hwritten := (Entry.writable_of_file hnew).written (Utf8.encode (text card))
    rw [htreat]
    exact {
      collection := rfl
      log := rfl
      failure := rfl
      counted := Nat.succ_add_eq_add_succ _ _
      renewed := h.extend hload hfind halike hwritten.here fun _ _ hne hother =>
        hwritten.file hne hother
      again := by
        intro hmem
        rcases h.renewed path hmem card hload with ⟨goal, hgoal, hatGoal⟩
        rw [hfind] at hgoal
        cases hgoal
        rw [hnew] at hatGoal
        cases hatGoal
        exact absurd rfl hdone }

/-! ## All cards -/

structure Finished (before : Disk) (sights : List Sighting) (paths : List String)
    (r last : Rewriting) : Prop where
  failure : last.failure = none
  skipped : last.collection.skipped =
    r.collection.skipped ++ sights.filterMap (Sighting.skipped? before)
  log : last.log = r.log ++ warningLines (sights.filterMap (Sighting.warning? before))
  counted : last.rewritten + last.unchanged =
    r.rewritten + r.unchanged + (sights.filterMap (Sighting.loaded? before)).length
  renewed : Renewed before (paths ++ (sights.filterMap (Sighting.loaded? before)).map Prod.fst)
    last.disk
  again : (∀ path ∈ (sights.filterMap (Sighting.loaded? before)).map Prod.fst, path ∈ paths) →
    last.disk = r.disk ∧ last.rewritten = r.rewritten

theorem run_finished {before : Disk} {limit : Nat} {sights : List Sighting} {paths : List String}
    {r : Rewriting} (hwell : before.root.WellFormed)
    (hlimit : r.collection.extent before < limit) (hfaces : r.collection.Faces before sights)
    (h : Renewed before paths r.disk) (hfailure : r.failure = none)
    (hdigests : ∀ path, .met path ∈ sights → Distinguished before path) :
    Finished before sights paths r (run limit r) := by
  induction limit generalizing sights paths r with
  | zero => exact absurd hlimit (Nat.not_lt_zero _)
  | succ limit ih =>
      have hnext : r.collection.next r.disk = r.collection.next before :=
        Collection.next_of_alike h.alike.symm h.load_eq r.collection
      rcases Collection.next_gives hwell hfaces with ⟨passed, left, hgives⟩
      have hsights := hgives.sights
      rw [run, hnext]
      generalize r.collection.next before = answer at hgives
      rcases hgives.card with ⟨rfl, hcard⟩ | ⟨path, card, later, rfl, hload, hcard, hon, hless⟩
      · rw [List.append_nil] at hsights
        simp only [hcard]
        rw [hsights]
        exact {
          failure := hfailure
          skipped := hgives.skipped
          log := by rw [hgives.warnings]
          counted := by rw [hgives.nothing]; rfl
          renewed := by rw [hgives.nothing, List.map_nil, List.append_nil]; exact h
          again := fun _ => ⟨rfl, rfl⟩ }
      · obtain ⟨hloaded, hkept, hquiet⟩ := Sighting.met_of_ok hload
        have hfound : sights.filterMap (Sighting.loaded? before) =
            (path, card) :: later.filterMap (Sighting.loaded? before) := by
          rw [hsights, List.filterMap_append, hgives.nothing, List.filterMap_cons_some hloaded]
          rfl
        have hmet : .met path ∈ sights := by
          rw [hsights]
          exact List.mem_append_right _ List.mem_cons_self
        have hafter (other : String) (hmem : .met other ∈ later) : Distinguished before other := by
          apply hdigests other
          rw [hsights]
          exact List.mem_append_right _ (List.mem_cons_of_mem _ hmem)
        simp only [hcard]
        generalize hahead : { r with
          collection := answer.rest, log := r.log ++ warningLines answer.warnings } = ahead
        have hdisk : ahead.disk = r.disk := by rw [← hahead]
        have htreated := treat_treated (r := ahead) (by rw [hdisk]; exact h) hload
          (hdigests path hmet)
        have hsucceeded : (ahead.treat path card).failure = none := by
          rw [htreated.failure, ← hahead]
          exact hfailure
        have hrest : (ahead.treat path card).collection = answer.rest := by
          rw [htreated.collection, ← hahead]
        have hlast := ih (by rw [hrest]; omega) (by rw [hrest]; exact hon) htreated.renewed
          hsucceeded hafter
        rw [hsucceeded, Option.isSome_none, if_neg Bool.false_ne_true]
        exact {
          failure := hlast.failure
          skipped := by
            rw [hlast.skipped, hrest, hgives.skipped, hsights, Sighting.filterMap_met hkept,
              List.append_assoc]
          log := by
            rw [hlast.log, htreated.log, ← hahead, hgives.warnings, hsights,
              Sighting.filterMap_met hquiet, warningLines, warningLines, warningLines,
              List.map_append, List.append_assoc]
          counted := by
            have hone : ahead.rewritten + ahead.unchanged = r.rewritten + r.unchanged := by
              rw [← hahead]
            rw [hlast.counted, htreated.counted, hone, hfound, List.length_cons]
            omega
          renewed := by
            have hrenewed := hlast.renewed
            rw [List.append_assoc] at hrenewed
            rw [hfound]
            exact hrenewed
          again := by
            intro hall
            rw [hfound, List.map_cons] at hall
            have hsame := htreated.again (hall path List.mem_cons_self)
            have hlater := hlast.again fun q hq =>
              List.mem_append_left _ (hall q (List.mem_cons_of_mem _ hq))
            rw [hlater.left, hlater.right, hsame.left, hsame.right, ← hahead]
            exact ⟨rfl, rfl⟩ }

def cardPaths (disk : Disk) (sights : List Sighting) : List String :=
  (sights.filterMap (Sighting.loaded? disk)).map Prod.fst

/-- Rewriting again, or for the first time, on a disk on which some cards are renewed already. -/
theorem below_finished {before disk : Disk} {directory : String} {sights : List Sighting}
    {paths : List String} (hwell : before.root.WellFormed)
    (htour : Collection.Tour before (Collection.start before directory).directories sights)
    (h : Renewed before paths disk)
    (hdigests : ∀ path, .met path ∈ sights → Distinguished before path) :
    Finished before sights paths ⟨disk, Collection.start before directory, 0, 0, [], none⟩
      (below disk directory) := by
  have hstart : Collection.start disk directory = Collection.start before directory := by
    rw [Collection.start, Collection.start, h.alike.here]
  rw [below, hstart, ← Collection.extent_of_alike h.alike]
  exact run_finished hwell (Nat.lt_succ_self _) ⟨sights, htour, rfl⟩ h rfl hdigests

/-- Rewriting the cards below a directory, as far as a tour of it goes. -/
structure Complete (before : Disk) (sights : List Sighting) (last : Rewriting) : Prop where
  failure : last.failure = none
  /-- The files that cards are read from hold their canonical texts, and everything else is as it
  was. -/
  renewed : Renewed before (cardPaths before sights) last.disk
  skipped : last.collection.skipped = sights.filterMap (Sighting.skipped? before)
  log : last.log = warningLines (sights.filterMap (Sighting.warning? before))
  /-- Every file that is met is counted once. -/
  counted : last.rewritten + last.unchanged + last.collection.skipped.length =
    (sights.filterMap Sighting.file?).length

theorem Finished.complete {before disk : Disk} {directory : String} {sights : List Sighting}
    {paths : List String} {last : Rewriting}
    (h : Finished before sights paths
      ⟨disk, Collection.start before directory, 0, 0, [], none⟩ last)
    (hrenewed : Renewed before (cardPaths before sights) last.disk) :
    Complete before sights last where
  failure := h.failure
  renewed := hrenewed
  skipped := h.skipped
  log := h.log
  counted := by
    have hskipped : last.collection.skipped = sights.filterMap (Sighting.skipped? before) :=
      h.skipped
    rw [h.counted, hskipped, Nat.zero_add, Nat.zero_add]
    exact Sighting.length_loaded?_add_skipped? before sights

end Rewriting

theorem rewrite_of_success {host : Host} {directory : String}
    (h : (Rewriting.below host.disk directory).failure = none) :
    rewrite host directory =
      ⟨"", [⟨.info, "Rewriting cards under " ++ directory⟩] ++
        (Rewriting.below host.disk directory).log ++
        [(Rewriting.below host.disk directory).summary],
        none, (Rewriting.below host.disk directory).disk, [], true⟩ := by
  rw [rewrite, h]
  rfl

/-- Rewriting comes to its end and leaves every card that is met in canonical form, whatever links
there are, and all other files as they were; what it reports adds up to the files that are met.
Rewriting a second time changes nothing and passes over the same files. -/
theorem rewrite_renews_cards (host : Host) (directory : String)
    (hwell : host.disk.root.WellFormed) :
    let directories := (Collection.start host.disk directory).directories
    (∃ sights, Collection.Tour host.disk directories sights) ∧
      ∀ sights, Collection.Tour host.disk directories sights →
        (∀ path, .met path ∈ sights → Rewriting.Distinguished host.disk path) →
        let first := Rewriting.below host.disk directory
        let second := Rewriting.below first.disk directory
        let begun : LogLine := ⟨.info, "Rewriting cards under " ++ directory⟩
        (rewrite host directory =
            ⟨"", [begun] ++ first.log ++ [first.summary], none, first.disk, [], true⟩ ∧
          Rewriting.Complete host.disk sights first) ∧
        (rewrite { host with disk := first.disk } directory =
            ⟨"", [begun] ++ second.log ++ [second.summary], none, second.disk, [], true⟩ ∧
          Rewriting.Complete host.disk sights second ∧
          second.rewritten = 0 ∧ second.disk = first.disk ∧
          second.collection.skipped = first.collection.skipped) := by
  refine ⟨Collection.exists_tour hwell _, ?_⟩
  intro sights htour hdigests first second begun
  have hfirst := Rewriting.below_finished hwell htour (Renewed.refl host.disk) hdigests
  have hrenewed : Renewed host.disk (Rewriting.cardPaths host.disk sights) first.disk :=
    hfirst.renewed
  have hsecond := Rewriting.below_finished hwell htour hrenewed hdigests
  obtain ⟨hdisk, hrewritten⟩ := hsecond.again fun _ hmem => hmem
  have hkept : Renewed host.disk (Rewriting.cardPaths host.disk sights) second.disk := by
    rw [hdisk]
    exact hrenewed
  refine ⟨⟨rewrite_of_success hfirst.failure, hfirst.complete hrenewed⟩, ?_, ?_, ?_⟩
  · exact rewrite_of_success hsecond.failure
  · exact hsecond.complete hkept
  · exact ⟨hrewritten, hdisk, hsecond.skipped.trans hfirst.skipped.symm⟩

/-! ## A link out of the directory -/

/-- A directory of cards with nothing but a link to a file elsewhere, which holds an empty card. -/
def linkedCards : Host where
  disk := ⟨.directory
    [("cards", .directory [("a.json", .link "/b")]), ("b", .file [0x7B, 0x20, 0x7D])], []⟩
  environment := []
  home := none
  programs := []
  network := fun _ => .error .refused

theorem linkedCards_rewritten :
    linkedCards.disk.root.WellFormed ∧
      (rewrite linkedCards "/cards").failure = none ∧
      (rewrite linkedCards "/cards").disk.root.at? ["b"] = some (.file [0x7B, 0x7D]) := by
  have hwell : linkedCards.disk.root.WellFormed := by decide
  have hentry : linkedCards.disk.entry "/cards" = .ok (.directory [("a.json", .link "/b")]) := rfl
  have hlist : linkedCards.disk.list "/cards" = .ok [("a.json", .link "/b")] := by
    rw [Disk.list, hentry]
    exact congrArg Except.ok (List.mergeSort_singleton _)
  have htour : Collection.Tour linkedCards.disk ["/cards"] [.met "/cards/a.json"] :=
    .listed hlist .finished .finished
  have hread : linkedCards.disk.read "/cards/a.json" = .ok [0x7B, 0x20, 0x7D] := rfl
  have hload : load linkedCards.disk "/cards/a.json" = .ok [] := rfl
  have hdigests (path : String) (hmem : Sighting.met path ∈ [Sighting.met "/cards/a.json"]) :
      Rewriting.Distinguished linkedCards.disk path := by
    cases List.mem_singleton.mp hmem
    intro contents card hcontents hcard hsame
    rw [hread] at hcontents
    rw [hload] at hcard
    cases hcontents
    cases hcard
    have hother : Sha256.hexDigest [0x7B, 0x20, 0x7D] ≠ digest [] := by decide +kernel
    exact absurd hsame hother
  obtain ⟨⟨hrewrite, hcomplete⟩, _⟩ :=
    (rewrite_renews_cards linkedCards "/cards" hwell).right _ htour hdigests
  rw [hrewrite]
  have hmem : "/cards/a.json" ∈
      Rewriting.cardPaths linkedCards.disk [.met "/cards/a.json"] := by
    have hpaths : Rewriting.cardPaths linkedCards.disk [.met "/cards/a.json"] =
        ["/cards/a.json"] := rfl
    rw [hpaths]
    exact List.mem_cons_self
  rcases hcomplete.renewed.renewed _ hmem [] hload with ⟨location, hfind, hat⟩
  have hlocation : linkedCards.disk.find false "/cards/a.json" = .ok (.taken ["b"]) := rfl
  rw [hlocation] at hfind
  cases hfind
  exact ⟨hwell, rfl, hat⟩

end Program
end Cardsmith
