import Cardsmith.Proofs.Engine.Line

/-!
# Replies that nobody wants any more

Whoever waits for a reply may stop wanting it at any time: while at the door, once let in, or just
before everything fails.  The registration stays in line, and the reply that is due to it is lost.
So a run with such people in it is the run without them, with only what they would have heard left
out: two runs with the same registrations, frames and failure differ in nothing else.
-/

namespace Cardsmith
namespace Engine

/-! ## Leaving out those who are gone -/

section Gone

variable {ρ : Type} [BEq ρ]

def Notice.heard (gone : List ρ) : Notice ρ → Bool
  | .answered who _ => !gone.contains who
  | .told _ | .unasked _ | .garbled _ => true

def Effect.without (gone : List ρ) (e : Effect ρ) : Effect ρ :=
  { e with answered := e.answered.filter fun answer => !gone.contains answer.1 }

def Effect.answersTo (who : ρ) (e : Effect ρ) : List Reply :=
  (e.answered.filter fun answer => answer.1 == who).map Prod.snd

theorem Notice.answers_heard (gone : List ρ) (notices : List (Notice ρ)) :
    answers (notices.filter (heard gone)) =
      (answers notices).filter fun answer => !gone.contains answer.1 := by
  induction notices with
  | nil => rfl
  | cons notice rest ih =>
      cases notice with
      | answered who reply =>
          cases hgone : gone.contains who <;> simp_all [answers, heard]
      | told event => exact ih
      | unasked message => exact ih
      | garbled fault => exact ih

theorem Notice.events_heard (gone : List ρ) (notices : List (Notice ρ)) :
    events (notices.filter (heard gone)) = events notices := by
  induction notices with
  | nil => rfl
  | cons notice rest ih =>
      cases notice with
      | answered who reply =>
          cases hgone : gone.contains who <;> simp_all [events, heard]
      | told event => exact congrArg (event :: ·) ih
      | unasked message => exact ih
      | garbled fault => exact ih

theorem Effect.ofNotices_heard (gone : List ρ) (notices : List (Notice ρ)) :
    ofNotices (notices.filter (Notice.heard gone)) = (ofNotices notices).without gone := by
  simp only [ofNotices, without, Notice.answers_heard, Notice.events_heard]

theorem Effect.answersTo_without [LawfulBEq ρ] {gone : List ρ} {who : ρ} (h : who ∉ gone)
    (e : Effect ρ) : (e.without gone).answersTo who = e.answersTo who := by
  have hkept : ∀ answer ∈ e.answered,
      (answer.1 == who && !gone.contains answer.1) = (answer.1 == who) := by
    intro answer _
    by_cases hwho : answer.1 = who
    · simp [hwho, h]
    · simp [hwho]
  rw [answersTo, without, List.filter_filter, List.filter_congr hkept, answersTo]

end Gone

/-! ## One occurrence -/

namespace Dispatcher

variable {ρ : Type}

def allThere (d : Dispatcher ρ) : Dispatcher ρ := { d with gone := [] }

theorem allThere_of_gone {d : Dispatcher ρ} (h : d.gone = []) : d.allThere = d := by
  obtain ⟨capacity, door, pending, gone, running⟩ := d
  cases h
  rfl

variable [BEq ρ]

/-- What comes of a frame or a failure when these people are gone, from what comes of it when they
are there. -/
def amid (gone : List ρ) (outcome : List (Notice ρ) × Dispatcher ρ) :
    List (Notice ρ) × Dispatcher ρ :=
  (outcome.1.filter (Notice.heard gone), { outcome.2 with gone := gone })

theorem answer_amid (d : Dispatcher ρ) (who : ρ) (reply : Reply) :
    d.answer who reply = (d.allThere.answer who reply).filter (Notice.heard d.gone) := by
  cases hgone : d.gone.contains who <;> simp [answer, allThere, Notice.heard, hgone]

theorem answerOldest_amid (d : Dispatcher ρ) (reply : Reply) (otherwise : List (Notice ρ))
    (h : otherwise.filter (Notice.heard d.gone) = otherwise) :
    d.answerOldest reply otherwise = amid d.gone (d.allThere.answerOldest reply otherwise) := by
  obtain ⟨capacity, door, pending, gone, running⟩ := d
  cases pending with
  | nil => exact congrArg (·, _) h.symm
  | cons who rest => exact congrArg (·, _) (answer_amid _ who reply)

theorem dispatch_amid (d : Dispatcher ρ) (payload : Bytes) :
    d.dispatch payload = amid d.gone (d.allThere.dispatch payload) := by
  unfold dispatch
  cases Message.ofBytes payload with
  | error fault =>
      have hanswer := answerOldest_amid d (.error (.malformed fault)) [] rfl
      simp only [hanswer, amid]
      rfl
  | ok message =>
      cases message
      case event event => rfl
      all_goals exact answerOldest_amid d _ _ rfl

theorem lose_amid (d : Dispatcher ρ) : d.lose = amid d.gone d.allThere.lose := by
  have hanswer : d.letIn.answer = fun who reply =>
      (d.letIn.allThere.answer who reply).filter (Notice.heard d.gone) := by
    funext who reply
    exact answer_amid d.letIn who reply
  simp only [lose, hanswer, amid, List.filter_flatMap]
  rfl

/-- Those who are gone hear nothing, and all else is as if they were there. -/
theorem meet_amid (d : Dispatcher ρ) (occurrence : Occurrence ρ) :
    (d.meet occurrence).1 = (d.allThere.meet occurrence).1.without d.gone ∧
      (d.meet occurrence).2 = { (d.allThere.meet occurrence).2 with gone := d.gone } := by
  by_cases hrunning : d.running = true
  · have hrunning' : d.allThere.running = true := hrunning
    cases occurrence with
    | registration who =>
        rw [meet_registration hrunning, meet_registration hrunning']
        by_cases hroom : d.door.length < d.capacity
        · have hroom' : d.allThere.door.length < d.allThere.capacity := hroom
          rw [if_pos hroom, if_pos hroom']
          exact ⟨rfl, rfl⟩
        · have hroom' : ¬ d.allThere.door.length < d.allThere.capacity := hroom
          rw [if_neg hroom, if_neg hroom']
          exact ⟨rfl, rfl⟩
    | frame payload =>
        have hreceive : d.receive payload = amid d.gone (d.allThere.receive payload) :=
          dispatch_amid d.letIn payload
        rw [meet, meet, if_pos hrunning, if_pos hrunning', hreceive]
        exact ⟨Effect.ofNotices_heard _ _, rfl⟩
    | failure =>
        rw [meet, meet, if_pos hrunning, if_pos hrunning', lose_amid]
        exact ⟨Effect.ofNotices_heard _ _, rfl⟩
  · have hstopped : d.running = false := Bool.eq_false_iff.mpr hrunning
    have hstopped' : d.allThere.running = false := hstopped
    rw [meet_of_stopped hstopped, meet_of_stopped hstopped']
    exact ⟨rfl, rfl⟩

theorem meet_allThere (d : Dispatcher ρ) (occurrence : Occurrence ρ) :
    (d.meet occurrence).2.gone = d.gone ∧
      (d.meet occurrence).2.allThere = (d.allThere.meet occurrence).2 := by
  rcases meet_line (d := d.allThere) rfl occurrence with ⟨next, hmeet, _, hgone, _⟩
  have hnext : (d.allThere.meet occurrence).2.gone = [] := by rw [hmeet, hgone]
  rw [(meet_amid d occurrence).2]
  exact ⟨rfl, allThere_of_gone hnext⟩

end Dispatcher

/-! ## Runs in which people go away -/

inductive Happening (ρ : Type) where
  | occurrence (met : Occurrence ρ)
  | abandonment (who : ρ)
  deriving Repr, DecidableEq

namespace Happening

variable {ρ : Type}

def occurrence? : Happening ρ → Option (Occurrence ρ)
  | .occurrence met => some met
  | .abandonment _ => none

/-- Who is gone at each occurrence, if these people are gone before. -/
def absences (gone : List ρ) : List (Happening ρ) → List (List ρ)
  | [] => []
  | .occurrence _ :: rest => gone :: absences gone rest
  | .abandonment who :: rest => absences (who :: gone) rest

theorem length_absences (gone : List ρ) (happenings : List (Happening ρ)) :
    (absences gone happenings).length = (happenings.filterMap occurrence?).length := by
  induction happenings generalizing gone with
  | nil => rfl
  | cons happening rest ih =>
      cases happening with
      | occurrence met => exact congrArg (· + 1) (ih gone)
      | abandonment who => exact ih (who :: gone)

theorem not_mem_absences {gone : List ρ} {happenings : List (Happening ρ)} {who : ρ}
    (hgone : who ∉ gone) (hstays : .abandonment who ∉ happenings) :
    ∀ absent ∈ absences gone happenings, who ∉ absent := by
  induction happenings generalizing gone with
  | nil => simp [absences]
  | cons happening rest ih =>
      rw [List.mem_cons, not_or] at hstays
      rcases hstays with ⟨hother, hrest⟩
      cases happening with
      | occurrence met =>
          intro absent hmem
          rcases List.mem_cons.mp hmem with hnow | hlater
          · rw [hnow]
            exact hgone
          · exact ih hgone hrest absent hlater
      | abandonment other =>
          have hne : who ≠ other := by
            intro hsame
            exact hother (congrArg _ hsame)
          exact ih (List.not_mem_cons_of_ne_of_not_mem hne hgone) hrest

end Happening

namespace Dispatcher

variable {ρ : Type} [BEq ρ]

def attend (d : Dispatcher ρ) : List (Happening ρ) → List (Effect ρ) × Dispatcher ρ
  | [] => ([], d)
  | .occurrence met :: rest =>
      ((d.meet met).1 :: ((d.meet met).2.attend rest).1, ((d.meet met).2.attend rest).2)
  | .abandonment who :: rest => (d.abandon who).attend rest

/-- A run is the run in which nobody goes away, without what those who are gone would have
heard. -/
theorem attend_eq (d : Dispatcher ρ) (happenings : List (Happening ρ)) :
    let calm := replay meet d.allThere (happenings.filterMap Happening.occurrence?)
    (d.attend happenings).1 =
        List.zipWith Effect.without (Happening.absences d.gone happenings) calm.1 ∧
      (d.attend happenings).2.allThere = calm.2 := by
  induction happenings generalizing d with
  | nil => exact ⟨rfl, rfl⟩
  | cons happening rest ih =>
      cases happening with
      | occurrence met =>
          rcases meet_allThere d met with ⟨hgone, hthere⟩
          rcases ih (d.meet met).2 with ⟨heffects, hlast⟩
          rw [hgone, hthere] at heffects
          rw [hthere] at hlast
          refine ⟨?_, hlast⟩
          rw [attend, heffects, (meet_amid d met).1]
          rfl
      | abandonment who => exact ih (d.abandon who)

end Dispatcher

namespace Effect

variable {ρ : Type} [BEq ρ]

theorem map_zipWith_without {α : Type} {view : Effect ρ → α} {absences : List (List ρ)}
    (hview : ∀ absent ∈ absences, ∀ e : Effect ρ, view (e.without absent) = view e)
    {effects : List (Effect ρ)} (hlength : absences.length = effects.length) :
    (List.zipWith without absences effects).map view = effects.map view := by
  induction absences generalizing effects with
  | nil =>
      cases effects with
      | nil => rfl
      | cons e rest => cases hlength
  | cons absent more ih =>
      cases effects with
      | nil => cases hlength
      | cons e rest =>
          have hrest := ih (fun absent hmem => hview absent (List.mem_cons_of_mem _ hmem))
            (Nat.succ.inj hlength)
          rw [List.zipWith_cons_cons, List.map_cons, List.map_cons, hrest,
            hview absent List.mem_cons_self]

end Effect

namespace Dispatcher

variable {ρ : Type} [BEq ρ]

/-- Whoever goes away shifts no reply.  A run in which people stop wanting their replies, whenever
they do so, is the run in which everybody goes on waiting, with what is due to those who are gone
at the time left out: they keep their places, the same are registered, the same events are told,
the dispatcher stops at the same time, and everybody who never went away is answered the same at
every step. -/
theorem abandonment_shifts_no_reply [LawfulBEq ρ] (capacity : Nat)
    (happenings : List (Happening ρ)) :
    let run := attend (start capacity) happenings
    let calm := replay meet (start capacity) (happenings.filterMap Happening.occurrence?)
    run.1 = List.zipWith Effect.without (Happening.absences [] happenings) calm.1 ∧
      run.2.door = calm.2.door ∧ run.2.pending = calm.2.pending ∧
      run.2.running = calm.2.running ∧
      run.1.map (·.registered) = calm.1.map (·.registered) ∧
      run.1.map (·.told) = calm.1.map (·.told) ∧
      ∀ who, .abandonment who ∉ happenings →
        run.1.map (·.answersTo who) = calm.1.map (·.answersTo who) := by
  intro run calm
  have hlength : (Happening.absences [] happenings).length = calm.1.length := by
    rw [Happening.length_absences, length_replay]
  rcases attend_eq (start capacity) happenings with ⟨heffects, hlast⟩
  have heffects : run.1 =
      List.zipWith Effect.without (Happening.absences [] happenings) calm.1 := heffects
  have hlast : run.2.allThere = calm.2 := hlast
  have hdoor : run.2.door = calm.2.door := by rw [← hlast]; rfl
  have hpending : run.2.pending = calm.2.pending := by rw [← hlast]; rfl
  have hrunning : run.2.running = calm.2.running := by rw [← hlast]; rfl
  refine ⟨heffects, hdoor, hpending, hrunning, ?_, ?_, ?_⟩
  · rw [heffects]
    exact Effect.map_zipWith_without (fun _ _ _ => rfl) hlength
  · rw [heffects]
    exact Effect.map_zipWith_without (fun _ _ _ => rfl) hlength
  · intro who hstays
    rw [heffects]
    refine Effect.map_zipWith_without (fun absent hmem e => ?_) hlength
    exact e.answersTo_without
      (Happening.not_mem_absences List.not_mem_nil hstays absent hmem)

/-- The first goes away at the door and the third once let in; the second is still to be replied
to, and the fourth is there when the connection fails. -/
def desertion : List (Happening Nat) :=
  [.occurrence (.registration 1), .occurrence (.registration 2), .occurrence (.registration 3),
    .abandonment 1, .occurrence (.frame (Message.returnValue .null).bytes), .abandonment 3,
    .occurrence (.frame (Message.imported "cards").bytes), .occurrence (.registration 4),
    .occurrence .failure]

theorem desertion_shifts_no_reply :
    .abandonment 2 ∉ desertion ∧
      (attend (start 3) desertion).1.map (·.answersTo 2) =
        (replay meet (start 3) (desertion.filterMap Happening.occurrence?)).1.map
          (·.answersTo 2) ∧
      (attend (start 3) desertion).1.flatMap (·.answered) =
        [(2, .ok (.imported "cards")), (4, .error (.connection .lost))] := by
  have hstays : .abandonment 2 ∉ desertion := by decide
  refine ⟨hstays, ?_, rfl⟩
  exact (abandonment_shifts_no_reply 3 desertion).2.2.2.2.2.2 2 hstays

end Dispatcher

end Engine
end Cardsmith
