import Mathlib.Data.List.Infix
import Cardsmith.Engine.Session
import Cardsmith.Proofs.Engine.Line
import Cardsmith.Proofs.Json.Admitted

/-!
# Pushed frames

An engine replies to every registration in turn and pushes other frames in between.  A frame of
which no message can be read is taken for the reply that the oldest registration waits for, even
if it was meant to tell of an event.  So everyone gets their own reply exactly if no such frame
comes while somebody waits.
-/

namespace Cardsmith
namespace Engine

/-! ## Replies among frames -/

def readReply? (payload : Bytes) : Option Message :=
  match Message.ofBytes payload with
  | .ok (.event _) => none
  | .ok message => some message
  | .error _ => none

/-- The kind of the frame can be read, and is that of events; what else is in it does not matter. -/
def TellsOfEvent (payload : Bytes) : Prop :=
  ∃ body rest, Envelope.read (payload.length + 1) payload = .ok (⟨.event, body⟩, rest)

theorem content_cases (payload : Bytes) :
    (∃ told, Content.ofFrame payload = .event told ∧ readReply? payload = none) ∨
      (∃ message, Content.ofFrame payload = .reply (.ok message) ∧
        readReply? payload = some message) ∨
      (∃ fault, Message.ofBytes payload = .error fault ∧
        Content.ofFrame payload = .reply (.error (.malformed fault)) ∧
        readReply? payload = none) := by
  unfold Content.ofFrame readReply?
  cases Message.ofBytes payload with
  | error fault => exact Or.inr (Or.inr ⟨fault, rfl, rfl, rfl⟩)
  | ok message =>
      cases message with
      | event told => exact Or.inl ⟨told, rfl, rfl⟩
      | _ => exact Or.inr (Or.inl ⟨_, rfl, rfl⟩)

def repliesRead {ρ : Type} (occurrences : List (Occurrence ρ)) : List Message :=
  (framesRead occurrences).filterMap readReply?

theorem framesRead_append {ρ : Type} {before : List (Occurrence ρ)} (h : .failure ∉ before)
    (after : List (Occurrence ρ)) :
    framesRead (before ++ after) = framesRead before ++ framesRead after := by
  induction before with
  | nil => rfl
  | cons occurrence rest ih =>
      have hrest : .failure ∉ rest := fun hmem => h (List.mem_cons_of_mem _ hmem)
      cases occurrence with
      | registration who => exact ih hrest
      | frame payload => exact congrArg (payload :: ·) (ih hrest)
      | failure => exact absurd List.mem_cons_self h

theorem repliesRead_append {ρ : Type} {before : List (Occurrence ρ)} (h : .failure ∉ before)
    (after : List (Occurrence ρ)) :
    repliesRead (before ++ after) = repliesRead before ++ repliesRead after := by
  unfold repliesRead
  rw [framesRead_append h, List.filterMap_append]

theorem repliesRead_frame {ρ : Type} (payload : Bytes) :
    repliesRead [(.frame payload : Occurrence ρ)] = (readReply? payload).toList := by
  unfold repliesRead framesRead framesRead
  cases h : readReply? payload with
  | none => exact List.filterMap_cons_none h
  | some message => exact List.filterMap_cons_some h

/-! ## Registrations and their answers -/

namespace Dispatcher

variable {ρ : Type} [BEq ρ]

def afterRun (capacity : Nat) (occurrences : List (Occurrence ρ)) : Dispatcher ρ :=
  (replay meet (start capacity) occurrences).2

def registeredIn (capacity : Nat) (occurrences : List (Occurrence ρ)) : List ρ :=
  (replay meet (start capacity) occurrences).1.flatMap (·.registered)

def answeredIn (capacity : Nat) (occurrences : List (Occurrence ρ)) : List (ρ × Reply) :=
  (replay meet (start capacity) occurrences).1.flatMap (·.answered)

variable {capacity : Nat}

theorem registeredIn_concat (before : List (Occurrence ρ)) (occurrence : Occurrence ρ) :
    registeredIn capacity (before ++ [occurrence]) =
      registeredIn capacity before ++ ((afterRun capacity before).meet occurrence).1.registered := by
  unfold registeredIn
  rw [replay_concat, List.flatMap_append, List.flatMap_singleton]
  rfl

theorem answeredIn_concat (before : List (Occurrence ρ)) (occurrence : Occurrence ρ) :
    answeredIn capacity (before ++ [occurrence]) =
      answeredIn capacity before ++ ((afterRun capacity before).meet occurrence).1.answered := by
  unfold answeredIn
  rw [replay_concat, List.flatMap_append, List.flatMap_singleton]
  rfl

/-- Whoever is registered has been answered, in turn, or waits. -/
theorem registeredIn_eq (capacity : Nat) (occurrences : List (Occurrence ρ)) :
    registeredIn capacity occurrences =
      (answeredIn capacity occurrences).map Prod.fst ++
        (afterRun capacity occurrences).line.waiting := by
  have hthere : (start capacity : Dispatcher ρ).gone = [] := rfl
  rcases replay_line hthere occurrences with ⟨last, hrun, hline, _, _⟩
  unfold registeredIn answeredIn afterRun
  rw [hrun, hline]
  exact Line.replay_waiting capacity .start occurrences

theorem afterRun_running {occurrences : List (Occurrence ρ)} (h : .failure ∉ occurrences) :
    (afterRun capacity occurrences).running = true :=
  (after_replay capacity occurrences).running.mpr h

theorem answered_registration (d : Dispatcher ρ) (who : ρ) :
    (d.meet (.registration who)).1.answered = [] := by
  rw [meet]
  split <;> rfl

theorem registered_frame {occurrences : List (Occurrence ρ)} (h : .failure ∉ occurrences)
    (payload : Bytes) :
    ((afterRun capacity occurrences).meet (.frame payload)).1.registered = [] := by
  rw [meet, if_pos (afterRun_running h)]
  rfl

theorem answered_event {occurrences : List (Occurrence ρ)} (h : .failure ∉ occurrences)
    {payload : Bytes} {told : Event} (hcontent : Content.ofFrame payload = .event told) :
    ((afterRun capacity occurrences).meet (.frame payload)).1.answered = [] := by
  rw [meet_event (afterRun_running h) hcontent]

theorem answered_reply {occurrences : List (Occurrence ρ)} (h : .failure ∉ occurrences)
    {payload : Bytes} {reply : Reply} (hcontent : Content.ofFrame payload = .reply reply) :
    ((afterRun capacity occurrences).meet (.frame payload)).1.answered =
      ((afterRun capacity occurrences).line.waiting.take 1).map fun who => (who, reply) := by
  rw [meet_reply (afterRun_running h) (after_replay capacity occurrences).there hcontent]
  rfl

theorem answeredIn_stays (before after : List (Occurrence ρ)) :
    answeredIn capacity before <+: answeredIn capacity (before ++ after) := by
  induction after using List.reverseRecOn with
  | nil => rw [List.append_nil]
  | append_singleton after occurrence ih =>
      rw [← List.append_assoc, answeredIn_concat]
      exact ih.trans (List.prefix_append _ _)

/-! ## Everyone's own reply -/

/-- The engine gives one reply that can be read to everyone who is registered, in turn and never
before the registration; what else it sends is left open. -/
structure RepliedInTurn (capacity : Nat) (occurrences : List (Occurrence ρ)) : Prop where
  connected : .failure ∉ occurrences
  after : ∀ before ∈ occurrences.inits,
    (repliesRead before).length ≤ (registeredIn capacity before).length
  all : (repliesRead occurrences).length = (registeredIn capacity occurrences).length

/-- Frames of which no message can be read come only while nobody waits. -/
def Untroubled (capacity : Nat) (occurrences : List (Occurrence ρ)) : Prop :=
  ∀ before payload after fault, occurrences = before ++ .frame payload :: after →
    Message.ofBytes payload = .error fault → (afterRun capacity before).line.waiting = []

theorem Untroubled.of_concat {before : List (Occurrence ρ)} {occurrence : Occurrence ρ}
    (h : Untroubled capacity (before ++ [occurrence])) : Untroubled capacity before := by
  intro earlier payload after fault hbefore hfault
  refine h earlier payload (after ++ [occurrence]) fault ?_ hfault
  rw [hbefore, List.append_assoc, List.cons_append]

theorem exists_waiting {before : List (Occurrence ρ)} {replies : Nat}
    (hanswered : (answeredIn capacity before).length = replies)
    (hafter : replies + 1 ≤ (registeredIn capacity before).length) :
    ∃ who rest, (afterRun capacity before).line.waiting = who :: rest := by
  apply List.exists_cons_of_length_pos
  have hlength := congrArg List.length (registeredIn_eq capacity before)
  rw [List.length_append, List.length_map] at hlength
  omega

theorem answers_of_untroubled {occurrences : List (Occurrence ρ)}
    (hconnected : .failure ∉ occurrences)
    (hafter : ∀ before ∈ occurrences.inits,
      (repliesRead before).length ≤ (registeredIn capacity before).length)
    (h : Untroubled capacity occurrences) :
    (answeredIn capacity occurrences).map Prod.snd = (repliesRead occurrences).map .ok := by
  induction occurrences using List.reverseRecOn with
  | nil => rfl
  | append_singleton before occurrence ih =>
      have hearlier : .failure ∉ before := fun hmem => hconnected (List.mem_append_left _ hmem)
      have hinits (first : List (Occurrence ρ)) (hfirst : first ∈ before.inits) :
          first ∈ (before ++ [occurrence]).inits :=
        (List.mem_inits _ _).mpr (((List.mem_inits _ _).mp hfirst).trans (List.prefix_append _ _))
      have hbefore := ih hearlier (fun first hfirst => hafter first (hinits first hfirst))
        h.of_concat
      rw [answeredIn_concat, repliesRead_append hearlier, List.map_append, List.map_append, hbefore]
      congr 1
      cases occurrence with
      | registration who =>
          rw [answered_registration]
          rfl
      | failure => exact absurd List.mem_append_cons_self hconnected
      | frame payload =>
          rw [repliesRead_frame]
          rcases content_cases payload with
            ⟨told, hcontent, hread⟩ | ⟨message, hcontent, hread⟩ | ⟨fault, hfault, hcontent, hread⟩
          · rw [answered_event hearlier hcontent, hread]
            rfl
          · have hlast := hafter _ ((List.mem_inits _ _).mpr (List.prefix_refl _))
            rw [repliesRead_append hearlier, repliesRead_frame, hread, registeredIn_concat,
              registered_frame hearlier, List.append_nil, List.length_append] at hlast
            have hanswered : (answeredIn capacity before).length = (repliesRead before).length := by
              have hlength := congrArg List.length hbefore
              rwa [List.length_map, List.length_map] at hlength
            rcases exists_waiting hanswered hlast with ⟨who, rest, hwaiting⟩
            rw [answered_reply hearlier hcontent, hwaiting, hread]
            rfl
          · rw [answered_reply hearlier hcontent, h before payload [] fault rfl hfault, hread]
            rfl

/-- A frame that cannot be read comes to whoever has waited longest. -/
theorem garbled_mem_answeredIn {before : List (Occurrence ρ)} {payload : Bytes}
    {fault : Json.Fault} {who : ρ} {rest : List ρ} (after : List (Occurrence ρ))
    (hconnected : .failure ∉ before) (hfault : Message.ofBytes payload = .error fault)
    (hwaiting : (afterRun capacity before).line.waiting = who :: rest) :
    (who, .error (.malformed fault)) ∈ answeredIn capacity (before ++ .frame payload :: after) := by
  have hcontent : Content.ofFrame payload = .reply (.error (.malformed fault)) := by
    rw [Content.ofFrame, hfault]
  have hmem : (who, .error (.malformed fault)) ∈ answeredIn capacity (before ++ [.frame payload]) := by
    rw [answeredIn_concat, answered_reply hconnected hcontent, hwaiting]
    exact List.mem_append_right _ List.mem_cons_self
  rw [← List.singleton_append, ← List.append_assoc]
  exact (answeredIn_stays _ after).subset hmem

/-- Where the engine gives one reply to everyone in turn, all get their own exactly if every frame
that cannot be read comes while nobody waits.  So events never get in the way as long as they can
be read, and one that cannot be read takes the place of somebody's reply. -/
theorem own_replies_iff_untroubled {occurrences : List (Occurrence ρ)}
    (h : RepliedInTurn capacity occurrences) :
    (answeredIn capacity occurrences =
        (registeredIn capacity occurrences).zip ((repliesRead occurrences).map .ok) ↔
      Untroubled capacity occurrences) ∧
    ((∀ payload ∈ framesRead occurrences, ∃ message, Message.ofBytes payload = .ok message) →
      answeredIn capacity occurrences =
        (registeredIn capacity occurrences).zip ((repliesRead occurrences).map .ok)) := by
  have own_of_untroubled (huntroubled : Untroubled capacity occurrences) :
      answeredIn capacity occurrences =
        (registeredIn capacity occurrences).zip ((repliesRead occurrences).map .ok) := by
    have hreplies := answers_of_untroubled h.connected h.after huntroubled
    have hline := registeredIn_eq capacity occurrences
    have hnobody : (afterRun capacity occurrences).line.waiting = [] := by
      have hlength := congrArg List.length hline
      have hcount := congrArg List.length hreplies
      rw [List.length_append, List.length_map, ← h.all] at hlength
      rw [List.length_map, List.length_map] at hcount
      exact List.eq_nil_of_length_eq_zero (by omega)
    rw [hline, hnobody, List.append_nil, ← hreplies]
    exact (List.zip_of_prod rfl rfl)
  refine ⟨⟨?_, own_of_untroubled⟩, ?_⟩
  · intro hown before payload after fault hrun hfault
    have hconnected : .failure ∉ before := by
      intro hmem
      apply h.connected
      rw [hrun]
      exact List.mem_append_left _ hmem
    cases hwaiting : (afterRun capacity before).line.waiting with
    | nil => rfl
    | cons who rest =>
        have hmem := garbled_mem_answeredIn after hconnected hfault hwaiting
        rw [← hrun, hown] at hmem
        rcases List.mem_map.mp (List.of_mem_zip hmem).right with ⟨message, _, hmessage⟩
        cases hmessage
  · intro hreadable
    apply own_of_untroubled
    intro before payload after fault hrun hfault
    have hread : payload ∈ framesRead occurrences := by
      have hconnected := h.connected
      rw [hrun] at hconnected ⊢
      rw [framesRead_append fun hmem => hconnected (List.mem_append_left _ hmem)]
      exact List.mem_append_right _ List.mem_cons_self
    rcases hreadable payload hread with ⟨message, hmessage⟩
    rw [hmessage] at hfault
    cases hfault

def namelessEvent : Bytes := Utf8.encode (Json.Value.object [("Type", .string "Event")]).compact

theorem tellsOfEvent_namelessEvent : TellsOfEvent namelessEvent := ⟨_, _, rfl⟩

def calm : List (Occurrence Nat) :=
  [.registration 0, .frame (Message.event ⟨"GameOver", .null⟩).bytes,
    .frame (Message.returnValue (.bool true)).bytes, .frame namelessEvent]

theorem own_replies_in_calm :
    RepliedInTurn doorCapacity calm ∧
      answeredIn doorCapacity calm = [(0, .ok (.returnValue (.bool true)))] ∧
      Untroubled doorCapacity calm := by
  have hreplied : RepliedInTurn doorCapacity calm := ⟨by decide, by decide, by decide⟩
  have hown : answeredIn doorCapacity calm = [(0, .ok (.returnValue (.bool true)))] := rfl
  exact ⟨hreplied, hown, (own_replies_iff_untroubled hreplied).left.mp hown⟩

def shifted : List (Occurrence Nat) :=
  [.registration 0, .registration 1, .frame namelessEvent,
    .frame (Message.returnValue (.bool false)).bytes,
    .frame (Message.returnValue (.bool true)).bytes]

/-- The event takes the place of the first reply, which goes to the second one who waits. -/
theorem nameless_event_shifts_replies :
    RepliedInTurn doorCapacity shifted ∧
      (∀ payload ∈ framesRead shifted, readReply? payload = none → TellsOfEvent payload) ∧
      repliesRead shifted = [.returnValue (.bool false), .returnValue (.bool true)] ∧
      (∃ fault, answeredIn doorCapacity shifted =
        [(0, .error (.malformed fault)), (1, .ok (.returnValue (.bool false)))]) ∧
      answeredIn doorCapacity shifted ≠
        (registeredIn doorCapacity shifted).zip ((repliesRead shifted).map .ok) := by
  have hreplied : RepliedInTurn doorCapacity shifted := ⟨by decide, by decide, by decide⟩
  refine ⟨hreplied, ?_, rfl, ⟨_, rfl⟩, by decide⟩
  intro payload hread hnone
  have hframes : framesRead shifted = [namelessEvent, (Message.returnValue (.bool false)).bytes,
    (Message.returnValue (.bool true)).bytes] := rfl
  rw [hframes] at hread
  rcases List.mem_cons.mp hread with rfl | hread
  · exact tellsOfEvent_namelessEvent
  · rcases List.mem_cons.mp hread with rfl | hread
    · cases hnone
    · rw [List.mem_singleton.mp hread] at hnone
      cases hnone

end Dispatcher

end Engine
end Cardsmith
