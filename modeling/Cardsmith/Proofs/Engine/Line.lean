import Mathlib.Data.List.Basic
import Mathlib.Data.List.Induction
import Cardsmith.Engine.Dispatcher

/-!
# One line of registrations

The door of a dispatcher and those it has let in are together one line: whoever registers goes to
its end, every frame but an event takes its first, and a failure takes all that are left.  When
the registrations at the door are let in makes no difference to who is answered what; it only
decides how many can register between two frames.
-/

namespace Cardsmith
namespace Engine

/-! ## What frames hold -/

inductive Content where
  | event (event : Event)
  | reply (reply : Reply)

/-- What a frame holds; one without a message is a reply too. -/
def Content.ofFrame (payload : Bytes) : Content :=
  match Message.ofBytes payload with
  | .ok (.event told) => .event told
  | .ok message => .reply (.ok message)
  | .error fault => .reply (.error (.malformed fault))

def Content.event? : Content → Option Event
  | .event told => some told
  | .reply _ => none

def Content.reply? : Content → Option Reply
  | .event _ => none
  | .reply outcome => some outcome

/-! ## Runs -/

def replay {σ ι ε : Type} (step : ι → σ → ε × σ) (s : σ) : List ι → List ε × σ
  | [] => ([], s)
  | i :: rest =>
      ((step i s).1 :: (replay step (step i s).2 rest).1, (replay step (step i s).2 rest).2)

theorem replay_concat {σ ι ε : Type} (step : ι → σ → ε × σ) (s : σ) (inputs : List ι) (i : ι) :
    replay step s (inputs ++ [i]) =
      ((replay step s inputs).1 ++ [(step i (replay step s inputs).2).1],
        (step i (replay step s inputs).2).2) := by
  induction inputs generalizing s with
  | nil => rfl
  | cons first rest ih =>
      rw [List.cons_append, replay, ih]
      rfl

theorem length_replay {σ ι ε : Type} (step : ι → σ → ε × σ) (s : σ) (inputs : List ι) :
    (replay step s inputs).1.length = inputs.length := by
  induction inputs generalizing s with
  | nil => rfl
  | cons first rest ih => exact congrArg (· + 1) (ih _)

inductive Occurrence (ρ : Type) where
  | registration (who : ρ)
  | frame (payload : Bytes)
  | failure
  deriving Repr, DecidableEq

structure Effect (ρ : Type) where
  registered : List ρ
  answered : List (ρ × Reply)
  told : List Event

namespace Effect

variable {ρ : Type}

def none : Effect ρ := ⟨[], [], []⟩

def accepted (who : ρ) : Effect ρ := ⟨[who], [], []⟩

def ofNotices (notices : List (Notice ρ)) : Effect ρ :=
  ⟨[], Notice.answers notices, Notice.events notices⟩

end Effect

def Dispatcher.meet {ρ : Type} [BEq ρ] :
    Occurrence ρ → Dispatcher ρ → Effect ρ × Dispatcher ρ
  | .registration who, d =>
      match d.register? who with
      | some d => (.accepted who, d)
      | Option.none => (.none, d)
  | .frame payload, d =>
      if d.running then
        let (notices, d) := d.receive payload
        (.ofNotices notices, d)
      else (.none, d)
  | .failure, d =>
      if d.running then
        let (notices, d) := d.lose
        (.ofNotices notices, d)
      else (.none, d)

/-! ## Lines -/

/-- Registrations in one line. -/
structure Line (ρ : Type) where
  waiting : List ρ
  fresh : Nat
  running : Bool

namespace Line

variable {ρ : Type}

def start : Line ρ := ⟨[], 0, true⟩

/-- What comes of an occurrence at a line that is served, into which so many can come between two
frames. -/
def serve (capacity : Nat) (l : Line ρ) : Occurrence ρ → Effect ρ × Line ρ
  | .registration who =>
      if l.fresh < capacity then
        (.accepted who, { l with waiting := l.waiting ++ [who], fresh := l.fresh + 1 })
      else (.none, l)
  | .frame payload =>
      match Content.ofFrame payload with
      | .event told => (⟨[], [], [told]⟩, { l with fresh := 0 })
      | .reply reply =>
          (⟨[], (l.waiting.take 1).map fun who => (who, reply), []⟩,
            { l with waiting := l.waiting.drop 1, fresh := 0 })
  | .failure =>
      (⟨[], l.waiting.map fun who => (who, .error (.connection .lost)), []⟩, ⟨[], 0, false⟩)

def meet (capacity : Nat) (occurrence : Occurrence ρ) (l : Line ρ) : Effect ρ × Line ρ :=
  if l.running then l.serve capacity occurrence else (.none, l)

theorem map_fst_map_mk {α β : Type} (xs : List α) (b : β) :
    (xs.map fun x => (x, b)).map Prod.fst = xs := by
  rw [List.map_map]
  exact List.map_id xs

/-- Those who wait and those who come are those who are answered and those who wait then. -/
theorem meet_waiting (capacity : Nat) (occurrence : Occurrence ρ) (l : Line ρ) :
    l.waiting ++ (l.meet capacity occurrence).1.registered =
      (l.meet capacity occurrence).1.answered.map Prod.fst ++
        (l.meet capacity occurrence).2.waiting := by
  unfold meet
  split_ifs
  · cases occurrence with
    | registration who =>
        simp only [serve]
        split_ifs
        · simp [Effect.accepted]
        · simp [Effect.none]
    | frame payload =>
        simp only [serve]
        cases Content.ofFrame payload with
        | event told => simp
        | reply reply => simp only [map_fst_map_mk, List.append_nil, List.take_append_drop]
    | failure => simp only [serve, map_fst_map_mk]
  · simp [Effect.none]

end Line

/-! ## Notices of replies -/

namespace Notice

variable {ρ : Type}

theorem answers_append (first second : List (Notice ρ)) :
    answers (first ++ second) = answers first ++ answers second := List.filterMap_append

theorem answers_map_answered (waiting : List ρ) (reply : Reply) :
    answers (waiting.map fun who => .answered who reply) = waiting.map fun who => (who, reply) := by
  induction waiting with
  | nil => rfl
  | cons who rest ih =>
      rw [List.map_cons, List.map_cons, ← ih]
      rfl

theorem events_map_answered (waiting : List ρ) (reply : Reply) :
    events (waiting.map fun who => .answered who reply) = [] := by
  rw [events, List.filterMap_map]
  exact List.filterMap_eq_nil_iff.mpr fun _ _ => rfl

structure Delivers (notices : List (Notice ρ)) (waiting : List ρ) (reply : Reply) : Prop where
  answers : answers notices = (waiting.take 1).map fun who => (who, reply)
  events : events notices = []
  /-- It is reported as unasked only if nobody waits. -/
  asked : ∀ message, .unasked message ∈ notices → waiting = []

theorem delivers_oldest (waiting : List ρ) (reply : Reply) {otherwise : List (Notice ρ)}
    (hanswers : answers otherwise = []) (hevents : events otherwise = []) :
    Delivers
      (match waiting with
        | [] => otherwise
        | who :: _ => [.answered who reply])
      waiting reply := by
  cases waiting with
  | nil => exact ⟨hanswers, hevents, fun _ _ => rfl⟩
  | cons who rest => exact ⟨rfl, rfl, by simp⟩

theorem Delivers.garbled {notices : List (Notice ρ)} {waiting : List ρ} {reply : Reply}
    (h : Delivers notices waiting reply) (fault : Json.Fault) :
    Delivers (.garbled fault :: notices) waiting reply where
  answers := h.answers
  events := h.events
  asked := by
    intro message hmem
    rcases List.mem_cons.mp hmem with hfault | hmem
    · cases hfault
    · exact h.asked message hmem

end Notice

/-! ## Dispatchers as lines -/

namespace Dispatcher

variable {ρ : Type}

def line (d : Dispatcher ρ) : Line ρ := ⟨d.pending ++ d.door, d.door.length, d.running⟩

theorem register?_eq (d : Dispatcher ρ) (who : ρ) :
    d.register? who =
      if d.running = true ∧ d.door.length < d.capacity then
        some { d with door := d.door ++ [who] }
      else none := by
  simp [register?]

variable [BEq ρ]

theorem dispatch_event {payload : Bytes} {told : Event}
    (h : Content.ofFrame payload = .event told) (d : Dispatcher ρ) :
    d.dispatch payload = ([.told told], d) := by
  unfold Content.ofFrame at h
  unfold dispatch
  cases hmessage : Message.ofBytes payload with
  | error fault =>
      rw [hmessage] at h
      cases h
  | ok message =>
      rw [hmessage] at h
      cases message <;> cases h
      rfl

theorem answerOldest_of_all_there {d : Dispatcher ρ} (hthere : d.gone = []) (reply : Reply)
    (otherwise : List (Notice ρ)) :
    d.answerOldest reply otherwise =
      (match d.pending with
        | [] => otherwise
        | who :: _ => [.answered who reply],
        { d with pending := d.pending.drop 1 }) := by
  obtain ⟨capacity, door, pending, gone, running⟩ := d
  cases hthere
  cases pending <;> rfl

theorem dispatch_reply {payload : Bytes} {reply : Reply}
    (h : Content.ofFrame payload = .reply reply) {d : Dispatcher ρ} (hthere : d.gone = []) :
    ∃ notices, d.dispatch payload = (notices, { d with pending := d.pending.drop 1 }) ∧
      Notice.Delivers notices d.pending reply := by
  unfold Content.ofFrame at h
  unfold dispatch
  simp only [answerOldest_of_all_there hthere]
  cases hmessage : Message.ofBytes payload with
  | error fault =>
      rw [hmessage] at h
      cases h
      exact ⟨_, rfl, (Notice.delivers_oldest d.pending _ rfl rfl).garbled fault⟩
  | ok message =>
      rw [hmessage] at h
      cases message <;> cases h
      all_goals exact ⟨_, rfl, Notice.delivers_oldest d.pending _ rfl rfl⟩

theorem lose_of_all_there {d : Dispatcher ρ} (hthere : d.gone = []) :
    d.lose =
      ((d.pending ++ d.door).map fun who => .answered who (.error (.connection .lost)),
        { d with door := [], pending := [], running := false }) := by
  obtain ⟨capacity, door, pending, gone, running⟩ := d
  cases hthere
  simp only [lose, letIn, answer, List.contains_nil, Bool.false_eq_true, if_false]
  rw [List.map_eq_flatMap]

/-! ## What each occurrence does -/

theorem meet_of_stopped {d : Dispatcher ρ} (h : d.running = false) (occurrence : Occurrence ρ) :
    d.meet occurrence = (.none, d) := by
  cases occurrence <;> simp [meet, register?_eq, h]

theorem meet_registration {d : Dispatcher ρ} (hrunning : d.running = true) (who : ρ) :
    d.meet (.registration who) =
      if d.door.length < d.capacity then (.accepted who, { d with door := d.door ++ [who] })
      else (.none, d) := by
  simp only [meet, register?_eq, hrunning, true_and]
  split_ifs <;> simp_all

theorem meet_event {d : Dispatcher ρ} (hrunning : d.running = true) {payload : Bytes}
    {told : Event} (h : Content.ofFrame payload = .event told) :
    d.meet (.frame payload) = (⟨[], [], [told]⟩, d.letIn) := by
  rw [meet, if_pos hrunning, receive, dispatch_event h]
  rfl

theorem meet_reply {d : Dispatcher ρ} (hrunning : d.running = true) (hthere : d.gone = [])
    {payload : Bytes} {reply : Reply} (h : Content.ofFrame payload = .reply reply) :
    d.meet (.frame payload) =
      (⟨[], ((d.pending ++ d.door).take 1).map fun who => (who, reply), []⟩,
        { d with door := [], pending := (d.pending ++ d.door).drop 1 }) := by
  have hletIn : d.letIn.gone = [] := hthere
  rcases dispatch_reply h hletIn with ⟨notices, hdispatch, hdelivers⟩
  rw [meet, if_pos hrunning, receive, hdispatch]
  simp only [Effect.ofNotices, hdelivers.answers, hdelivers.events]
  rfl

theorem meet_failure {d : Dispatcher ρ} (hrunning : d.running = true) (hthere : d.gone = []) :
    d.meet .failure =
      (⟨[], (d.pending ++ d.door).map fun who => (who, .error (.connection .lost)), []⟩,
        { d with door := [], pending := [], running := false }) := by
  rw [meet, if_pos hrunning, lose_of_all_there hthere]
  simp only [Effect.ofNotices, Notice.answers_map_answered, Notice.events_map_answered]

theorem meet_line {d : Dispatcher ρ} (hthere : d.gone = []) (occurrence : Occurrence ρ) :
    ∃ next, d.meet occurrence = ((d.line.meet d.capacity occurrence).1, next) ∧
      next.line = (d.line.meet d.capacity occurrence).2 ∧
      next.gone = [] ∧ next.capacity = d.capacity := by
  by_cases hrunning : d.running = true
  · have hline : d.line.meet d.capacity occurrence = d.line.serve d.capacity occurrence :=
      if_pos hrunning
    rw [hline]
    cases occurrence with
    | registration who =>
        rw [meet_registration hrunning, Line.serve]
        by_cases hroom : d.door.length < d.capacity
        · have hfresh : d.line.fresh < d.capacity := hroom
          rw [if_pos hroom, if_pos hfresh]
          refine ⟨_, rfl, ?_, hthere, rfl⟩
          simp [line]
        · have hfresh : ¬ d.line.fresh < d.capacity := hroom
          rw [if_neg hroom, if_neg hfresh]
          exact ⟨d, rfl, rfl, hthere, rfl⟩
    | frame payload =>
        rw [Line.serve]
        cases hcontent : Content.ofFrame payload with
        | event told =>
            rw [meet_event hrunning hcontent]
            refine ⟨_, rfl, ?_, hthere, rfl⟩
            simp [line, letIn]
        | reply reply =>
            rw [meet_reply hrunning hthere hcontent]
            refine ⟨_, rfl, ?_, hthere, rfl⟩
            simp [line]
    | failure =>
        rw [meet_failure hrunning hthere, Line.serve]
        exact ⟨_, rfl, rfl, hthere, rfl⟩
  · have hline : d.line.meet d.capacity occurrence = (.none, d.line) := if_neg hrunning
    rw [hline, meet_of_stopped (Bool.eq_false_iff.mpr hrunning)]
    exact ⟨d, rfl, rfl, hthere, rfl⟩

/-- A run of a dispatcher is a run of its line. -/
theorem replay_line {d : Dispatcher ρ} (hthere : d.gone = [])
    (occurrences : List (Occurrence ρ)) :
    ∃ last, replay meet d occurrences =
        ((replay (Line.meet d.capacity) d.line occurrences).1, last) ∧
      last.line = (replay (Line.meet d.capacity) d.line occurrences).2 ∧
      last.gone = [] ∧ last.capacity = d.capacity := by
  induction occurrences generalizing d with
  | nil => exact ⟨d, rfl, rfl, hthere, rfl⟩
  | cons occurrence rest ih =>
      rcases meet_line hthere occurrence with ⟨next, hmeet, hline, hgone, hcapacity⟩
      rcases ih hgone with ⟨last, hrest, hlast, hgoneLast, hcapacityLast⟩
      rw [hcapacity, hline] at hrest hlast
      refine ⟨last, ?_, hlast, hgoneLast, hcapacityLast.trans hcapacity⟩
      simp only [replay, hmeet, hrest]

end Dispatcher

/-! ## What a whole run does -/

def framesRead {ρ : Type} : List (Occurrence ρ) → List Bytes
  | [] => []
  | .registration _ :: rest => framesRead rest
  | .frame payload :: rest => payload :: framesRead rest
  | .failure :: _ => []

/-- Those who wanted to register since the last frame. -/
def newcomers {ρ : Type} (occurrences : List (Occurrence ρ)) : List ρ :=
  occurrences.foldl
    (fun before occurrence =>
      match occurrence with
      | .registration who => before ++ [who]
      | .frame _ => []
      | .failure => before)
    []

theorem newcomers_registration {ρ : Type} (occurrences : List (Occurrence ρ)) (who : ρ) :
    newcomers (occurrences ++ [.registration who]) = newcomers occurrences ++ [who] := by
  simp [newcomers]

theorem newcomers_frame {ρ : Type} (occurrences : List (Occurrence ρ)) (payload : Bytes) :
    newcomers (occurrences ++ [.frame payload]) = [] := by
  simp [newcomers]

namespace Line

variable {ρ : Type}

theorem replay_of_stopped {l : Line ρ} (h : l.running = false) (capacity : Nat)
    (occurrences : List (Occurrence ρ)) :
    replay (meet capacity) l occurrences = (occurrences.map fun _ => .none, l) := by
  induction occurrences with
  | nil => rfl
  | cons occurrence rest ih =>
      have hmeet : l.meet capacity occurrence = (.none, l) := if_neg (by simp [h])
      simp only [replay, hmeet, ih, List.map_cons]

theorem replay_waiting (capacity : Nat) (l : Line ρ) (occurrences : List (Occurrence ρ)) :
    l.waiting ++ (replay (meet capacity) l occurrences).1.flatMap (·.registered) =
      ((replay (meet capacity) l occurrences).1.flatMap (·.answered)).map Prod.fst ++
        (replay (meet capacity) l occurrences).2.waiting := by
  induction occurrences generalizing l with
  | nil => simp [replay]
  | cons occurrence rest ih =>
      simp only [replay, List.flatMap_cons, List.map_append, List.append_assoc]
      rw [← ih, ← List.append_assoc, meet_waiting, List.append_assoc]

theorem serve_running (capacity : Nat) (l : Line ρ) (occurrence : Occurrence ρ)
    (h : occurrence ≠ .failure) : (l.serve capacity occurrence).2.running = l.running := by
  cases occurrence with
  | registration who =>
      rw [serve]
      split_ifs <;> rfl
  | frame payload =>
      rw [serve]
      cases Content.ofFrame payload <;> rfl
  | failure => exact absurd rfl h

theorem replay_told {l : Line ρ} (h : l.running = true) (capacity : Nat)
    (occurrences : List (Occurrence ρ)) :
    (replay (meet capacity) l occurrences).1.flatMap (·.told) =
      (framesRead occurrences).filterMap fun payload => (Content.ofFrame payload).event? := by
  induction occurrences generalizing l with
  | nil => rfl
  | cons occurrence rest ih =>
      have hmeet : l.meet capacity occurrence = l.serve capacity occurrence := if_pos h
      simp only [replay, hmeet, List.flatMap_cons]
      cases occurrence with
      | registration who =>
          rw [ih ((serve_running capacity l _ (by simp)).trans h), serve]
          split_ifs <;> rfl
      | frame payload =>
          rw [ih ((serve_running capacity l _ (by simp)).trans h), serve, framesRead]
          cases hcontent : Content.ofFrame payload with
          | event told =>
              rw [List.filterMap_cons_some (b := told) (by rw [hcontent]; rfl)]
              rfl
          | reply reply =>
              rw [List.filterMap_cons_none (by rw [hcontent]; rfl)]
              rfl
      | failure =>
          rw [serve, replay_of_stopped rfl]
          simp [framesRead, Effect.none]

end Line

/-! ## The door in between -/

namespace Dispatcher

variable {ρ : Type} [BEq ρ]

structure After (capacity : Nat) (occurrences : List (Occurrence ρ)) (d : Dispatcher ρ) :
    Prop where
  there : d.gone = []
  room : d.capacity = capacity
  running : d.running = true ↔ .failure ∉ occurrences
  /-- At the door are the first that came since the last frame, as many as can wait there. -/
  door : d.running = true → d.door = (newcomers occurrences).take capacity
  stopped : d.running = false → d.pending ++ d.door = []

theorem After.meet {capacity : Nat} {occurrences : List (Occurrence ρ)} {d : Dispatcher ρ}
    (h : After capacity occurrences d) (occurrence : Occurrence ρ) :
    After capacity (occurrences ++ [occurrence]) (d.meet occurrence).2 := by
  obtain ⟨hthere, hcapacity, hrunning, hdoor, hstopped⟩ := h
  by_cases hrun : d.running = true
  · have hnever : .failure ∉ occurrences := hrunning.mp hrun
    have hcome := hdoor hrun
    cases occurrence with
    | registration who =>
        have hrunning' : d.running = true ↔ .failure ∉ occurrences ++ [.registration who] := by
          simp [hrun, hnever]
        have hlength : d.door.length = min capacity (newcomers occurrences).length := by
          rw [hcome, List.length_take]
        rw [meet_registration hrun]
        by_cases hroom : d.door.length < d.capacity
        · rw [if_pos hroom]
          refine ⟨hthere, hcapacity, hrunning', fun _ => ?_, fun hstop => ?_⟩
          · rw [newcomers_registration, hcome, List.take_of_length_le (by omega),
              List.take_of_length_le (by rw [List.length_append, List.length_singleton]; omega)]
          · rw [hrun] at hstop
            cases hstop
        · rw [if_neg hroom]
          refine ⟨hthere, hcapacity, hrunning', fun _ => ?_, hstopped⟩
          rw [newcomers_registration, hcome, List.take_append_of_le_length (by omega)]
    | frame payload =>
        have hrunning' : d.running = true ↔ .failure ∉ occurrences ++ [.frame payload] := by
          simp [hrun, hnever]
        have hempty : [] = (newcomers (occurrences ++ [.frame payload])).take capacity := by
          rw [newcomers_frame, List.take_nil]
        cases hcontent : Content.ofFrame payload with
        | event told =>
            rw [meet_event hrun hcontent]
            refine ⟨hthere, hcapacity, hrunning', fun _ => hempty, fun hstop => ?_⟩
            rw [letIn, hrun] at hstop
            cases hstop
        | reply reply =>
            rw [meet_reply hrun hthere hcontent]
            refine ⟨hthere, hcapacity, hrunning', fun _ => hempty, fun hstop => ?_⟩
            rw [hrun] at hstop
            cases hstop
    | failure =>
        rw [meet_failure hrun hthere]
        refine ⟨hthere, hcapacity, ?_, fun hstart => ?_, fun _ => rfl⟩
        · simp
        · cases hstart
  · have hstop : d.running = false := Bool.eq_false_iff.mpr hrun
    have hfailed : .failure ∈ occurrences := by
      by_contra hnever
      exact hrun (hrunning.mpr hnever)
    rw [meet_of_stopped hstop]
    refine ⟨hthere, hcapacity, ?_, fun hstart => absurd hstart hrun, hstopped⟩
    simp [hrun, hfailed]

theorem after_replay (capacity : Nat) (occurrences : List (Occurrence ρ)) :
    After capacity occurrences (replay meet (start capacity) occurrences).2 := by
  induction occurrences using List.reverseRecOn with
  | nil =>
      have hempty : [] = (newcomers ([] : List (Occurrence ρ))).take capacity := List.take_nil.symm
      exact ⟨rfl, rfl, by simp [replay, start], fun _ => hempty, fun _ => rfl⟩
  | append_singleton before occurrence ih =>
      rw [replay_concat]
      exact ih.meet occurrence

omit [BEq ρ] in
theorem After.register?_eq_none_iff {capacity : Nat} {occurrences : List (Occurrence ρ)}
    {d : Dispatcher ρ} (h : After capacity occurrences d) (who : ρ) :
    d.register? who = none ↔
      .failure ∈ occurrences ∨ capacity ≤ (newcomers occurrences).length := by
  rw [register?_eq]
  by_cases hrun : d.running = true
  · have hnever : .failure ∉ occurrences := h.running.mp hrun
    have hlength : d.door.length = min capacity (newcomers occurrences).length := by
      rw [h.door hrun, List.length_take]
    have hcapacity := h.room
    simp only [hrun, hnever, true_and, false_or, ite_eq_right_iff, reduceCtorEq, imp_false]
    omega
  · have hfailed : .failure ∈ occurrences := by
      by_contra hnever
      exact hrun (h.running.mpr hnever)
    simp [hrun, hfailed]

/-- A dispatcher serves one line.  What comes of every occurrence is what the line says; whoever
was registered was answered in turn, once, or still waits, and nobody waits after a failure; every
event among the frames that are read is told once, in order; and only a failure or a full door
keeps anybody from registering. -/
theorem dispatcher_serves_one_line (capacity : Nat) (occurrences : List (Occurrence ρ)) :
    let run := replay meet (start capacity) occurrences
    run.1 = (replay (Line.meet capacity) .start occurrences).1 ∧
      run.1.flatMap (·.registered) =
        (run.1.flatMap (·.answered)).map Prod.fst ++ (run.2.pending ++ run.2.door) ∧
      (.failure ∈ occurrences → run.2.pending ++ run.2.door = []) ∧
      run.1.flatMap (·.told) =
        (framesRead occurrences).filterMap (fun payload => (Content.ofFrame payload).event?) ∧
      ∀ who, run.2.register? who = none ↔
        .failure ∈ occurrences ∨ capacity ≤ (newcomers occurrences).length := by
  have hthere : (start capacity : Dispatcher ρ).gone = [] := rfl
  have hafter := after_replay capacity occurrences
  rcases replay_line hthere occurrences with ⟨last, hrun, hline, _, _⟩
  have hwaiting := Line.replay_waiting capacity .start occurrences
  have htold := Line.replay_told (l := .start) rfl capacity occurrences
  rw [hrun] at hafter ⊢
  refine ⟨rfl, ?_, ?_, htold, hafter.register?_eq_none_iff⟩
  · have hlast : last.pending ++ last.door = last.line.waiting := rfl
    rw [hlast, hline]
    exact hwaiting
  · intro hfailed
    refine hafter.stopped (Bool.eq_false_iff.mpr ?_)
    intro hrunning
    exact hafter.running.mp hrunning hfailed

/-- Two come to a door for one, an event lets the first in, and nothing after it can be read. -/
def crowd : List (Occurrence Nat) :=
  [.registration 1, .registration 2,
    .frame (Message.event ⟨"GameOver", .null⟩).bytes, .registration 3, .failure]

theorem crowd_served_in_line :
    .failure ∈ crowd ∧
      (replay meet (start 1) crowd).2.pending ++ (replay meet (start 1) crowd).2.door = [] ∧
      (replay meet (start 1) crowd).1.flatMap (·.registered) = [1, 3] ∧
      (replay meet (start 1) crowd).1.flatMap (·.told) = [⟨"GameOver", .null⟩] := by
  have hfailed : .failure ∈ crowd := by decide
  exact ⟨hfailed, (dispatcher_serves_one_line 1 crowd).right.right.left hfailed, rfl, rfl⟩

end Dispatcher

end Engine
end Cardsmith
