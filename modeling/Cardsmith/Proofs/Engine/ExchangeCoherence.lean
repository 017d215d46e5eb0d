import Cardsmith.Proofs.Engine.Exchange

/-!
# What holds throughout an exchange

One invariant ties what was done to what is under way: the wires carry what was written and not
read, the registrations without an answer stand in line in the order of their numbers, and when a
reply is about to be passed on, the registration that it is for has been let in.  The last point
rests on the client registering before it writes and on the listener letting registrations in
after it reads.
-/

namespace Cardsmith
namespace Engine
namespace Exchange

/-! ## What always holds -/

/-- What holds between what was done and what is under way. -/
structure Coherent (c : Chronicle) (s : Exchange) : Prop where
  running : s.dispatcher.running = true
  there : s.dispatcher.gone = []
  room : s.dispatcher.capacity = doorCapacity
  inbound : Wire c.frames c.fetchings s.inbound
  outbound : Wire (c.requests.map Message.bytes) c.servings s.outbound
  held : c.fetchings = c.dispatchings ++ s.listener.held
  answers : s.answers = numbered (replies c.dispatchings)
  tickets : s.ticket = c.registrations.length
  /-- Those without an answer stand in line. -/
  line : s.dispatcher.pending ++ s.dispatcher.door =
    List.range' s.answers.length (s.ticket - s.answers.length)
  answered : s.answers.length ≤ s.ticket
  /-- When the registrations have been let in, the one for the frame in hand is among them. -/
  ready : ∀ payload, s.listener = .ready payload →
    (replies c.fetchings).length ≤ s.answers.length + s.dispatcher.pending.length
  silent : s.greeted = false ↔ replies c.frames = []
  greeting : ∀ reply ∈ (replies c.frames).head?, ∃ name version, reply = .ok (.ready name version)
  /-- The others are for what it has read. -/
  served : (replies c.frames).length + s.owed ≤ c.servings.length + s.greeted.toNat
  asleep : s.listener = .asleep ↔ s.client = .opening
  opening : s.client = .opening → c.registrations = [] ∧ c.requests = []
  begun : s.client ≠ .opening →
    c.registrations = none :: (c.requests ++ s.client.unwritten).map some
  free : s.client = .free → s.answers.length = s.ticket
  current : ∀ ticket request?, s.client.current? = some (ticket, request?) →
    s.ticket = ticket + 1 ∧ c.registrations[ticket]? = some request?
  asked : ∀ message, .unasked message ∉ c.notices
  noticed : s.answers = Notice.answers c.notices
  /-- The waits that have ended are those for all registrations but the current one. -/
  ended : c.results.length + s.client.current?.toList.length = s.ticket
  results : ∀ (i : Nat) request? reply, c.results[i]? = some (request?, reply) →
    c.registrations[i]? = some request? ∧ (replies c.frames)[i]? = some reply

theorem coherent_start : Coherent .empty start where
  running := rfl
  there := rfl
  room := rfl
  inbound := ⟨[], rfl, by simp, rfl⟩
  outbound := ⟨[], rfl, by simp, rfl⟩
  held := rfl
  answers := rfl
  tickets := rfl
  line := rfl
  answered := Nat.le_refl 0
  ready := by simp [start]
  silent := ⟨fun _ => rfl, fun _ => rfl⟩
  greeting := by simp [Chronicle.empty, replies]
  served := Nat.zero_le _
  asleep := by simp [start]
  opening := fun _ => ⟨rfl, rfl⟩
  begun := by simp [start]
  free := by simp [start]
  current := by simp [start, Client.current?]
  asked := by simp [Chronicle.empty]
  noticed := rfl
  ended := rfl
  results := by simp [Chronicle.empty]

/-! ## What every step keeps -/

theorem register?_eq_some {d d' : Dispatcher Nat} {who : Nat} (h : d.register? who = some d') :
    d' = { d with door := d.door ++ [who] } := by
  rw [Dispatcher.register?_eq] at h
  split_ifs at h
  cases h
  rfl

theorem getElem?_append_of_some {α : Type} {xs : List α} {i : Nat} {x : α}
    (h : xs[i]? = some x) (ys : List α) : (xs ++ ys)[i]? = some x := by
  rw [List.getElem?_append_left (List.getElem?_eq_some_iff.mp h).choose, h]

namespace Coherent

variable {c : Chronicle} {s : Exchange}

theorem line_register (h : Coherent c s) :
    s.dispatcher.pending ++ (s.dispatcher.door ++ [s.ticket]) =
      List.range' s.answers.length (s.ticket + 1 - s.answers.length) := by
  have hanswered := h.answered
  have hlength : s.ticket + 1 - s.answers.length = (s.ticket - s.answers.length) + 1 := by omega
  have hlast : s.answers.length + (s.ticket - s.answers.length) = s.ticket := by omega
  rw [← List.append_assoc, h.line, hlength, List.range'_concat, Nat.one_mul, hlast]

theorem results_register (h : Coherent c s) (request? : Option Message) :
    ∀ (i : Nat) asked reply, c.results[i]? = some (asked, reply) →
      (c.registrations ++ [request?])[i]? = some asked ∧
        (replies c.frames)[i]? = some reply := by
  intro i asked reply hresult
  have hold := h.results i asked reply hresult
  exact ⟨getElem?_append_of_some hold.left _, hold.right⟩

theorem current_register (h : Coherent c s) (request? : Option Message) :
    (c.registrations ++ [request?])[s.ticket]? = some request? := by
  rw [h.tickets]
  exact List.getElem?_concat_length

theorem results_sent (h : Coherent c s) (payload : Bytes) :
    ∀ (i : Nat) request? reply, c.results[i]? = some (request?, reply) →
      c.registrations[i]? = some request? ∧
        (replies (c.frames ++ [payload]))[i]? = some reply := by
  intro i request? reply hresult
  have hold := h.results i request? reply hresult
  rw [replies_append]
  exact ⟨hold.left, getElem?_append_of_some hold.right _⟩

theorem frames_eq (h : Coherent c s) : ∃ later, c.frames = c.dispatchings ++ later := by
  rcases h.inbound with ⟨left, _, _, hframes⟩
  refine ⟨s.listener.held ++ left, ?_⟩
  rw [hframes, h.held, List.append_assoc]

/-- Every reply that the listener has read was registered for. -/
theorem replies_fetchings_le (h : Coherent c s) (hbegun : s.client ≠ .opening) :
    (replies c.fetchings).length ≤ s.ticket := by
  rcases h.inbound with ⟨unread, _, _, hframes⟩
  rcases h.outbound with ⟨unserved, _, _, hrequests⟩
  have hserved := h.served
  have hgreeted : s.greeted.toNat ≤ 1 := Bool.toNat_le s.greeted
  have hlength := congrArg List.length hrequests
  have hregistrations := congrArg List.length (h.begun hbegun)
  rw [hframes, replies_append] at hserved
  simp only [List.length_append, List.length_map, List.length_cons] at hserved hlength hregistrations
  rw [h.tickets]
  omega

theorem answer_of_lookup (h : Coherent c s) {ticket : Nat} {reply : Reply}
    (hreply : s.answers.lookup ticket = some reply) :
    ticket < s.answers.length ∧ (replies c.frames)[ticket]? = some reply := by
  rcases h.frames_eq with ⟨later, hframes⟩
  rw [h.answers, lookup_numbered] at hreply
  have hlt := (List.getElem?_eq_some_iff.mp hreply).choose
  refine ⟨?_, ?_⟩
  · rw [h.answers, length_numbered]
    exact hlt
  · rw [hframes, replies_append]
    exact getElem?_append_of_some hreply _

end Coherent

/-! ### The client -/

theorem Coherent.client_step {label : String} {c : Chronicle} {s t : Exchange} {deed : Deed}
    (h : Coherent c s) (hstep : Step label s deed t) (hparty : deed.party = .client) :
    Coherent (c.note deed) t := by
  have hended := h.ended
  have hanswered := h.answered
  cases hstep with
  | begin hclient hregister =>
      obtain rfl := register?_eq_some hregister
      obtain ⟨hregistrations, hrequests⟩ := h.opening hclient
      have hheld := h.held
      rw [h.asleep.mpr hclient] at hheld
      rw [hclient] at hended
      exact { h with
        held := hheld
        tickets := by simp [Chronicle.note, h.tickets]
        line := h.line_register
        answered := Nat.le_succ_of_le hanswered
        ready := by simp
        asleep := by simp
        opening := by simp
        begun := by simp [Chronicle.note, hregistrations, hrequests, Client.unwritten]
        free := by simp
        current := by
          rintro ticket request? ⟨⟩
          exact ⟨rfl, h.current_register none⟩
        ended := congrArg (· + 1) hended
        results := h.results_register none }
  | @register _ request hclient hregister =>
      obtain rfl := register?_eq_some hregister
      have hbegun := h.begun (by simp [hclient])
      rw [hclient] at hbegun hended
      exact { h with
        tickets := by simp [Chronicle.note, h.tickets]
        line := h.line_register
        answered := Nat.le_succ_of_le hanswered
        asleep := by simp [h.asleep, hclient]
        opening := by simp
        begun := by simp [Chronicle.note, hbegun, Client.unwritten]
        free := by simp
        current := by
          rintro ticket request? ⟨⟩
          exact ⟨rfl, h.current_register (some request)⟩
        ended := congrArg (· + 1) hended
        results := h.results_register (some request) }
  | @write ticket request hclient hsize =>
      have hbegun := h.begun (by simp [hclient])
      have hcurrent := h.current ticket (some request) (by rw [hclient]; rfl)
      have houtbound := h.outbound.write hsize
      rw [hclient] at hbegun hended
      exact { h with
        outbound := by
          rw [Chronicle.note, List.map_append]
          exact houtbound
        asleep := by simp [h.asleep, hclient]
        opening := by simp
        begun := by simpa [Chronicle.note, Client.unwritten] using hbegun
        free := by simp
        current := by
          rintro ticket request? ⟨⟩
          exact hcurrent
        ended := hended }
  | @resume ticket request? reply hclient hreply =>
      have hbegun := h.begun (by simp [hclient])
      have hcurrent := h.current ticket request? (by rw [hclient]; rfl)
      have hanswer := h.answer_of_lookup hreply
      rw [hclient] at hbegun hended
      have hcount : c.results.length = ticket := by
        have hone : c.results.length + 1 = s.ticket := hended
        omega
      exact { h with
        asleep := by simp [h.asleep, hclient]
        opening := by simp
        begun := fun _ => hbegun
        free := by
          intro _
          apply Nat.le_antisymm hanswered
          rw [hcurrent.left]
          exact hanswer.left
        current := by rintro ticket request? ⟨⟩
        ended := by
          rw [Chronicle.note, List.length_append]
          exact hended
        results := by
          intro i asked outcome hresult
          rcases Nat.lt_or_ge i c.results.length with hlt | hge
          · rw [Chronicle.note, List.getElem?_append_left hlt] at hresult
            exact h.results i asked outcome hresult
          · rw [Chronicle.note, List.getElem?_append_right hge,
              List.getElem?_singleton] at hresult
            split_ifs at hresult with hlast
            cases hresult
            have hi : i = ticket := by omega
            rw [hi]
            exact ⟨hcurrent.right, hanswer.right⟩ }
  | greet | tell | serve | reply | fetch | collect | dispatch => cases hparty

/-! ### The engine -/

theorem Coherent.engine_step {label : String} {c : Chronicle} {s t : Exchange} {deed : Deed}
    (h : Coherent c s) (hstep : Step label s deed t) (hparty : deed.party = .engine) :
    Coherent (c.note deed) t := by
  have hserved := h.served
  cases hstep with
  | @greet payload name version hsilent hcontent hsize =>
      have hnone := h.silent.mp hsilent
      rw [hnone, hsilent] at hserved
      exact { h with
        inbound := h.inbound.write hsize
        silent := by simp [Chronicle.note, replies_append, replies_reply hcontent]
        greeting := by simp [Chronicle.note, replies_append, hnone, replies_reply hcontent]
        served := by
          simp [Chronicle.note, replies_append, hnone, replies_reply hcontent] at hserved ⊢
          omega
        results := h.results_sent payload }
  | @tell payload told hcontent hsize =>
      have hsame : replies (c.frames ++ [payload]) = replies c.frames := by
        rw [replies_append, replies_event hcontent, List.append_nil]
      exact { h with
        inbound := h.inbound.write hsize
        silent := by
          rw [Chronicle.note, hsame]
          exact h.silent
        greeting := by
          rw [Chronicle.note, hsame]
          exact h.greeting
        served := by
          rw [Chronicle.note, hsame]
          exact hserved
        results := h.results_sent payload }
  | @serve payload left hread =>
      have hmore : (replies c.frames).length + (s.owed + 1) ≤
          (c.servings ++ [payload]).length + s.greeted.toNat := by
        rw [List.length_append, List.length_singleton]
        omega
      exact { h with
        outbound := h.outbound.read hread
        served := hmore }
  | @reply payload reply owed hgreeted howed hcontent hsize =>
      have hspoken : replies c.frames ≠ [] := by
        rw [ne_eq, ← h.silent, hgreeted]
        exact Bool.false_ne_true.symm
      have hmore : (replies (c.frames ++ [payload])).length + owed ≤
          c.servings.length + s.greeted.toNat := by
        rw [replies_append, replies_reply hcontent, List.length_append, List.length_singleton]
        omega
      exact { h with
        inbound := h.inbound.write hsize
        silent := by simp [Chronicle.note, replies_append, replies_reply hcontent, hgreeted]
        greeting := by
          rw [Chronicle.note, replies_append, List.head?_append_of_ne_nil _ hspoken]
          exact h.greeting
        served := hmore
        results := h.results_sent payload }
  | begin | register | write | resume | fetch | collect | dispatch => cases hparty

/-! ### The listener -/

theorem Coherent.dispatch_event {c : Chronicle} {s : Exchange} {payload : Bytes} {told : Event}
    (h : Coherent c s) (hlistener : s.listener = .ready payload)
    (hcontent : Content.ofFrame payload = .event told) :
    Coherent (c.note (.dispatched payload [.told told]))
      { s with listener := .idle, answers := s.answers ++ Notice.answers [.told told] } := by
  have hheld := h.held
  rw [hlistener] at hheld
  have hsame : replies (c.dispatchings ++ [payload]) = replies c.dispatchings := by
    rw [replies_append, replies_event hcontent, List.append_nil]
  have hanswers : s.answers ++ Notice.answers [.told told] = s.answers := List.append_nil _
  rw [hanswers]
  exact { h with
    held := by simpa [Chronicle.note, Listener.held] using hheld
    answers := h.answers.trans (congrArg numbered hsame.symm)
    ready := by simp
    asleep := by simpa [hlistener] using h.asleep
    asked := by
      intro message hmem
      rcases List.mem_append.mp hmem with hold | hnew
      · exact h.asked message hold
      · cases List.mem_singleton.mp hnew
    noticed := by
      rw [h.noticed]
      simp [Chronicle.note, Notice.answers] }

/-- When a reply is passed on, the first registration without an answer has been let in. -/
theorem Coherent.pending_eq {c : Chronicle} {s : Exchange} {payload : Bytes} {reply : Reply}
    (h : Coherent c s) (hlistener : s.listener = .ready payload)
    (hcontent : Content.ofFrame payload = .reply reply) :
    ∃ rest n, s.dispatcher.pending = s.answers.length :: rest ∧
      s.ticket - s.answers.length = n + 1 ∧
      rest ++ s.dispatcher.door = List.range' (s.answers.length + 1) n := by
  have hheld := h.held
  rw [hlistener] at hheld
  have hready := h.ready payload hlistener
  have hlength : s.answers.length = (replies c.dispatchings).length := by
    rw [h.answers, length_numbered]
  rw [hheld, replies_append, Listener.held, replies_reply hcontent, List.length_append,
    List.length_singleton] at hready
  cases hpending : s.dispatcher.pending with
  | nil =>
      rw [hpending, List.length_nil] at hready
      omega
  | cons who rest =>
      have hline := h.line
      rw [hpending, List.cons_append] at hline
      cases hcount : s.ticket - s.answers.length with
      | zero =>
          rw [hcount] at hline
          cases hline
      | succ n =>
          rw [hcount, List.range'_succ, List.cons.injEq] at hline
          refine ⟨rest, n, ?_, rfl, hline.right⟩
          rw [hline.left]

theorem Coherent.dispatch_reply {c : Chronicle} {s : Exchange} {payload : Bytes} {reply : Reply}
    {notices : List (Notice Nat)} (h : Coherent c s) (hlistener : s.listener = .ready payload)
    (hcontent : Content.ofFrame payload = .reply reply)
    (hdelivers : Notice.Delivers notices s.dispatcher.pending reply) :
    Coherent (c.note (.dispatched payload notices))
      { s with
        listener := .idle
        dispatcher := { s.dispatcher with pending := s.dispatcher.pending.drop 1 }
        answers := s.answers ++ Notice.answers notices } := by
  rcases h.pending_eq hlistener hcontent with ⟨rest, n, hpending, hcount, hrest⟩
  have hheld := h.held
  rw [hlistener] at hheld
  have hanswers : s.answers ++ Notice.answers notices =
      numbered (replies (c.dispatchings ++ [payload])) := by
    rw [hdelivers.answers, hpending, replies_append, replies_reply hcontent, numbered_concat,
      ← h.answers, h.answers, length_numbered]
    rfl
  have hlength : (s.answers ++ Notice.answers notices).length = s.answers.length + 1 := by
    rw [hdelivers.answers, hpending, List.length_append]
    rfl
  exact { h with
    held := by simpa [Chronicle.note, Listener.held] using hheld
    answers := hanswers
    line := by
      have hfewer : s.ticket - (s.answers.length + 1) = n := by omega
      simp only [hlength, hpending, List.drop_one, List.tail_cons, hfewer]
      exact hrest
    answered := by
      show (s.answers ++ Notice.answers notices).length ≤ s.ticket
      omega
    ready := by simp
    asleep := by simpa [hlistener] using h.asleep
    free := by
      intro hfree
      have hall := h.free hfree
      omega
    asked := by
      intro message hmem
      rcases List.mem_append.mp hmem with hold | hnew
      · exact h.asked message hold
      · have hnone := hdelivers.asked message hnew
        rw [hpending] at hnone
        cases hnone
    noticed := by
      rw [h.noticed]
      simp [Chronicle.note, Notice.answers] }

theorem Coherent.listener_step {label : String} {c : Chronicle} {s t : Exchange} {deed : Deed}
    (h : Coherent c s) (hstep : Step label s deed t) (hparty : deed.party = .listener) :
    Coherent (c.note deed) t := by
  have hheld := h.held
  cases hstep with
  | @fetch payload left hlistener hread =>
      rw [hlistener] at hheld
      exact { h with
        inbound := h.inbound.read hread
        held := by simpa [Chronicle.note, Listener.held] using hheld
        ready := by simp
        asleep := by simpa [hlistener] using h.asleep }
  | @collect payload hlistener =>
      rw [hlistener] at hheld
      have hnotOpening : s.client ≠ .opening := by simp [← h.asleep, hlistener]
      have hregistered := h.replies_fetchings_le hnotOpening
      have hanswered := h.answered
      exact { h with
        held := hheld
        line := by
          rw [← h.line]
          exact List.append_nil _
        ready := by
          intro p _
          have hlength := congrArg List.length h.line
          rw [List.length_range'] at hlength
          show _ ≤ s.answers.length + (s.dispatcher.pending ++ s.dispatcher.door).length
          rw [hlength]
          show (replies c.fetchings).length ≤ _
          omega
        asleep := by simpa [hlistener] using h.asleep }
  | @dispatch payload notices d hlistener hdispatch =>
      cases hcontent : Content.ofFrame payload with
      | event told =>
          rw [Dispatcher.dispatch_event hcontent] at hdispatch
          cases hdispatch
          exact h.dispatch_event hlistener hcontent
      | reply reply =>
          rcases Dispatcher.dispatch_reply hcontent h.there with ⟨found, hfound, hdelivers⟩
          rw [hfound] at hdispatch
          cases hdispatch
          exact h.dispatch_reply hlistener hcontent hdelivers
  | begin | register | write | resume | greet | tell | serve | reply => cases hparty

/-! ## What holds after any steps -/

theorem Coherent.step {label : String} {c : Chronicle} {s t : Exchange} {deed : Deed}
    (h : Coherent c s) (hstep : Step label s deed t) : Coherent (c.note deed) t := by
  cases hparty : deed.party with
  | client => exact h.client_step hstep hparty
  | listener => exact h.listener_step hstep hparty
  | engine => exact h.engine_step hstep hparty

theorem Steps.coherent {label : String} {c : Chronicle} {s t : Exchange} {trace : List Deed}
    (h : Steps label s trace t) (hstart : Coherent c s) : Coherent (trace.foldl .note c) t := by
  induction h with
  | stay => exact hstart
  | step _ hstep ih =>
      rw [List.foldl_concat]
      exact ih.step hstep

end Exchange
end Engine
end Cardsmith
