import Cardsmith.Proofs.Engine.ExchangeCoherence

/-!
# What waits come to

The first wait of a client comes to the engine's first reply, and the wait for each request to
the reply of the same number, whatever else the engine sends in between and whatever became of
earlier requests.  No reply is lost, nobody is answered twice, and the listener always gets as
far as the last frame that was sent.
-/

namespace Cardsmith
namespace Engine
namespace Exchange

/-! ## Frames that reply -/

def replyFrames (frames : List Bytes) : List Bytes :=
  frames.filter fun payload => (Content.ofFrame payload).reply?.isSome

theorem map_reply?_replyFrames (frames : List Bytes) :
    (replyFrames frames).map (fun payload => (Content.ofFrame payload).reply?) =
      (replies frames).map some := by
  induction frames with
  | nil => rfl
  | cons payload rest ih =>
      have hreplies : replies (payload :: rest) = replies [payload] ++ replies rest :=
        replies_append [payload] rest
      cases hcontent : Content.ofFrame payload with
      | event told =>
          have hnone : (Content.ofFrame payload).reply? = none := by rw [hcontent]; rfl
          have hfrom : replyFrames (payload :: rest) = replyFrames rest := by
            simp [replyFrames, hnone]
          rw [hfrom, hreplies, replies_event hcontent, ih]
          rfl
      | reply reply =>
          have hsome : (Content.ofFrame payload).reply? = some reply := by rw [hcontent]; rfl
          have hfrom : replyFrames (payload :: rest) = payload :: replyFrames rest := by
            simp [replyFrames, hsome]
          rw [hfrom, hreplies, replies_reply hcontent, List.map_cons, hsome, ih]
          rfl

theorem exists_replyFrame {frames : List Bytes} {i : Nat} {reply : Reply}
    (h : (replies frames)[i]? = some reply) :
    ∃ payload, (replyFrames frames)[i]? = some payload ∧
      Content.ofFrame payload = .reply reply := by
  have hmap := congrArg (·[i]?) (map_reply?_replyFrames frames)
  simp only [List.getElem?_map, h, Option.map_some] at hmap
  rcases Option.map_eq_some_iff.mp hmap with ⟨payload, hpayload, hreply⟩
  refine ⟨payload, hpayload, ?_⟩
  cases hcontent : Content.ofFrame payload with
  | event told =>
      rw [hcontent] at hreply
      cases hreply
  | reply held =>
      rw [hcontent] at hreply
      cases hreply
      rfl

/-- What a call comes to when it is replied to with a frame. -/
def worth (target : Target) (method : String) (payload : Bytes) : Except Fault Json.Value :=
  match Message.ofBytes payload with
  | .ok (.returnValue value) => .ok value
  | .ok (.error code message) => .error (.remote code message)
  | .ok other => .error (.protocol (.notReturned target method other))
  | .error fault => .error (.malformed fault)

theorem bind_returned_eq_worth {payload : Bytes} {reply : Reply}
    (h : Content.ofFrame payload = .reply reply) (target : Target) (method : String) :
    reply.bind (Session.returned target method) = worth target method payload := by
  unfold Content.ofFrame at h
  unfold worth
  cases hmessage : Message.ofBytes payload with
  | error fault =>
      rw [hmessage] at h
      cases h
      rfl
  | ok message =>
      rw [hmessage] at h
      cases message <;> cases h <;> rfl

/-! ## The listener goes on -/

/-- How much the listener has left to do, at most. -/
def effort (s : Exchange) : Nat :=
  s.inbound.length +
    match s.listener with
    | .asleep | .idle => 0
    | .ready _ => 1
    | .holding _ => 2

theorem Coherent.effort_lt {label : String} {c : Chronicle} {s t : Exchange} {deed : Deed}
    (h : Coherent c s) (hstep : Step label s deed t) (hparty : deed.party = .listener) :
    t.effort < s.effort := by
  unfold effort
  cases hstep with
  | @fetch payload left hlistener hread =>
      have hsome : s.inbound ≠ [] := by
        intro hnone
        rw [hnone] at hread
        cases hread
      rcases h.inbound.exists_read label hsome with ⟨first, rest, hfirst, hshorter⟩
      rw [hread] at hfirst
      cases hfirst
      rw [hlistener]
      show left.flatten.length + 2 < s.inbound.length + 0
      omega
  | collect hlistener =>
      rw [hlistener]
      exact Nat.lt_succ_self _
  | dispatch hlistener hdispatch =>
      rw [hlistener]
      exact Nat.lt_succ_self _
  | begin | register | write | resume | greet | tell | serve | reply => cases hparty

theorem Coherent.listener_moves {c : Chronicle} {s : Exchange} (label : String)
    (h : Coherent c s) (hbegun : s.listener ≠ .asleep) :
    (s.listener = .idle ∧ s.inbound = []) ∨
      ∃ deed t, Step label s deed t ∧ deed.party = .listener := by
  cases hlistener : s.listener with
  | asleep => exact absurd hlistener hbegun
  | idle =>
      by_cases hnone : s.inbound = []
      · exact Or.inl ⟨rfl, hnone⟩
      · rcases h.inbound.exists_read label hnone with ⟨payload, left, hread, _⟩
        exact Or.inr ⟨_, _, .fetch hlistener hread, rfl⟩
  | holding payload => exact Or.inr ⟨_, _, .collect hlistener, rfl⟩
  | ready payload => exact Or.inr ⟨_, _, .dispatch hlistener rfl, rfl⟩

theorem Step.client_eq {label : String} {s t : Exchange} {deed : Deed}
    (h : Step label s deed t) (hparty : deed.party = .listener) :
    t.client = s.client ∧ t.listener ≠ .asleep := by
  cases h with
  | fetch | collect | dispatch => simp
  | begin | register | write | resume | greet | tell | serve | reply => cases hparty

theorem frames_foldl_note {trace : List Deed} (h : ∀ deed ∈ trace, deed.party = .listener)
    (c : Chronicle) : (trace.foldl .note c).frames = c.frames := by
  induction trace generalizing c with
  | nil => rfl
  | cons deed rest ih =>
      rw [List.foldl_cons, ih fun d hd => h d (List.mem_cons_of_mem _ hd)]
      have hparty := h deed List.mem_cons_self
      cases deed with
      | fetched | collected | dispatched => rfl
      | registered | wrote | resumed | sent | served => cases hparty

/-- The listener gets to where it waits for a frame and there is none. -/
theorem Coherent.settles {c : Chronicle} {s : Exchange} (label : String) (h : Coherent c s)
    (hbegun : s.listener ≠ .asleep) :
    ∃ more t, Steps label s more t ∧ (∀ deed ∈ more, deed.party = .listener) ∧
      t.client = s.client ∧ t.listener = .idle ∧ t.inbound = [] := by
  induction heffort : s.effort using Nat.strongRecOn generalizing c s with
  | _ n ih =>
      rcases h.listener_moves label hbegun with ⟨hidle, hnone⟩ | ⟨deed, next, hstep, hparty⟩
      · exact ⟨[], s, .stay s, by simp, rfl, hidle, hnone⟩
      · have hless := h.effort_lt hstep hparty
        rcases hstep.client_eq hparty with ⟨hsame, hawake⟩
        rw [heffort] at hless
        rcases ih next.effort hless (h.step hstep) hawake rfl with
          ⟨more, t, hsteps, hmore, hclient, hidle, hnone⟩
        refine ⟨[deed] ++ more, t, ?_, ?_, hclient.trans hsame, hidle, hnone⟩
        · exact Steps.trans (.step (.stay s) hstep) hsteps
        · intro d hd
          rcases List.mem_append.mp hd with hfirst | hlater
          · rw [List.mem_singleton.mp hfirst]
            exact hparty
          · exact hmore d hlater

/-- When the listener has got there, every reply that was sent has been handed out. -/
theorem Coherent.answers_of_idle {c : Chronicle} {s : Exchange} (h : Coherent c s)
    (hidle : s.listener = .idle) (hnone : s.inbound = []) : s.answers = numbered (replies c.frames) := by
  have hinbound := h.inbound
  have hheld := h.held
  rw [hnone] at hinbound
  rw [hidle, Listener.held, List.append_nil] at hheld
  rw [h.answers, hinbound.eq_of_nil, hheld]

theorem Coherent.exists_register {c : Chronicle} {s : Exchange} (h : Coherent c s)
    (hdone : s.client = .opening ∨ s.client = .free) :
    ∃ d, s.dispatcher.register? s.ticket = some d := by
  have hall : s.ticket - s.answers.length = 0 := by
    rcases hdone with hopening | hfree
    · have htickets := h.tickets
      rw [(h.opening hopening).left] at htickets
      rw [htickets, List.length_nil, Nat.zero_sub]
    · rw [h.free hfree, Nat.sub_self]
  have hline := h.line
  rw [hall] at hline
  have hdoor := (List.append_eq_nil_iff.mp hline).right
  rw [Dispatcher.register?_eq, h.running, hdoor, h.room]
  exact ⟨_, rfl⟩

/-! ## Everyone gets what is theirs -/

/-- What was done is as it should be. -/
structure Faithful (c : Chronicle) : Prop where
  servings : c.servings <+: c.requests.map Message.bytes
  dispatchings : c.dispatchings <+: c.frames
  /-- A reply that is passed on is the answer to the registration of the same number, and there
  are no other answers. -/
  answers : Notice.answers c.notices = numbered (replies c.dispatchings)
  registered : (replies c.dispatchings).length ≤ c.registrations.length
  asked : ∀ message, .unasked message ∉ c.notices
  first : ∀ request? reply, c.results[0]? = some (request?, reply) →
    request? = none ∧ ∃ payload name version, (replyFrames c.frames)[0]? = some payload ∧
      Content.ofFrame payload = .reply reply ∧ reply = .ok (.ready name version)
  /-- The wait for a request comes to the reply frame for that request. -/
  request : ∀ (i : Nat) request? reply, c.results[i + 1]? = some (request?, reply) →
    ∃ request payload, request? = some request ∧ c.requests[i]? = some request ∧
      (replyFrames c.frames)[i + 1]? = some payload ∧ Content.ofFrame payload = .reply reply ∧
      ∀ target method args, request = .invoke target method args →
        reply.bind (Session.returned target method) = worth target method payload

theorem Coherent.not_opening {c : Chronicle} {s : Exchange} (h : Coherent c s) {i : Nat}
    {request? : Option Message} (hregistered : c.registrations[i]? = some request?) :
    s.client ≠ .opening := by
  intro hopening
  rw [(h.opening hopening).left] at hregistered
  cases hregistered

theorem Coherent.request_of_result {c : Chronicle} {s : Exchange} (h : Coherent c s) {i : Nat}
    {request? : Option Message} {reply : Reply}
    (hresult : c.results[i + 1]? = some (request?, reply)) :
    ∃ request, request? = some request ∧ c.requests[i]? = some request := by
  have hregistered := (h.results (i + 1) request? reply hresult).left
  have hbegun := h.begun (h.not_opening hregistered)
  have hcount := congrArg List.length hbegun
  have hlt : i + 1 < c.results.length := (List.getElem?_eq_some_iff.mp hresult).choose
  have hended := h.ended
  have hwritten : i < c.requests.length := by
    rw [← h.tickets, List.length_cons, List.length_map, List.length_append] at hcount
    cases hclient : s.client <;>
      simp [hclient, Client.current?, Client.unwritten] at hended hcount <;> omega
  rw [hbegun, List.getElem?_cons_succ, List.getElem?_map,
    List.getElem?_append_left hwritten, List.getElem?_eq_getElem hwritten] at hregistered
  cases hregistered
  exact ⟨_, rfl, List.getElem?_eq_getElem hwritten⟩

theorem Coherent.faithful {c : Chronicle} {s : Exchange} (h : Coherent c s) : Faithful c where
  servings := by
    rcases h.outbound with ⟨left, _, _, hrequests⟩
    exact ⟨left, hrequests.symm⟩
  dispatchings := by
    rcases h.frames_eq with ⟨later, hframes⟩
    exact ⟨later, hframes.symm⟩
  answers := h.noticed.symm.trans h.answers
  registered := by
    have hanswered := h.answered
    rw [h.answers, length_numbered, h.tickets] at hanswered
    exact hanswered
  asked := h.asked
  first := by
    intro request? reply hresult
    obtain ⟨hregistered, hreply⟩ := h.results 0 request? reply hresult
    have hgreeting : reply ∈ (replies c.frames).head? := by
      rw [List.head?_eq_getElem?]
      exact hreply
    rcases h.greeting reply hgreeting with ⟨name, version, hready⟩
    rcases exists_replyFrame hreply with ⟨payload, hpayload, hcontent⟩
    rw [h.begun (h.not_opening hregistered)] at hregistered
    cases hregistered
    exact ⟨rfl, payload, name, version, hpayload, hcontent, hready⟩
  request := by
    intro i request? reply hresult
    obtain ⟨hregistered, hreply⟩ := h.results (i + 1) request? reply hresult
    rcases exists_replyFrame hreply with ⟨payload, hpayload, hcontent⟩
    rcases h.request_of_result hresult with ⟨request, hasked, hrequest⟩
    refine ⟨request, payload, hasked, hrequest, hpayload, hcontent, ?_⟩
    intro target method args _
    exact bind_returned_eq_worth hcontent target method

theorem Coherent.waiting_ticket {c : Chronicle} {s : Exchange} (h : Coherent c s) {ticket : Nat}
    {request? : Option Message} (hwaiting : s.client = .waiting ticket request?) :
    ticket = c.requests.length := by
  have hcurrent := h.current ticket request? (by rw [hwaiting]; rfl)
  have hcount := congrArg List.length (h.begun (h.not_opening hcurrent.right))
  rw [← h.tickets, hcurrent.left, hwaiting, Client.unwritten, List.append_nil, List.length_cons,
    List.length_map] at hcount
  exact Nat.succ.inj hcount

/-- When the reply has been sent, the wait for it ends by what the listener does. -/
theorem Coherent.wait_ends {c : Chronicle} {s : Exchange} (label : String) (h : Coherent c s)
    {ticket : Nat} {request? : Option Message} {reply : Reply}
    (hwaiting : s.client = .waiting ticket request?)
    (hreply : (replies c.frames)[c.requests.length]? = some reply) :
    ∃ more t, (∀ deed ∈ more, deed.party = .listener) ∧
      Steps label s (more ++ [.resumed request? reply]) t := by
  have hawake : s.listener ≠ .asleep := by
    intro hasleep
    rw [h.asleep.mp hasleep] at hwaiting
    cases hwaiting
  rcases h.settles label hawake with ⟨more, t, hsteps, hmore, hclient, hidle, hnone⟩
  have hanswers := (hsteps.coherent h).answers_of_idle hidle hnone
  rw [frames_foldl_note hmore] at hanswers
  have hfound : t.answers.lookup ticket = some reply := by
    rw [hanswers, lookup_numbered, h.waiting_ticket hwaiting, hreply]
  exact ⟨more, _, hmore, hsteps.step (.resume (hclient.trans hwaiting) hfound)⟩

end Exchange
end Engine
end Cardsmith
