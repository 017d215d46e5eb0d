import Cardsmith.Proofs.Engine.ExchangeReplies

/-!
# Sessions as exchanges

A session takes the steps of a client and of its listener in one order, and the engine at the
other end of its link reacts at once.  So what a session does is an exchange in which the steps
fall in that order, and what is true of every exchange is true of it.
-/

namespace Cardsmith
namespace Engine

open Exchange

namespace Session

variable {π : Type}

/-! ## Listening -/

theorem steps_of_frame {label : String} {e : Exchange} {payload : Bytes} {left : List Bytes}
    (hidle : e.listener = .idle) (hread : Frame.read label [e.inbound] = .ok (payload, left)) :
    Steps label e
      [.fetched payload, .collected, .dispatched payload (e.dispatcher.receive payload).1]
      { e with
        listener := .idle
        dispatcher := (e.dispatcher.receive payload).2
        inbound := left.flatten
        answers := e.answers ++ Notice.answers (e.dispatcher.receive payload).1 } :=
  (Steps.stay e)
    |>.step (.fetch hidle hread)
    |>.step (.collect rfl)
    |>.step (.dispatch rfl rfl)

theorem listenUpTo_quiet {s : Session π} (hinbound : s.link.inbound = [])
    (hconnected : s.link.hungUp = false) (limit : Nat) : s.listenUpTo limit = ([], s) := by
  cases limit with
  | zero => rfl
  | succ limit =>
      rw [listenUpTo, hinbound, Frame.read_nothing]
      split_ifs
      · simp only [hconnected, Bool.not_false, if_true]
      · rfl

theorem listenUpTo_steps {limit : Nat} {s : Session π} {c : Chronicle} {e : Exchange}
    (h : Coherent c e) (hidle : e.listener = .idle) (hdispatcher : s.dispatcher = e.dispatcher)
    (hinbound : s.link.inbound = e.inbound) (hconnected : s.link.hungUp = false)
    (hlimit : s.link.inbound.length < limit) :
    ∃ more notices heard, s.listenUpTo limit = (notices, heard) ∧
      (∀ deed ∈ more, deed.party = .listener) ∧
      Steps s.label e more
        { e with
          listener := .idle
          dispatcher := heard.dispatcher
          inbound := []
          answers := e.answers ++ Notice.answers notices } ∧
      heard.label = s.label ∧ heard.ticket = s.ticket ∧ heard.closed = s.closed ∧
      heard.link = { s.link with inbound := [] } := by
  induction limit generalizing s c e with
  | zero => exact absurd hlimit (Nat.not_lt_zero _)
  | succ limit ih =>
      have hrunning : s.dispatcher.running = true := by
        rw [hdispatcher]
        exact h.running
      by_cases hnone : e.inbound = []
      · have hquiet := listenUpTo_quiet (hinbound.trans hnone) hconnected (limit + 1)
        refine ⟨[], [], s, hquiet, by simp, ?_, rfl, rfl, rfl, ?_⟩
        · obtain ⟨client, listener, dispatcher, ticket, answers, outbound, inbound, greeted, owed⟩ := e
          cases hidle
          cases hnone
          cases hdispatcher
          have hsame : answers ++ Notice.answers ([] : List (Notice Nat)) = answers :=
            List.append_nil answers
          rw [hsame]
          exact .stay _
        · rw [← hnone, ← hinbound]
      · rcases h.inbound.exists_read s.label hnone with ⟨payload, left, hread, hshorter⟩
        have hsteps := steps_of_frame hidle hread
        have hcoherent := hsteps.coherent h
        have hreadHere := hread
        rw [← hinbound] at hreadHere
        have hshort : left.flatten.length < limit := by
          rw [hinbound] at hlimit
          omega
        generalize hreceived : e.dispatcher.receive payload = received at hsteps hcoherent
        obtain ⟨first, d⟩ := received
        rcases @ih
            { s.note first d with link := { s.link with inbound := left.flatten } } _ _
            hcoherent rfl rfl rfl hconnected hshort with
          ⟨more, notices, heard, hheard, hparty, hmore, hlabel, hticket, hclosed, hlink⟩
        refine ⟨[.fetched payload, .collected, .dispatched payload first] ++ more,
          first ++ notices, heard, ?_, ?_, ?_, hlabel, hticket, hclosed, hlink⟩
        · rw [listenUpTo, if_pos hrunning, hreadHere, hdispatcher]
          simp only [hreceived, hheard]
        · intro deed hmem
          rcases List.mem_append.mp hmem with hthree | hlater
          · simp only [List.mem_cons, List.not_mem_nil, or_false] at hthree
            rcases hthree with rfl | rfl | rfl <;> rfl
          · exact hparty deed hlater
        · rw [Notice.answers_append, ← List.append_assoc]
          exact Steps.trans hsteps hmore

/-! ## What the engine does at once -/

/-- One reply is given, and besides it only events are told of. -/
structure Answers (acts : List Act) (before : List Bytes) (payload : Bytes) (after : List Bytes) :
    Prop where
  acts : acts = (before ++ payload :: after).map Act.frame
  sizes : ∀ p ∈ before ++ payload :: after, p.length ≤ Frame.maxSize
  before : ∀ p ∈ before, ∃ told, Content.ofFrame p = .event told
  after : ∀ p ∈ after, ∃ told, Content.ofFrame p = .event told

theorem perform_frames_append (link : Link π) (frames : List Bytes) (rest : List Act) :
    link.perform (frames.map Act.frame ++ rest) =
      { link with inbound := link.inbound ++ frames.flatMap Frame.encode }.perform rest := by
  induction frames generalizing link with
  | nil =>
      rw [List.flatMap_nil, List.append_nil]
      rfl
  | cons payload frames ih =>
      rw [List.flatMap_cons, ← List.append_assoc]
      exact ih { link with inbound := link.inbound ++ Frame.encode payload }

theorem perform_frames (link : Link π) (frames : List Bytes) :
    link.perform (frames.map Act.frame) =
      { link with inbound := link.inbound ++ frames.flatMap Frame.encode } := by
  rw [← List.append_nil (frames.map Act.frame), perform_frames_append]
  rfl

theorem steps_tell (label : String) {frames : List Bytes}
    (hsizes : ∀ p ∈ frames, p.length ≤ Frame.maxSize)
    (hevents : ∀ p ∈ frames, ∃ told, Content.ofFrame p = .event told) (e : Exchange) :
    Steps label e (frames.map .sent)
      { e with inbound := e.inbound ++ frames.flatMap Frame.encode } := by
  induction frames generalizing e with
  | nil =>
      rw [List.flatMap_nil, List.append_nil]
      exact .stay e
  | cons payload rest ih =>
      rcases hevents payload List.mem_cons_self with ⟨told, hcontent⟩
      have hfirst : Steps label e _ _ :=
        (Steps.stay e).step (.tell hcontent (hsizes payload List.mem_cons_self))
      have hrest := ih (fun p hp => hsizes p (List.mem_cons_of_mem _ hp))
        (fun p hp => hevents p (List.mem_cons_of_mem _ hp))
        { e with inbound := e.inbound ++ Frame.encode payload }
      rw [List.flatMap_cons, ← List.append_assoc]
      exact Steps.trans hfirst hrest

theorem steps_around {label : String} {acts : List Act} {before after : List Bytes}
    {payload : Bytes} {e : Exchange} {greeted : Bool} {owed : Nat}
    (h : Answers acts before payload after)
    (hmay : ∀ inbound, Step label { e with inbound := inbound } (.sent payload)
      { e with
        inbound := inbound ++ Frame.encode payload
        greeted := greeted
        owed := owed }) :
    Steps label e ((before ++ payload :: after).map .sent)
      { e with
        inbound := e.inbound ++ (before ++ payload :: after).flatMap Frame.encode
        greeted := greeted
        owed := owed } := by
  have hfirst := steps_tell label
    (fun p hp => h.sizes p (List.mem_append_left _ hp)) h.before e
  have hreply := hfirst.step (hmay _)
  have hlast := steps_tell label
    (fun p hp => h.sizes p (List.mem_append_right _ (List.mem_cons_of_mem _ hp))) h.after
    { e with
      inbound := e.inbound ++ before.flatMap Frame.encode ++ Frame.encode payload
      greeted := greeted
      owed := owed }
  have hall := Steps.trans hreply hlast
  rw [List.map_append, List.map_cons, ← List.singleton_append, ← List.append_assoc]
  rw [List.flatMap_append, List.flatMap_cons, ← List.append_assoc, ← List.append_assoc]
  exact hall

theorem frames_foldl_sent (frames : List Bytes) (c : Chronicle) :
    ((frames.map Deed.sent).foldl .note c).frames = c.frames ++ frames := by
  induction frames generalizing c with
  | nil => exact (List.append_nil _).symm
  | cons payload rest ih =>
      rw [List.map_cons, List.foldl_cons, ih]
      exact List.append_assoc _ _ _

theorem replies_events {frames : List Bytes}
    (hevents : ∀ p ∈ frames, ∃ told, Content.ofFrame p = .event told) : replies frames = [] := by
  apply List.filterMap_eq_nil_iff.mpr
  intro p hp
  rcases hevents p hp with ⟨told, hcontent⟩
  rw [hcontent]
  rfl

theorem Answers.replies {acts : List Act} {before after : List Bytes} {payload : Bytes}
    {reply : Reply} (h : Answers acts before payload after)
    (hcontent : Content.ofFrame payload = .reply reply) :
    replies (before ++ payload :: after) = [reply] := by
  rw [replies_append, replies_events h.before, ← List.singleton_append, replies_append,
    replies_reply hcontent, replies_events h.after]
  rfl

/-! ## Between requests -/

/-- A session stands where an exchange stands in which only the listener has anything to do. -/
structure Attends (s : Session π) (e : Exchange) : Prop where
  dispatcher : s.dispatcher = e.dispatcher
  ticket : s.ticket = e.ticket
  inbound : s.link.inbound = e.inbound
  connected : s.link.hungUp = false
  usable : s.closed = false
  listener : e.listener = .idle
  outbound : e.outbound = []
  greeted : e.greeted = true
  owed : e.owed = 0

/-- A session stands where the client of an exchange is free and nothing is under way. -/
structure AtRest (s : Session π) (e : Exchange) : Prop extends Attends s e where
  client : e.client = .free
  unread : e.inbound = []

/-- The wait for a reply that is on its way ends with it, and the session is at rest again. -/
theorem await_steps {s : Session π} {c : Chronicle} {e : Exchange} {ticket : Nat}
    {request? : Option Message} {reply : Reply} {earlier : List Reply} (h : Coherent c e)
    (hattends : Attends s e) (hclient : e.client = .waiting ticket request?)
    (hearlier : e.answers = numbered earlier) (hlength : earlier.length = ticket)
    (hreplies : replies c.frames = earlier ++ [reply]) :
    ∃ more t next, s.await ticket = (some reply, next) ∧
      Steps s.label e (more ++ [.resumed request? reply]) t ∧ AtRest next t ∧
      next.label = s.label ∧ next.link = { s.link with inbound := [] } := by
  rcases listenUpTo_steps h hattends.listener hattends.dispatcher hattends.inbound
      hattends.connected (Nat.lt_succ_self _) with
    ⟨more, notices, heard, hheard, hparty, hsteps, hlabel, hsame, hclosed, hlink⟩
  have hanswers := (hsteps.coherent h).answers_of_idle rfl rfl
  rw [frames_foldl_note hparty, hreplies, numbered_concat, hearlier, hlength] at hanswers
  have hnew : Notice.answers notices = [(ticket, reply)] := List.append_cancel_left hanswers
  have hawait : s.await ticket = (some reply, heard) := by
    rw [await, listen, hheard]
    simp only [hnew, List.lookup_cons, beq_self_eq_true]
  have hfound : (e.answers ++ Notice.answers notices).lookup ticket = some reply := by
    rw [hnew, hearlier, ← hlength, ← numbered_concat, lookup_numbered]
    exact List.getElem?_concat_length
  refine ⟨more, _, heard, hawait, hsteps.step (.resume hclient hfound), ?_, hlabel, hlink⟩
  exact {
    dispatcher := rfl
    ticket := hsame.trans hattends.ticket
    inbound := by rw [hlink]
    connected := by rw [hlink]; exact hattends.connected
    usable := hclosed.trans hattends.usable
    listener := rfl
    outbound := hattends.outbound
    greeted := hattends.greeted
    owed := hattends.owed
    client := rfl
    unread := rfl }

theorem request_steps {s : Session π} {c : Chronicle} {e : Exchange} {message : Message}
    {before after : List Bytes} {payload : Bytes} {reply : Reply} (h : Coherent c e)
    (hrest : AtRest s e) (hsize : message.bytes.length ≤ Frame.maxSize)
    (hreaction : Answers (s.link.peer.react s.link.state message.bytes).1 before payload after)
    (hcontent : Content.ofFrame payload = .reply reply) :
    ∃ more t next, s.request message = (some reply, next) ∧
      Steps s.label e (more ++ [.resumed (some message) reply]) t ∧ AtRest next t ∧
      next.label = s.label ∧ next.link.peer = s.link.peer ∧
      next.link.state = (s.link.peer.react s.link.state message.bytes).2 := by
  rcases h.exists_register (Or.inr hrest.client) with ⟨d, hregister⟩
  generalize hreact : s.link.peer.react s.link.state message.bytes = reaction at hreaction ⊢
  obtain ⟨acts, state⟩ := reaction
  have hwritten : [e.outbound ++ Frame.encode message.bytes].flatten =
      Frame.encode message.bytes ++ [] := by
    rw [hrest.outbound, List.flatten_singleton, List.append_nil]
    rfl
  rcases Frame.read_encode_append s.label hwritten hsize with ⟨left, hread, hleft⟩
  have hserved : Steps s.label e _ _ :=
    (Steps.stay e)
      |>.step (@Step.register _ _ d message hrest.client hregister)
      |>.step (.write rfl hsize)
      |>.step (.serve hread)
  have hreplied := Steps.trans hserved (steps_around hreaction
    fun _ => @Step.reply _ _ payload reply 0 hrest.greeted (by rw [hrest.owed]) hcontent
      (hreaction.sizes payload (List.mem_append_right _ List.mem_cons_self)))
  have hsend : s.link.send s.label message.bytes = .ok
      { s.link with
        state := state
        received := message.bytes :: s.link.received
        inbound := s.link.inbound ++ (before ++ payload :: after).flatMap Frame.encode } := by
    have hsmall := Nat.not_le.mpr (Frame.lt_of_le_maxSize hsize)
    have hacts : acts = (before ++ payload :: after).map Act.frame := hreaction.acts
    rw [Link.send, if_neg hsmall, if_neg (by simp [hrest.connected]), hreact, hacts]
    exact congrArg Except.ok (perform_frames _ _)
  have hanswers := h.answers_of_idle hrest.listener hrest.unread
  have hlength : (replies c.frames).length = e.ticket := by
    rw [← h.free hrest.client, hanswers, length_numbered]
  have hframes (c' : Chronicle) (hsame : c'.frames = c.frames) :
      replies (((before ++ payload :: after).map Deed.sent).foldl .note c').frames =
        replies c.frames ++ [reply] := by
    rw [frames_foldl_sent, hsame, replies_append, hreaction.replies hcontent]
  have hsent := hreplied.coherent h
  rw [List.foldl_append] at hsent
  have hattends : Attends
      { s with
        dispatcher := d
        ticket := s.ticket + 1
        link := { s.link with
          state := state
          received := message.bytes :: s.link.received
          inbound := s.link.inbound ++ (before ++ payload :: after).flatMap Frame.encode } }
      { e with
        client := .waiting e.ticket (some message)
        dispatcher := d
        ticket := e.ticket + 1
        outbound := left.flatten
        inbound := e.inbound ++ (before ++ payload :: after).flatMap Frame.encode
        owed := 0 } :=
    ⟨rfl, congrArg (· + 1) hrest.ticket, congrArg (· ++ _) hrest.inbound, hrest.connected,
      hrest.usable, hrest.listener, hleft, hrest.greeted, rfl⟩
  rcases await_steps hsent hattends rfl hanswers hlength (hframes _ rfl) with
    ⟨more, t, next, hawait, hsteps, hatRest, hlabel, hlink⟩
  have hrequest : s.request message = (some reply, next) := by
    have hregistered : s.dispatcher.register? s.ticket = some d := by
      rw [hrest.dispatcher, hrest.ticket]
      exact hregister
    rw [← hrest.ticket] at hawait
    rw [request, if_neg (by simp [hrest.usable]), hregistered]
    simp only [hsend]
    exact hawait
  have hall := Steps.trans hreplied hsteps
  rw [← List.append_assoc] at hall
  exact ⟨_, t, next, hrequest, hall, hatRest, hlabel, by rw [hlink], by rw [hlink]⟩

theorem awaitReady_steps (label : String) {peer : Peer π} {state : π} {before after : List Bytes}
    {payload : Bytes} {name version : String} (hgreet : Answers peer.greet before payload after)
    (hcontent : Content.ofFrame payload = .reply (.ok (.ready name version))) :
    ∃ more t next,
      (start label (Link.start peer state)).awaitReady = (some (.ok ()), next) ∧
      Steps label Exchange.start (more ++ [.resumed none (.ok (.ready name version))]) t ∧
      AtRest next t ∧ next.label = label ∧ next.link.peer = peer ∧ next.link.state = state := by
  have hacts := hgreet.acts
  have hlink : Link.start peer state =
      ⟨peer, state, (before ++ payload :: after).flatMap Frame.encode, false, []⟩ := by
    rw [Link.start, hacts]
    exact perform_frames _ _
  have hgreeted : Steps label Exchange.start _ _ := steps_around hgreet
    fun _ => @Step.greet _ _ payload name version rfl hcontent
      (hgreet.sizes payload (List.mem_append_right _ List.mem_cons_self))
  have hbegun : Steps label Exchange.start _ _ := hgreeted.step (.begin rfl rfl)
  have hcoherent := hbegun.coherent coherent_start
  have hreplies : replies
      (((before ++ payload :: after).map Deed.sent).foldl .note Chronicle.empty).frames =
        [.ok (.ready name version)] := by
    rw [frames_foldl_sent]
    exact hgreet.replies hcontent
  have hattends : Attends
      { start label (Link.start peer state) with
        dispatcher := { Dispatcher.start doorCapacity with door := [0] }, ticket := 1 }
      { Exchange.start with
        client := .waiting 0 none
        listener := .idle
        dispatcher := { Dispatcher.start doorCapacity with door := [0] }
        ticket := 1
        inbound := [] ++ (before ++ payload :: after).flatMap Frame.encode
        greeted := true } :=
    ⟨rfl, rfl, congrArg Link.inbound hlink, congrArg Link.hungUp hlink, rfl, rfl, rfl, rfl, rfl⟩
  rw [List.foldl_append] at hcoherent
  rcases @await_steps _ _ _ _ 0 none _ [] hcoherent hattends rfl rfl rfl hreplies with
    ⟨more, t, next, hawait, hsteps, hrest, hlabel, hnext⟩
  have hdone : (start label (Link.start peer state)).awaitReady =
      (some (.ok ()), { next with engine := (name, version) }.report .info
        s!"Connected to {name} v{version}") := by
    have hregister : (start label (Link.start peer state)).dispatcher.register?
        (start label (Link.start peer state)).ticket =
          some { Dispatcher.start doorCapacity with door := [0] } := rfl
    rw [awaitReady, hregister]
    simp only
    rw [show (start label (Link.start peer state)).ticket = 0 from rfl, hawait]
    rfl
  have hall := Steps.trans hbegun hsteps
  rw [← List.append_assoc] at hall
  refine ⟨_, t, _, hdone, hall, ?_, hlabel, ?_, ?_⟩
  · exact ⟨⟨hrest.dispatcher, hrest.ticket, hrest.inbound, hrest.connected, hrest.usable,
      hrest.listener, hrest.outbound, hrest.greeted, hrest.owed⟩, hrest.client, hrest.unread⟩
  · exact (congrArg Link.peer hnext).trans (congrArg Link.peer hlink)
  · exact (congrArg Link.state hnext).trans (congrArg Link.state hlink)

theorem invoke_steps {s : Session π} {c : Chronicle} {e : Exchange} {target : Target}
    {method : String} {args : List Json.Value} {before after : List Bytes} {payload : Bytes}
    {reply : Reply} (h : Coherent c e) (hrest : AtRest s e)
    (hsize : (Message.invoke target method args).bytes.length ≤ Frame.maxSize)
    (hreaction : Answers
      (s.link.peer.react s.link.state (Message.invoke target method args).bytes).1
      before payload after)
    (hcontent : Content.ofFrame payload = .reply reply) :
    ∃ more t next, s.invoke target method args = (some (worth target method payload), next) ∧
      Steps s.label e more t ∧ AtRest next t := by
  rcases request_steps h hrest hsize hreaction hcontent with
    ⟨more, t, next, hrequest, hsteps, hnext, _⟩
  refine ⟨_, t, next, ?_, hsteps, hnext⟩
  rw [invoke, hrequest, ← bind_returned_eq_worth hcontent]
  rfl

end Session

/-! ## Every wait -/

namespace Exchange

/-- However the steps fall, every wait comes to its own reply: what was done is as it should be, a
client that is done with its waits is never turned away, and when the reply it waits for has been
sent, the listener ends the wait with it.  A session that has got as far goes on in the same way:
its next call comes to what the frame that replies to it is worth. -/
theorem each_wait_comes_to_its_reply {label : String} {trace : List Deed} {e : Exchange}
    (h : Steps label start trace e) :
    let c := Chronicle.ofTrace trace
    Faithful c ∧
      (e.client = .opening ∨ e.client = .free → ∃ d, e.dispatcher.register? e.ticket = some d) ∧
      (∀ ticket request? reply, e.client = .waiting ticket request? →
        (replies c.frames)[c.requests.length]? = some reply →
        ∃ more t, (∀ deed ∈ more, deed.party = .listener) ∧
          Steps label e (more ++ [.resumed request? reply]) t) ∧
      (∀ (π : Type) (s : Session π) target method args before payload after reply,
        s.label = label → s.AtRest e →
        (Message.invoke target method args).bytes.length ≤ Frame.maxSize →
        Session.Answers
          (s.link.peer.react s.link.state (Message.invoke target method args).bytes).1
          before payload after →
        Content.ofFrame payload = .reply reply →
        ∃ more t next, s.invoke target method args = (some (worth target method payload), next) ∧
          Steps label e more t ∧ next.AtRest t) := by
  have hcoherent := h.coherent coherent_start
  refine ⟨hcoherent.faithful, hcoherent.exists_register, ?_, ?_⟩
  · intro ticket request? reply hwaiting hreply
    exact hcoherent.wait_ends label hwaiting hreply
  · rintro π s target method args before payload after reply rfl hrest hsize hreaction hcontent
    exact Session.invoke_steps hcoherent hrest hsize hreaction hcontent

def bracing : Peer Unit where
  greet := [.frame (Message.ready "" "").bytes]
  react _ _ := ([.frame [0x7B]], ())

/-- An engine that is ready, replies to a request with a brace and tells of an event before that:
the wait for the request comes to what is wrong with the brace.  So does the call of a session
that has waited for an engine of this kind. -/
theorem brace_comes_to_its_wait :
    (∃ trace e fault, Steps "Mock" start trace e ∧
      (Chronicle.ofTrace trace).results =
        [(none, .ok (.ready "" "")), (some .shutdown, .error (.malformed fault))] ∧
      Faithful (.ofTrace trace)) ∧
    ∃ ready next fault,
      (Session.start "Mock" (Link.start bracing ())).awaitReady = (some (.ok ()), ready) ∧
      ready.invoke ⟨"cards", "CardCatalogue"⟩ "reload" [] =
        (some (.error (.malformed fault)), next) := by
  have hready : Steps "Mock" start _ _ :=
    (Steps.stay start)
      |>.step (.begin rfl rfl)
      |>.step (@Step.greet _ _ (Message.ready "" "").bytes _ _ rfl rfl (by decide))
      |>.step (.fetch rfl rfl)
      |>.step (.collect rfl)
      |>.step (.dispatch rfl rfl)
      |>.step (.resume rfl rfl)
  have hreplied : Steps "Mock" start _ _ :=
    hready
      |>.step (@Step.register _ _ _ .shutdown rfl rfl)
      |>.step (@Step.tell _ _ (Message.event ⟨"GameOver", .null⟩).bytes _ rfl (by decide))
      |>.step (.write rfl (by decide))
      |>.step (.fetch rfl rfl)
      |>.step (.serve rfl)
      |>.step (@Step.reply _ _ [0x7B] _ _ rfl rfl rfl (by decide))
      |>.step (.collect rfl)
      |>.step (.dispatch rfl rfl)
      |>.step (.fetch rfl rfl)
      |>.step (.collect rfl)
      |>.step (.dispatch rfl rfl)
      |>.step (.resume rfl rfl)
  refine ⟨⟨_, _, _, hreplied, rfl, (each_wait_comes_to_its_reply hreplied).left⟩, ?_⟩
  have hgreet : Session.Answers bracing.greet [] (Message.ready "" "").bytes [] :=
    ⟨rfl, by decide, List.forall_mem_nil _, List.forall_mem_nil _⟩
  have hbrace : Session.Answers [.frame [0x7B]] [] [0x7B] [] :=
    ⟨rfl, by decide, List.forall_mem_nil _, List.forall_mem_nil _⟩
  rcases @Session.awaitReady_steps _ "Mock" bracing () [] [] _ "" "" hgreet rfl with
    ⟨_, e, ready, hawait, hsteps, hrest, hlabel, hpeer, _⟩
  have hreaction : Session.Answers (ready.link.peer.react ready.link.state
      (Message.invoke ⟨"cards", "CardCatalogue"⟩ "reload" []).bytes).1 [] [0x7B] [] := by
    rw [hpeer]
    exact hbrace
  rcases (each_wait_comes_to_its_reply hsteps).right.right.right Unit ready
      ⟨"cards", "CardCatalogue"⟩ "reload" [] [] [0x7B] [] _ hlabel hrest (by decide) hreaction rfl with
    ⟨_, _, next, hinvoke, _⟩
  exact ⟨ready, next, _, hawait, hinvoke⟩

end Exchange
end Engine
end Cardsmith
