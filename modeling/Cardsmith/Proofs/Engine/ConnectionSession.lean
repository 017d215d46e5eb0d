import Cardsmith.Proofs.Engine.Hearing
import Cardsmith.Proofs.Engine.Line

/-!
# Sessions as connections

A session takes the steps of a client, of an ear and of an engine in one order: the engine reacts as
soon as a request is written, and everything it has sent is read before the client goes on.
-/

namespace Cardsmith
namespace Engine

/-! ## Who waits after a frame and after a loss -/

namespace Dispatcher

variable {d next : Dispatcher Nat} {notices : List (Notice Nat)}

/-- Nobody has gone, and all that wait have numbers below the one given. -/
structure Numbered (ticket : Nat) (d : Dispatcher Nat) : Prop where
  there : d.gone = []
  below : ∀ who ∈ d.pending ++ d.door, who < ticket

theorem Numbered.register {ticket : Nat} (h : d.Numbered ticket)
    (hregister : d.register? ticket = some next) : next.Numbered (ticket + 1) := by
  rw [register?_eq] at hregister
  split at hregister
  · cases hregister
    refine ⟨h.there, ?_⟩
    intro who hwho
    rw [← List.append_assoc] at hwho
    rcases List.mem_append.mp hwho with hearlier | hnew
    · exact Nat.lt_succ_of_lt (h.below who hearlier)
    · rw [List.mem_singleton.mp hnew]
      exact Nat.lt_succ_self ticket
  · cases hregister

theorem running_of_register? {ticket : Nat} (hregister : d.register? ticket = some next) :
    d.running = true ∧ next.running = true := by
  rw [register?_eq] at hregister
  split at hregister
  · rename_i hroom
    cases hregister
    exact ⟨hroom.left, hroom.left⟩
  · cases hregister

theorem receive_waiting (hthere : d.gone = []) (hrunning : d.running = true) (payload : Bytes) :
    (Notice.answers (d.receive payload).1).map Prod.fst ++
        ((d.receive payload).2.pending ++ (d.receive payload).2.door) = d.pending ++ d.door ∧
      (d.receive payload).2.gone = [] ∧ (d.receive payload).2.running = true := by
  rcases meet_line hthere (.frame payload) with ⟨next, hmeet, hline, hgone, _⟩
  have hsame : d.meet (.frame payload) =
      (.ofNotices (d.receive payload).1, (d.receive payload).2) := if_pos hrunning
  rw [hsame] at hmeet
  rcases Prod.mk.inj hmeet with ⟨heffect, rfl⟩
  have hwaiting := Line.meet_waiting d.capacity (.frame payload) d.line
  rw [← heffect, ← hline] at hwaiting
  have hserve : d.line.meet d.capacity (.frame payload) = d.line.serve d.capacity (.frame payload) :=
    if_pos hrunning
  refine ⟨?_, hgone, ?_⟩
  · rw [← show d.line.waiting ++ [] = d.pending ++ d.door from List.append_nil _]
    exact hwaiting.symm
  · have hkept := Line.serve_running d.capacity d.line (.frame payload) (by simp)
    rw [← hserve, ← hline] at hkept
    exact hkept.trans hrunning

theorem lose_waiting (hthere : d.gone = []) :
    (Notice.answers d.lose.1).map Prod.fst = d.pending ++ d.door ∧
      d.lose.2.pending ++ d.lose.2.door = [] ∧ d.lose.2.gone = [] ∧ d.lose.2.running = false := by
  rw [lose_of_all_there hthere]
  refine ⟨?_, rfl, hthere, rfl⟩
  rw [Notice.answers_map_answered]
  exact Line.map_fst_map_mk _ _

theorem Numbered.receive {ticket : Nat} (h : d.Numbered ticket) (hrunning : d.running = true)
    (payload : Bytes) : (d.receive payload).2.Numbered ticket := by
  rcases receive_waiting h.there hrunning payload with ⟨hwaiting, hthere, _⟩
  refine ⟨hthere, ?_⟩
  intro who hwho
  apply h.below
  rw [← hwaiting]
  exact List.mem_append_right _ hwho

theorem Numbered.lose {ticket : Nat} (h : d.Numbered ticket) : d.lose.2.Numbered ticket := by
  rcases lose_waiting h.there with ⟨_, hnobody, hthere, _⟩
  refine ⟨hthere, ?_⟩
  intro who hwho
  rw [hnobody] at hwho
  cases hwho

end Dispatcher

namespace Session

open Connection

variable {π : Type}

/-! ## Listening -/

def Sound (s : Session π) : Prop := s.dispatcher.Numbered s.ticket

/-- A session stands where a connection stands whose client does what is given; the requests that
the engine got before are left out. -/
structure Stands (base : List Bytes) (caller : Caller) (s : Session π) (c : Connection) : Prop where
  caller : c.caller = caller
  ear : c.ear = if s.dispatcher.running then .idle else .ended
  dispatcher : s.dispatcher = c.dispatcher
  ticket : s.ticket = c.ticket
  inbound : s.link.inbound = c.inbound
  hungUp : s.link.hungUp = c.hungUp
  closed : s.closed = c.closed
  outlet : c.closed = false → c.outlet = .intact ∨ c.outlet = .broken ∧ c.hungUp = true
  outbound : ∃ sent, s.received = base ++ sent ∧ c.outbound = sent.flatMap Frame.encode ∧
    ∀ payload ∈ sent, payload.length < 0x100000000
  sound : s.Sound
  earlier : ∀ answer ∈ c.answers, answer.1 < c.ticket

theorem Stands.unreleased {base : List Bytes} {caller : Caller} {s : Session π} {c : Connection}
    (h : Stands base caller s c) (hopen : c.closed = false) : c.outlet ≠ .released := by
  intro hreleased
  rcases h.outlet hopen with hintact | ⟨hbroken, _⟩
  · cases hintact.symm.trans hreleased
  · cases hbroken.symm.trans hreleased

theorem Stands.status {base : List Bytes} {caller : Caller} {s : Session π} {c : Connection}
    (h : Stands base caller s c) : s.status = c.status ∧ s.isOpen = c.isOpen := by
  have hstatus : s.status = c.status := by
    unfold Session.status Connection.status
    rw [h.ear, h.closed]
    cases s.dispatcher.running <;> rfl
  constructor
  · exact hstatus
  · unfold Session.isOpen Connection.isOpen
    rw [hstatus]

theorem earlier_append {d : Dispatcher Nat} {ticket : Nat} {answers new : List (Nat × Reply)}
    {waiting : List Nat} (hanswers : ∀ answer ∈ answers, answer.1 < ticket)
    (hd : d.Numbered ticket) (hnew : new.map Prod.fst ++ waiting = d.pending ++ d.door) :
    ∀ answer ∈ answers ++ new, answer.1 < ticket := by
  intro answer hanswer
  rcases List.mem_append.mp hanswer with hold | hadded
  · exact hanswers answer hold
  · apply hd.below
    rw [← hnew]
    exact List.mem_append_left _ (List.mem_map_of_mem hadded)

theorem frame_connection {base : List Bytes} {caller : Caller} {s : Session π} {c : Connection}
    {payload : Bytes} {left : List Bytes} (h : Stands base caller s c)
    (hrunning : s.dispatcher.running = true)
    (hread : Frame.read s.label [s.link.inbound] = .ok (payload, left)) :
    ∃ more d, Steps s.label c more d ∧
      Stands base caller
        { s.note (s.dispatcher.receive payload).1 (s.dispatcher.receive payload).2 with
          link := { s.link with inbound := left.flatten } } d ∧
      d.closed = c.closed ∧
      d.answers = c.answers ++ Notice.answers (s.dispatcher.receive payload).1 := by
  have hidle : c.ear = .idle := by rw [h.ear, if_pos hrunning]
  rw [h.inbound] at hread
  have hsteps : Steps s.label c _ _ :=
    (Steps.stay c)
      |>.step (.ear (.fetch hidle hread))
      |>.step (.ear (.collect rfl))
      |>.step (.ear (@EarStep.dispatch _ _ _ (s.dispatcher.receive payload).1
        (s.dispatcher.receive payload).2 rfl (by rw [h.dispatcher]; rfl)))
  rcases Dispatcher.receive_waiting h.sound.there hrunning payload with
    ⟨hwaiting, _, hstill⟩
  refine ⟨_, _, hsteps, ?_, rfl, rfl⟩
  exact {
    caller := h.caller
    ear := (if_pos hstill).symm
    dispatcher := rfl
    ticket := h.ticket
    inbound := rfl
    hungUp := h.hungUp
    closed := h.closed
    outlet := h.outlet
    outbound := h.outbound
    sound := h.sound.receive hrunning payload
    earlier := by
      have hsound : s.dispatcher.Numbered c.ticket := h.ticket ▸ h.sound
      exact earlier_append h.earlier hsound hwaiting }

theorem loss_connection {base : List Bytes} {caller : Caller} {s : Session π} {c : Connection}
    {fault : FrameFault} (h : Stands base caller s c) (hrunning : s.dispatcher.running = true)
    (hread : Frame.read s.label [s.link.inbound] = .error fault)
    (hsettled : fault.settled s.link.hungUp = true) (level : LogLevel) (message : String) :
    ∃ more d, Steps s.label c more d ∧
      Stands base caller ((s.report level message).note s.dispatcher.lose.1 s.dispatcher.lose.2) d ∧
      d.closed = c.closed ∧ d.answers = c.answers ++ Notice.answers s.dispatcher.lose.1 := by
  have hidle : c.ear = .idle := by rw [h.ear, if_pos hrunning]
  rw [h.inbound] at hread
  rw [h.hungUp] at hsettled
  have hsteps : Steps s.label c _ _ :=
    (Steps.stay c)
      |>.step (.ear (.fail hidle hread hsettled))
      |>.step (.ear (@EarStep.lose _ _ s.dispatcher.lose.1 s.dispatcher.lose.2 rfl
        (by rw [h.dispatcher])))
      |>.step (.ear (.leave rfl))
  rcases Dispatcher.lose_waiting h.sound.there with ⟨hwaiting, _, _, hstopped⟩
  refine ⟨_, _, hsteps, ?_, rfl, rfl⟩
  exact {
    caller := h.caller
    ear := (if_neg (Bool.eq_false_iff.mp hstopped)).symm
    dispatcher := rfl
    ticket := h.ticket
    inbound := h.inbound
    hungUp := h.hungUp
    closed := h.closed
    outlet := h.outlet
    outbound := h.outbound
    sound := h.sound.lose
    earlier := by
      have hsound : s.dispatcher.Numbered c.ticket := h.ticket ▸ h.sound
      exact earlier_append h.earlier hsound ((List.append_nil _).trans hwaiting) }

theorem listenUpTo_settled {s : Session π} {fault : FrameFault}
    (hrunning : s.dispatcher.running = true)
    (hread : Frame.read s.label [s.link.inbound] = .error fault)
    (hsettled : fault.settled s.link.hungUp = true) (limit : Nat) :
    s.listenUpTo (limit + 1) =
      (s.dispatcher.lose.1,
        (s.report .error
          ("Reader task failed: " ++ (Fault.connection (.frame fault)).message)).note
            s.dispatcher.lose.1 s.dispatcher.lose.2) := by
  rw [listenUpTo, if_pos hrunning, hread]
  cases fault <;> simp_all [FrameFault.settled]

theorem listenUpTo_waits {s : Session π} {fault : FrameFault}
    (hrunning : s.dispatcher.running = true)
    (hread : Frame.read s.label [s.link.inbound] = .error fault)
    (hsettled : ¬ fault.settled s.link.hungUp = true) (limit : Nat) :
    s.listenUpTo (limit + 1) = ([], s) := by
  rw [listenUpTo, if_pos hrunning, hread]
  cases fault <;> simp_all [FrameFault.settled]

/-- Everything that a session reads is read by the ear. -/
theorem listenUpTo_connection {base : List Bytes} {caller : Caller} {limit : Nat} {s : Session π}
    {c : Connection} (h : Stands base caller s c) :
    ∃ more d, Steps s.label c more d ∧ Stands base caller (s.listenUpTo limit).2 d ∧
      (s.listenUpTo limit).2.label = s.label ∧ d.closed = c.closed ∧
      d.answers = c.answers ++ Notice.answers (s.listenUpTo limit).1 := by
  induction limit generalizing s c with
  | zero => exact ⟨[], c, .stay c, h, rfl, rfl, (List.append_nil _).symm⟩
  | succ limit ih =>
      by_cases hrunning : s.dispatcher.running = true
      · cases hread : Frame.read s.label [s.link.inbound] with
        | ok found =>
            obtain ⟨payload, left⟩ := found
            rcases frame_connection h hrunning hread with ⟨first, e, hfirst, he, hclosed, hanswers⟩
            rcases @ih _ _ he with ⟨more, d, hmore, hd, hlabel, hclosedLast, hanswersLast⟩
            refine ⟨first ++ more, d, hfirst.trans hmore, ?_⟩
            rw [listenUpTo, if_pos hrunning, hread]
            refine ⟨hd, hlabel, hclosedLast.trans hclosed, ?_⟩
            rw [hanswersLast, hanswers, List.append_assoc, Notice.answers_append]
        | error fault =>
            by_cases hsettled : fault.settled s.link.hungUp = true
            · rcases loss_connection h hrunning hread hsettled .error
                ("Reader task failed: " ++ (Fault.connection (.frame fault)).message) with
                ⟨more, d, hmore, hd, hclosed, hanswers⟩
              have hlisten := listenUpTo_settled hrunning hread hsettled limit
              rw [hlisten]
              exact ⟨more, d, hmore, hd, rfl, hclosed, hanswers⟩
            · have hlisten := listenUpTo_waits hrunning hread hsettled limit
              rw [hlisten]
              exact ⟨[], c, .stay c, h, rfl, rfl, (List.append_nil _).symm⟩
      · have hquiet : s.listenUpTo (limit + 1) = ([], s) := by rw [listenUpTo, if_neg hrunning]
        rw [hquiet]
        exact ⟨[], c, .stay c, h, rfl, rfl, (List.append_nil _).symm⟩

/-! ## Writing -/

theorem perform_connection (label : String) {link : Link π} {c : Connection} (acts : List Act)
    (hinbound : link.inbound = c.inbound) (hlink : link.hungUp = false) (hc : c.hungUp = false) :
    ∃ more inbound hungUp, link.perform acts = { link with inbound := inbound, hungUp := hungUp } ∧
      Steps label c more { c with inbound := inbound, hungUp := hungUp } := by
  induction acts generalizing link c with
  | nil =>
      refine ⟨[], c.inbound, false, ?_, ?_⟩
      · rw [← hinbound, ← hlink]
        rfl
      · rw [← hc]
        exact .stay c
  | cons act rest ih =>
      cases act with
      | hangUp =>
          refine ⟨[.hungUp], c.inbound, true, ?_, (Step.engine .hangUp).steps⟩
          rw [← hinbound]
          rfl
      | send bytes =>
          have hsend : Step label c (.sent bytes) { c with inbound := c.inbound ++ bytes } :=
            .engine (.send bytes hc)
          rcases @ih { link with inbound := link.inbound ++ bytes }
            { c with inbound := c.inbound ++ bytes } (congrArg (· ++ bytes) hinbound) hlink hc with
            ⟨more, inbound, hungUp, hperform, hmore⟩
          exact ⟨_, inbound, hungUp, hperform, hsend.steps.trans hmore⟩

theorem Stands.turn {base : List Bytes} {caller next : Caller} {s : Session π} {c : Connection}
    (h : Stands base caller s c) : Stands base next s { c with caller := next } :=
  ⟨rfl, h.ear, h.dispatcher, h.ticket, h.inbound, h.hungUp, h.closed, h.outlet, h.outbound,
    h.sound, h.earlier⟩

variable {base : List Bytes} {errand : Errand} {s : Session π} {c : Connection}

theorem unsent_connection {fault : FrameFault}
    (h : Stands base (.writing errand (Frame.encode errand.payload)) s c)
    (hunreleased : c.outlet ≠ .released)
    (hsend : s.link.send s.label errand.payload = .error fault) :
    ∃ d, Steps s.label c [.unwritten (.frame fault)] d ∧
      Stands base (errand.unwritten (.frame fault)) s d := by
  unfold Link.send at hsend
  split at hsend
  · rename_i hlarge
    cases hsend
    exact ⟨_, (Step.client (.oversize h.caller hunreleased hlarge)).steps, h.turn⟩
  · rename_i hsmall
    split at hsend
    · rename_i hlost
      cases hsend
      refine ⟨_, (Step.client (.breakOff (some .length) .brokenPipe h.caller hunreleased
        (Nat.lt_of_not_le hsmall))).steps, ?_⟩
      refine ⟨rfl, h.ear, h.dispatcher, h.ticket, h.inbound, h.hungUp, h.closed, ?_, h.outbound,
        h.sound, h.earlier⟩
      intro _
      exact Or.inr ⟨rfl, h.hungUp ▸ hlost⟩
    · cases hsend

theorem sent_connection {link : Link π}
    (h : Stands base (.writing errand (Frame.encode errand.payload)) s c)
    (houtlet : c.outlet = .intact ∨ c.outlet = .broken ∧ c.hungUp = true)
    (hsend : s.link.send s.label errand.payload = .ok link) :
    ∃ more d, Steps s.label c more d ∧ Stands base errand.written { s with link := link } d ∧
      d.answers = c.answers := by
  unfold Link.send at hsend
  split at hsend
  · cases hsend
  · rename_i hlarge
    split at hsend
    · cases hsend
    · rename_i hlost
      have hlink : s.link.hungUp = false := Bool.eq_false_iff.mpr hlost
      have hup : c.hungUp = false := h.hungUp ▸ hlink
      have hintact : c.outlet = .intact := by
        rcases houtlet with hintact | ⟨_, hc⟩
        · exact hintact
        · rw [hup] at hc
          cases hc
      have hwhole : c.caller = .writing errand (Frame.encode errand.payload ++ []) := by
        rw [List.append_nil]
        exact h.caller
      have hsome : Frame.encode errand.payload ≠ [] := by
        apply List.ne_nil_of_length_pos
        rw [Frame.length_encode]
        omega
      have hwritten : Steps s.label c _ _ :=
        (Steps.stay c)
          |>.step (.client (.put hwhole hsome hintact (Nat.lt_of_not_le hlarge)))
          |>.step (.client (.write rfl hintact))
      generalize s.link.peer.react s.link.state errand.payload = reaction at hsend
      obtain ⟨acts, state⟩ := reaction
      rcases @perform_connection _ s.label
          { s.link with state := state, received := errand.payload :: s.link.received }
          { c with
            caller := errand.written
            outbound := c.outbound ++ Frame.encode errand.payload } acts h.inbound hlink hup with
        ⟨more, inbound, hungUp, hperform, hmore⟩
      have hlinked : link = _ := (Except.ok.inj hsend).symm.trans hperform
      rw [hlinked]
      obtain ⟨sent, hreceived, hsent, hsizes⟩ := h.outbound
      refine ⟨_, _, hwritten.trans hmore, ?_, rfl⟩
      refine ⟨rfl, h.ear, h.dispatcher, h.ticket, rfl, rfl, h.closed, fun _ => Or.inl hintact, ?_,
        h.sound, h.earlier⟩
      refine ⟨sent ++ [errand.payload], ?_, ?_, ?_⟩
      · rw [← List.append_assoc, ← hreceived]
        exact List.reverse_cons
      · rw [List.flatMap_append, List.flatMap_singleton, ← hsent]
      · intro payload hpayload
        rcases List.mem_append.mp hpayload with hold | hnew
        · exact hsizes payload hold
        · rw [List.mem_singleton.mp hnew]
          exact Nat.lt_of_not_le hlarge

/-! ## Calls -/

theorem await_connection {ticket : Nat} {call : Call} (h : Stands base (.waiting ticket call) s c)
    (hnew : ∀ answer ∈ c.answers, answer.1 ≠ ticket) :
    match s.await ticket with
    | (some reply, next) => ∃ more d,
        Steps s.label c (more ++ [.returned call (reply.bind (returned call.target call.method))]) d ∧
          Stands base .free next d ∧ next.label = s.label
    | (none, _) => ∃ more d, Steps s.label c more d ∧ d.caller ≠ .free := by
  rcases @listenUpTo_connection _ _ _ (s.link.inbound.length + 1) _ _ h with
    ⟨more, d, hmore, hd, hlabel, _, hanswers⟩
  have hearlier : c.answers.lookup ticket = none := by
    apply List.lookup_eq_none_iff.mpr
    intro answer hanswer
    exact bne_iff_ne.mpr (hnew answer hanswer).symm
  have hlookup : d.answers.lookup ticket =
      (Notice.answers (s.listenUpTo (s.link.inbound.length + 1)).1).lookup ticket := by
    rw [hanswers, List.lookup_append, hearlier, Option.none_or]
  have hawait : s.await ticket =
      (d.answers.lookup ticket, (s.listenUpTo (s.link.inbound.length + 1)).2) := by
    rw [hlookup]
    rfl
  rw [hawait]
  cases hreply : d.answers.lookup ticket with
  | none =>
      refine ⟨more, d, hmore, ?_⟩
      rw [hd.caller]
      exact Caller.noConfusion
  | some reply =>
      exact ⟨more, _, hmore.step (.client (.resume hd.caller hreply)), hd.turn, hlabel⟩

theorem register_connection {d : Dispatcher Nat} {call : Call}
    (h : Stands base (.calling call) s c) (hopen : c.closed = false)
    (hregister : s.dispatcher.register? s.ticket = some d) :
    ∃ e, Step s.label c (.registered c.ticket) e ∧
      Stands base (.writing (.request s.ticket call) (Frame.encode call.message.bytes))
        { s with dispatcher := d, ticket := s.ticket + 1 } e ∧
      e.answers = c.answers ∧ e.closed = false := by
  have hsound := h.sound.register hregister
  obtain ⟨hrunning, hstill⟩ := Dispatcher.running_of_register? hregister
  have hidle : c.ear = .idle := by rw [h.ear, if_pos hrunning]
  have hhears : ¬ c.ear.Deaf := by
    rw [hidle]
    exact id
  have hsame : c.dispatcher.register? c.ticket = some d := by
    rw [← h.dispatcher, ← h.ticket]
    exact hregister
  refine ⟨_, .client (.register h.caller hopen hhears hsame), ?_, rfl, hopen⟩
  refine ⟨by rw [h.ticket], ?_, rfl, congrArg (· + 1) h.ticket, h.inbound, h.hungUp, h.closed,
    h.outlet, h.outbound, hsound, ?_⟩
  · rw [hidle]
    exact (if_pos hstill).symm
  · intro answer hanswer
    exact Nat.lt_succ_of_lt (h.earlier answer hanswer)

theorem request_connection (h : Stands base .free s c) (call : Call) :
    ∃ more d, Steps s.label c (.called call :: more) d ∧
      match s.request call.message with
      | (some reply, next) =>
          .returned call (reply.bind (returned call.target call.method)) ∈ more ∧
            Stands base .free next d ∧ next.label = s.label
      | (none, _) => d.caller ≠ .free := by
  have hcalled : Steps s.label c _ _ := (Steps.stay c).step (.client (.call call h.caller))
  by_cases hclosed : s.closed = true
  · have hrefused := hcalled.step (.client (.refuse rfl (h.closed ▸ hclosed)))
    refine ⟨_, _, hrefused, ?_⟩
    rw [request, if_pos hclosed]
    exact ⟨List.mem_singleton_self _, h.turn, rfl⟩
  · have hopen : c.closed = false := h.closed ▸ Bool.eq_false_iff.mpr hclosed
    cases hregister : s.dispatcher.register? s.ticket with
    | none =>
        by_cases hrunning : s.dispatcher.running = true
        · refine ⟨_, _, hcalled, ?_⟩
          rw [request, if_neg hclosed, hregister, if_pos hrunning]
          exact Caller.noConfusion
        · have hdeaf : c.ear.Deaf := by
            rw [h.ear, if_neg hrunning]
            trivial
          refine ⟨_, _, hcalled.step (.client (.turnAway rfl hopen hdeaf)), ?_⟩
          rw [request, if_neg hclosed, hregister, if_neg hrunning]
          exact ⟨List.mem_singleton_self _, h.turn, rfl⟩
    | some d =>
        rcases register_connection (s := s) h.turn hopen hregister with
          ⟨e, hregistered, he, hanswers, hstill⟩
        have hsteps := hcalled.step hregistered
        rw [request, if_neg hclosed, hregister]
        simp only
        cases hsend : s.link.send s.label call.message.bytes with
        | error fault =>
            rcases unsent_connection he (he.unreleased hstill) hsend with ⟨f, hunwritten, hf⟩
            have hfailed := (hsteps.trans hunwritten).step (.client (.fail hf.caller))
            exact ⟨_, _, hfailed, List.mem_append_right _ (List.mem_singleton_self _), hf.turn, rfl⟩
        | ok link =>
            rcases sent_connection he (he.outlet hstill) hsend with ⟨more, f, hwritten, hf, hsame⟩
            have hnew : ∀ answer ∈ f.answers, answer.1 ≠ s.ticket := by
              intro answer hanswer
              rw [hsame, hanswers] at hanswer
              rw [h.ticket]
              exact Nat.ne_of_lt (h.earlier answer hanswer)
            have hawait := await_connection hf hnew
            have hsofar := hsteps.trans hwritten
            cases hreply : await { s with dispatcher := d, ticket := s.ticket + 1, link := link }
                s.ticket with
            | mk reply? next =>
                rw [hreply] at hawait
                simp only [hreply]
                cases reply? with
                | none =>
                    rcases hawait with ⟨rest, last, hrest, hlast⟩
                    exact ⟨_, last, hsofar.trans hrest, hlast⟩
                | some reply =>
                    rcases hawait with ⟨rest, last, hrest, hlast, hlabel⟩
                    refine ⟨_, last, hsofar.trans hrest, ?_, hlast, hlabel⟩
                    exact List.mem_append_right _
                      (List.mem_append_right _ (List.mem_singleton_self _))

/-- A call of a session is a call of a client, and comes to the same. -/
theorem invoke_connection (h : Stands base .free s c) (call : Call) :
    ∃ more d, Steps s.label c (.called call :: more) d ∧
      match s.invoke call.target call.method call.args with
      | (some outcome, next) =>
          .returned call outcome ∈ more ∧ Stands base .free next d ∧ next.label = s.label
      | (none, _) => d.caller ≠ .free := by
  rcases request_connection h call with ⟨more, d, hsteps, hrequest⟩
  refine ⟨more, d, hsteps, ?_⟩
  have hmessage : Message.invoke call.target call.method call.args = call.message := rfl
  rw [invoke, hmessage]
  cases hreply : s.request call.message with
  | mk reply? next =>
      rw [hreply] at hrequest
      cases reply? with
      | none => exact hrequest
      | some reply => exact hrequest

/-! ## Closing -/

theorem finish_connection (h : Stands base .leaving s c) (hclosed : s.closed = true) :
    ∃ more d, Steps s.label c (more ++ [.closed (.ok ())]) d ∧ Stands base .free s d := by
  have hsteps : Steps s.label c _ _ :=
    (Steps.stay c)
      |>.step (.client (.release h.caller))
      |>.step (.client (.finish (.ok ()) rfl))
  refine ⟨_, _, hsteps, ?_⟩
  refine ⟨rfl, h.ear, h.dispatcher, h.ticket, h.inbound, h.hungUp, h.closed, ?_, h.outbound,
    h.sound, h.earlier⟩
  intro hopen
  rw [← h.closed, hclosed] at hopen
  cases hopen

theorem close_connection (h : Stands base .free s c) :
    ∃ more d, Steps s.label c (more ++ [.closed (.ok ())]) d ∧ Stands base .free s.close d ∧
      s.close.label = s.label := by
  by_cases hclosed : s.closed = true
  · have hclose : s.close = s := if_pos hclosed
    rw [hclose]
    exact ⟨[], c, (Step.client (.closeAgain h.caller (h.closed ▸ hclosed))).steps, h, rfl⟩
  · have hopen : c.closed = false := h.closed ▸ Bool.eq_false_iff.mpr hclosed
    have hbegun : Steps s.label c _ _ :=
      (Steps.stay c).step (.client (.close h.caller hopen))
    have hparting : Stands base (.writing .farewell (Frame.encode Errand.farewell.payload))
        { s with closed := true }
        { c with
          caller := .writing .farewell (Frame.encode Message.shutdown.bytes)
          closed := true } :=
      ⟨rfl, h.ear, h.dispatcher, h.ticket, h.inbound, h.hungUp, rfl, Bool.noConfusion, h.outbound,
        h.sound, h.earlier⟩
    rw [Session.close, if_neg hclosed]
    cases hsend : s.link.send s.label Message.shutdown.bytes with
    | error fault =>
        rcases unsent_connection hparting (h.unreleased hopen) hsend with ⟨d, hunwritten, hd⟩
        rcases finish_connection hd rfl with ⟨rest, e, hrest, he⟩
        have hall := (hbegun.trans hunwritten).trans hrest
        rw [← List.append_assoc] at hall
        exact ⟨_, e, hall, ⟨he.caller, he.ear, he.dispatcher, he.ticket, he.inbound, he.hungUp,
          he.closed, he.outlet, he.outbound, he.sound, he.earlier⟩, rfl⟩
    | ok link =>
        rcases sent_connection hparting (h.outlet hopen) hsend with ⟨more, d, hwritten, hd, _⟩
        rcases finish_connection hd rfl with ⟨rest, e, hrest, he⟩
        have hall := (hbegun.trans hwritten).trans hrest
        rw [← List.append_assoc] at hall
        exact ⟨_, e, hall, he, rfl⟩

/-! ## Sessions that begin -/

/-- The connection of a session whose client is free, as if nothing had been written. -/
def connection (s : Session π) : Connection where
  caller := .free
  ear := if s.dispatcher.running then .idle else .ended
  dispatcher := s.dispatcher
  ticket := s.ticket
  answers := []
  outlet := .intact
  outbound := []
  inbound := s.link.inbound
  hungUp := s.link.hungUp
  closed := s.closed

theorem Sound.stands (h : s.Sound) : Stands s.received .free s s.connection :=
  ⟨rfl, rfl, rfl, rfl, rfl, rfl, rfl, fun _ => Or.inl rfl,
    ⟨[], (List.append_nil _).symm, rfl, fun _ hpayload => absurd hpayload List.not_mem_nil⟩, h,
    fun _ hanswer => absurd hanswer List.not_mem_nil⟩

/-- A session is sound and has not been closed.  If it does not listen any more, then because no
frame will be read. -/
structure Usable (s : Session π) : Prop where
  sound : s.Sound
  usable : s.closed = false
  heard : s.dispatcher.running = false → Frame.Lost s.link.hungUp s.link.inbound

theorem Usable.start (label : String) (link : Link π) : (start label link).Usable :=
  ⟨⟨rfl, fun _ hwho => absurd hwho List.not_mem_nil⟩, rfl, Bool.noConfusion⟩

theorem Usable.connected (h : s.Usable) : s.connection.Connected := by
  refine ⟨rfl, h.usable, rfl, rfl, ?_⟩
  intro hover
  apply h.heard
  by_contra hrunning
  have hidle : s.connection.ear = .idle := if_pos (Bool.not_eq_false _ ▸ hrunning)
  rw [hidle] at hover
  exact hover

theorem Usable.listenUpTo (h : s.Usable) (limit : Nat) : (s.listenUpTo limit).2.Usable := by
  rcases @listenUpTo_connection _ _ _ limit _ _ h.sound.stands with ⟨_, d, hsteps, hd, _, hsame, _⟩
  have hopen : d.closed = false := hsame.trans h.usable
  refine ⟨hd.sound, hd.closed.trans hopen, ?_⟩
  intro hstopped
  have hover : d.ear.Over := by
    rw [hd.ear, hstopped]
    trivial
  rw [hd.hungUp, hd.inbound]
  exact (hsteps.ran h.connected.heard hover (hd.unreleased hopen)).lost

theorem Usable.await (h : s.Usable) (ticket : Nat) : (s.await ticket).2.Usable := by
  have hlistened := h.listenUpTo (s.link.inbound.length + 1)
  exact hlistened

theorem Usable.register {d : Dispatcher Nat} (h : s.Usable)
    (hregister : s.dispatcher.register? s.ticket = some d) (link : Link π) :
    { s with dispatcher := d, ticket := s.ticket + 1, link := link }.Usable := by
  refine ⟨h.sound.register hregister, h.usable, ?_⟩
  intro hstopped
  cases (Dispatcher.running_of_register? hregister).right.symm.trans hstopped

theorem Usable.request (h : s.Usable) (message : Message) : (s.request message).2.Usable := by
  rw [Session.request, if_neg (by simp [h.usable])]
  cases hregister : s.dispatcher.register? s.ticket with
  | none => exact h
  | some d =>
      simp only
      cases s.link.send s.label message.bytes with
      | error fault => exact h.register hregister s.link
      | ok link => exact (h.register hregister link).await s.ticket

theorem Usable.awaitReady (h : s.Usable) : s.awaitReady.2.Usable := by
  rw [Session.awaitReady]
  cases hregister : s.dispatcher.register? s.ticket with
  | none => exact h
  | some d =>
      have hawaited := (h.register hregister s.link).await s.ticket
      simp only
      cases hawait : Session.await { s with dispatcher := d, ticket := s.ticket + 1 } s.ticket with
      | mk reply? next =>
          rw [hawait] at hawaited
          cases reply? with
          | none => exact hawaited
          | some reply =>
              simp only
              cases reply.bind greeted with
              | error fault => exact hawaited
              | ok names => exact ⟨hawaited.sound, hawaited.usable, hawaited.heard⟩

theorem Usable.importViews (h : s.Usable) (views : List (String × String)) :
    (s.importViews views).2.Usable := by
  induction views generalizing s with
  | nil => exact h
  | cons view rest ih =>
      obtain ⟨view, package⟩ := view
      have hrequested := h.request (.importPackage view package)
      rw [Session.importViews]
      cases hrequest : s.request (.importPackage view package) with
      | mk reply? next =>
          rw [hrequest] at hrequested
          cases reply? with
          | none => exact hrequested
          | some reply =>
              simp only
              cases reply.bind imported with
              | error fault => exact hrequested
              | ok named =>
                  apply ih
                  split_ifs
                  · exact ⟨hrequested.sound, hrequested.usable, hrequested.heard⟩
                  · exact ⟨hrequested.sound, hrequested.usable, hrequested.heard⟩

theorem Usable.invoke (h : s.Usable) (target : Target) (method : String)
    (args : List Json.Value) : (s.invoke target method args).2.Usable := by
  have hrequested := h.request (.invoke target method args)
  rw [Session.invoke]
  cases hrequest : s.request (.invoke target method args) with
  | mk reply? next =>
      rw [hrequest] at hrequested
      exact hrequested

theorem Usable.begin (h : s.Usable) : s.begin.2.Usable := by
  have hready := h.awaitReady
  rw [Session.begin]
  split
  · rename_i next hnext
    rw [hnext] at hready
    have hviews := hready.importViews Engine.views
    split
    · rename_i last hlast
      rw [hlast] at hviews
      have hcards := hviews.invoke cardLoader.1 cardLoader.2 []
      split
      · rename_i loaded hloaded
        rw [hloaded] at hcards
        exact ⟨hcards.sound, hcards.usable, hcards.heard⟩
      · rename_i loaded hloaded
        rw [hloaded] at hcards
        exact hcards
      · rename_i loaded hloaded
        rw [hloaded] at hcards
        exact hcards
    · exact hviews
  · exact hready

theorem begun_connection {label : String} {link : Link π} {outcome : Wait Unit}
    {next : Session π} (h : (start label link).begin = (outcome, next)) :
    Connected next.connection ∧ Stands next.received .free next next.connection := by
  have husable := (Usable.start label link).begin
  rw [h] at husable
  exact ⟨husable.connected, husable.sound.stands⟩

end Session
end Engine
end Cardsmith
