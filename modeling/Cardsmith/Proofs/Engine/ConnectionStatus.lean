import Cardsmith.Proofs.Engine.ConnectionSession

/-!
# How a connection stands

A connection is ready, then it may have failed, then it may be closed, and it never goes back.  It
fails only where no frame can be read any more, and is closed only when the client closes it.  While
it is not ready, calls are refused.
-/

namespace Cardsmith
namespace Engine

def Status.rank : Status → Nat
  | .ready => 0
  | .failed => 1
  | .closed => 2

def Status.refusal? : Status → Option Fault
  | .ready => none
  | .failed => some (.connection .notListening)
  | .closed => some .closed

/-- Calls are refused, and closing is no matter.  Nothing is written and nobody registers. -/
def Move.Quiet (fault : Fault) : Move → Prop
  | .registered _ | .put _ | .wrote _ | .unwritten _ | .closing | .released => False
  | .returned _ outcome => outcome = .error fault
  | .closed outcome => outcome = .ok ()
  | .called _ | .fetched _ | .collected | .dispatched _ _ | .failed _ | .lost _ | .ended | .sent _
  | .hungUp => True

def Caller.Parting : Caller → Prop
  | .writing .farewell _ | .leaving | .gone => True
  | .free | .calling _ | .writing (.request _ _) _ | .waiting _ _ | .failing _ _ => False

/-- The call that has not returned, unless it is being written. -/
def Caller.due? : Caller → Option Call
  | .calling call | .waiting _ call | .failing call _ => some call
  | .free | .writing _ _ | .leaving | .gone => none

namespace Connection

variable {label : String} {b c d : Connection} {move : Move} {trace : List Move} {fault : Fault}

/-! ## Status -/

theorem status_eq_closed_iff : c.status = .closed ↔ c.closed = true := by
  unfold status
  split_ifs with hclosed hended <;> simp [hclosed]

theorem status_eq_failed_iff : c.status = .failed ↔ c.closed = false ∧ c.ear = .ended := by
  unfold status
  cases c.closed with
  | true => exact iff_of_false Status.noConfusion fun h => Bool.noConfusion h.left
  | false =>
      by_cases hended : c.ear = .ended
      · exact iff_of_true (if_pos hended) ⟨rfl, hended⟩
      · refine iff_of_false ?_ fun h => hended h.right
        rw [if_neg Bool.noConfusion, if_neg hended]
        exact Status.noConfusion

theorem isOpen_iff : c.isOpen = true ↔ c.status = .ready := decide_eq_true_iff

theorem status_congr (hclosed : d.closed = c.closed) (hear : d.ear = .ended ↔ c.ear = .ended) :
    d.status = c.status := by
  unfold status
  rw [hclosed, if_congr hear rfl rfl]

/-- The status changes only when the client closes, or when the ear ends. -/
theorem Step.status_cases (h : Step label c move d) :
    d.status = c.status ∨ move = .closing ∧ d.status = .closed ∨
      move = .ended ∧ c.status = .ready ∧ d.status = .failed := by
  have hends (hear : c.ear ≠ .ended) : { c with ear := .ended }.status = c.status ∨
      c.status = .ready ∧ { c with ear := .ended }.status = .failed := by
    unfold status
    cases c.closed with
    | true => exact Or.inl rfl
    | false => exact Or.inr ⟨if_neg hear, rfl⟩
  cases h with
  | engine h => cases h <;> exact Or.inl rfl
  | client h =>
      cases h with
      | close _ _ => exact Or.inr (Or.inl ⟨rfl, rfl⟩)
      | _ => exact Or.inl rfl
  | ear h =>
      cases h with
      | fetch hear | collect hear | dispatch hear | fail hear | lose hear =>
          refine Or.inl (status_congr rfl ?_)
          rw [hear]
          exact iff_of_false Ear.noConfusion Ear.noConfusion
      | leave hear | stop hear =>
          have hnot : c.ear ≠ .ended := by
            rw [hear]
            exact Ear.noConfusion
          exact (hends hnot).imp_right fun hchange => Or.inr ⟨rfl, hchange⟩

theorem Step.rank_le (h : Step label c move d) : c.status.rank ≤ d.status.rank := by
  rcases h.status_cases with hsame | ⟨_, hclosed⟩ | ⟨_, hready, _⟩
  · exact Nat.le_of_eq (congrArg Status.rank hsame.symm)
  · rw [hclosed]
    cases c.status <;> decide
  · rw [hready]
    exact Nat.zero_le _

theorem Steps.rank_le (h : Steps label c trace d) : c.status.rank ≤ d.status.rank := by
  induction h with
  | stay => exact Nat.le_refl _
  | step _ hstep ih => exact Nat.le_trans ih hstep.rank_le

theorem Step.closed_iff (h : Step label c move d) :
    d.closed = true ↔ c.closed = true ∨ move = .closing := by
  cases h with
  | ear h => cases h <;> exact (or_iff_left Move.noConfusion).symm
  | engine h => cases h <;> exact (or_iff_left Move.noConfusion).symm
  | client h =>
      cases h with
      | close _ _ => exact iff_of_true rfl (Or.inr rfl)
      | _ => exact (or_iff_left Move.noConfusion).symm

theorem Steps.closed_iff (h : Steps label c trace d) :
    d.closed = true ↔ c.closed = true ∨ .closing ∈ trace := by
  induction h with
  | stay => simp
  | step _ hstep ih =>
      rw [hstep.closed_iff, ih, List.mem_append, List.mem_singleton, or_assoc,
        @eq_comm _ _ Move.closing]

theorem Step.open_of_closing (h : Step label c .closing d) : c.closed = false := by
  cases h with
  | ear h => cases h
  | engine h => cases h
  | client h =>
      cases h with
      | close _ hopen => exact hopen

theorem Steps.closing_not_mem (h : Steps label c trace d) (hclosed : c.closed = true) :
    .closing ∉ trace := by
  induction h with
  | stay => exact List.not_mem_nil
  | step hearlier hstep ih =>
      intro hmem
      rcases List.mem_append.mp hmem with hold | hnew
      · exact ih hold
      · rw [← List.mem_singleton.mp hnew] at hstep
        cases hstep.open_of_closing.symm.trans (hearlier.closed_iff.mpr (Or.inl hclosed))

/-! ## Before closing -/

/-- A client that has not begun to close has not let go of the connection. -/
structure Holding (c : Connection) : Prop where
  unreleased : c.outlet ≠ .released
  staying : ¬ c.caller.Parting

theorem Connected.holding (h : c.Connected) : c.Holding := by
  refine ⟨?_, ?_⟩
  · rw [h.intact]
    exact Outlet.noConfusion
  · rw [h.free]
    exact id

theorem ClientStep.holding (h : c.Holding) (hstep : ClientStep label c move d)
    (hmove : move ≠ .closing) : d.Holding := by
  have hstays {caller : Caller} (hcaller : c.caller = caller) (hparts : caller.Parting) : False :=
    h.staying (hcaller ▸ hparts)
  have hasks {errand : Errand} {left : Bytes} (hcaller : c.caller = .writing errand left) :
      ∃ ticket call, errand = .request ticket call := by
    cases errand with
    | request ticket call => exact ⟨ticket, call, rfl⟩
    | farewell => exact (hstays hcaller trivial).elim
  cases hstep with
  | call | refuse | register | registerLate | turnAway | fail | resume | forsake =>
      exact ⟨h.unreleased, id⟩
  | closeAgain _ _ => exact h
  | close _ _ => exact absurd rfl hmove
  | release hcaller => exact (hstays hcaller trivial).elim
  | finish _ hcaller => exact (hstays hcaller trivial).elim
  | put hcaller _ _ _ | write hcaller _ | oversize hcaller _ _ | disconnect hcaller _ =>
      obtain ⟨ticket, call, rfl⟩ := hasks hcaller
      exact ⟨h.unreleased, id⟩
  | breakOff _ _ hcaller _ _ =>
      obtain ⟨ticket, call, rfl⟩ := hasks hcaller
      exact ⟨Outlet.noConfusion, id⟩

theorem Steps.holding (h : Steps label c trace d) (hc : c.Holding) (hopen : .closing ∉ trace) :
    d.Holding := by
  induction h with
  | stay => exact hc
  | step _ hstep ih =>
      rw [List.mem_append, List.mem_singleton, not_or] at hopen
      have hsofar := ih hopen.left
      cases hstep with
      | client hstep => exact hstep.holding hsofar (Ne.symm hopen.right)
      | ear hstep => cases hstep <;> exact ⟨hsofar.unreleased, hsofar.staying⟩
      | engine hstep => cases hstep <;> exact ⟨hsofar.unreleased, hsofar.staying⟩

/-! ## Where calls are refused -/

structure Refusing (fault : Fault) (c : Connection) : Prop where
  refusal : c.status.refusal? = some fault
  idle : c.caller = .free ∨ ∃ call, c.caller = .calling call

theorem Refusing.reason (h : c.Refusing fault) :
    c.closed = true ∧ fault = .closed ∨
      c.closed = false ∧ c.ear = .ended ∧ fault = .connection .notListening := by
  have hrefusal := h.refusal
  cases hstatus : c.status with
  | ready =>
      rw [hstatus] at hrefusal
      cases hrefusal
  | failed =>
      rw [hstatus] at hrefusal
      obtain ⟨hopen, hended⟩ := status_eq_failed_iff.mp hstatus
      exact Or.inr ⟨hopen, hended, (Option.some.inj hrefusal).symm⟩
  | closed =>
      rw [hstatus] at hrefusal
      exact Or.inl ⟨status_eq_closed_iff.mp hstatus, (Option.some.inj hrefusal).symm⟩

theorem Refusing.status_eq (h : c.Refusing fault) (hstep : Step label c move d)
    (hmove : move ≠ .closing) : d.status = c.status := by
  rcases hstep.status_cases with hsame | ⟨hclosing, _⟩ | ⟨_, hready, _⟩
  · exact hsame
  · exact absurd hclosing hmove
  · have hrefusal := h.refusal
    rw [hready] at hrefusal
    cases hrefusal

theorem Refusing.step (h : c.Refusing fault) (hstep : Step label c move d)
    (hmove : move ≠ .closing) :
    d.Refusing fault ∧ move.Quiet fault ∧ d.outbound = c.outbound ∧ d.ticket = c.ticket := by
  have hrefusal : d.status.refusal? = some fault := by
    rw [h.status_eq hstep hmove]
    exact h.refusal
  have hidle := h.idle
  have hbusy {caller : Caller} (hcaller : c.caller = caller) (hfree : caller ≠ .free)
      (hcalling : ∀ call, caller ≠ .calling call) : False := by
    rcases hidle with hidle | ⟨call, hidle⟩
    · exact hfree (hcaller.symm.trans hidle)
    · exact hcalling call (hcaller.symm.trans hidle)
  cases hstep with
  | ear hstep => cases hstep <;> exact ⟨⟨hrefusal, hidle⟩, trivial, rfl, rfl⟩
  | engine hstep => cases hstep <;> exact ⟨⟨hrefusal, hidle⟩, trivial, rfl, rfl⟩
  | client hstep =>
      cases hstep with
      | call call _ => exact ⟨⟨hrefusal, Or.inr ⟨call, rfl⟩⟩, trivial, rfl, rfl⟩
      | closeAgain _ _ => exact ⟨⟨hrefusal, hidle⟩, rfl, rfl, rfl⟩
      | close _ _ => exact absurd rfl hmove
      | refuse _ hclosed =>
          rcases h.reason with ⟨_, rfl⟩ | ⟨hopen, _, _⟩
          · exact ⟨⟨hrefusal, Or.inl rfl⟩, rfl, rfl, rfl⟩
          · cases hopen.symm.trans hclosed
      | turnAway _ hopen _ =>
          rcases h.reason with ⟨hclosed, _⟩ | ⟨_, _, rfl⟩
          · cases hopen.symm.trans hclosed
          · exact ⟨⟨hrefusal, Or.inl rfl⟩, rfl, rfl, rfl⟩
      | register _ hopen hhears _ =>
          rcases h.reason with ⟨hclosed, _⟩ | ⟨_, hended, _⟩
          · cases hopen.symm.trans hclosed
          · rw [hended] at hhears
            exact absurd trivial hhears
      | registerLate _ hopen hleaving =>
          rcases h.reason with ⟨hclosed, _⟩ | ⟨_, hended, _⟩
          · cases hopen.symm.trans hclosed
          · cases hended.symm.trans hleaving
      | put hcaller | write hcaller | oversize hcaller | disconnect hcaller | fail hcaller
      | resume hcaller | forsake hcaller | release hcaller | breakOff _ _ hcaller
      | finish _ hcaller =>
          exact (hbusy hcaller Caller.noConfusion fun _ => Caller.noConfusion).elim

theorem Refusing.steps (h : c.Refusing fault) (hsteps : Steps label c trace d)
    (hopen : .closing ∉ trace) :
    d.Refusing fault ∧ (∀ move ∈ trace, move.Quiet fault) ∧ d.outbound = c.outbound ∧
      d.ticket = c.ticket := by
  induction hsteps with
  | stay => exact ⟨h, fun _ hmove => absurd hmove List.not_mem_nil, rfl, rfl⟩
  | step _ hstep ih =>
      rw [List.mem_append, List.mem_singleton, not_or] at hopen
      obtain ⟨hrefusing, hquiet, houtbound, hticket⟩ := ih hopen.left
      obtain ⟨hrefusing', hquiet', houtbound', hticket'⟩ :=
        hrefusing.step hstep (Ne.symm hopen.right)
      refine ⟨hrefusing', ?_, houtbound'.trans houtbound, hticket'.trans hticket⟩
      intro move hmove
      rcases List.mem_append.mp hmove with hold | hnew
      · exact hquiet move hold
      · rw [List.mem_singleton.mp hnew]
        exact hquiet'

theorem Refusing.turns (h : c.Refusing fault) {call : Call} (hcalling : c.caller = .calling call) :
    Step label c (.returned call (.error fault)) { c with caller := .free } := by
  rcases h.reason with ⟨hclosed, rfl⟩ | ⟨hopen, hended, rfl⟩
  · exact .client (.refuse hcalling hclosed)
  · have hdeaf : c.ear.Deaf := by
      rw [hended]
      trivial
    exact .client (.turnAway hcalling hopen hdeaf)

theorem Refusing.answers (h : c.Refusing fault) (hfree : c.caller = .free) (call : Call) :
    Steps label c [.called call, .returned call (.error fault)] c := by
  have hcalled : Step label c (.called call) { c with caller := .calling call } :=
    .client (.call call hfree)
  have hmade : { c with caller := .calling call }.Refusing fault := ⟨h.refusal, Or.inr ⟨call, rfl⟩⟩
  have hrefused := hcalled.steps.trans (hmade.turns rfl).steps
  rw [← hfree] at hrefused
  exact hrefused

/-! ## No call waits for ever -/

theorem returns_of_ended {call : Call} (hended : c.ear = .ended)
    (hdue : c.caller.due? = some call) :
    ∃ outcome d, Step label c (.returned call outcome) d ∧ d.caller = .free ∧
      d.status = c.status := by
  have hdeaf : c.ear.Deaf := by
    rw [hended]
    trivial
  cases hcaller : c.caller with
  | calling made =>
      rw [hcaller] at hdue
      cases hdue
      cases hclosed : c.closed with
      | true => exact ⟨_, _, .client (.refuse hcaller hclosed), rfl, rfl⟩
      | false => exact ⟨_, _, .client (.turnAway hcaller hclosed hdeaf), rfl, rfl⟩
  | waiting ticket made =>
      rw [hcaller] at hdue
      cases hdue
      cases hreply : c.answers.lookup ticket with
      | some reply => exact ⟨_, _, .client (.resume hcaller hreply), rfl, rfl⟩
      | none => exact ⟨_, _, .client (.forsake hcaller hreply hdeaf), rfl, rfl⟩
  | failing made cause =>
      rw [hcaller] at hdue
      cases hdue
      exact ⟨_, _, .client (.fail hcaller), rfl, rfl⟩
  | free | writing | leaving | gone =>
      rw [hcaller] at hdue
      cases hdue

end Connection

/-! ## Sessions -/

namespace Session

variable {π : Type} {s : Session π} {fault : Fault}

theorem invoke_refused (h : s.status.refusal? = some fault) (call : Call) :
    s.invoke call.target call.method call.args = (some (.error fault), s) := by
  have hrequest : s.request call.message = (some (.error fault), s) := by
    unfold Session.status at h
    rw [Session.request]
    split_ifs at h ⊢ with hclosed hrunning
    · rw [Option.some.inj h]
    · cases h
    · have hnobody : s.dispatcher.register? s.ticket = none := by
        rw [Dispatcher.register?_eq, if_neg]
        exact fun hroom => hrunning hroom.left
      rw [hnobody, ← Option.some.inj h]
  have hmessage : Message.invoke call.target call.method call.args = call.message := rfl
  rw [invoke, hmessage, hrequest]
  rfl

theorem status_close : s.close.status = .closed := by
  have hclosed : s.close.closed = true := by
    unfold Session.close
    split_ifs with hclosed
    · exact hclosed
    · cases s.link.send s.label Message.shutdown.bytes <;> rfl
  exact if_pos hclosed

end Session

/-! ## How a connection has come to stand -/

namespace Connection

variable {label : String} {c d : Connection} {trace : List Move}

/-- A connection is closed exactly when the client has begun to close, and otherwise has failed
exactly when the ear has ended.  The ear has passed on every frame that it read, and before closing
it stops only where no frame will ever be read. -/
structure Standing (label : String) (c : Connection) (trace : List Move) (d : Connection) : Prop where
  closed : d.status = .closed ↔ .closing ∈ trace
  failed : d.status = .failed ↔ .closing ∉ trace ∧ d.ear = .ended
  usable : d.isOpen = true ↔ d.status = .ready
  heard : Heard c trace d
  ran : .closing ∉ trace → d.ear.Over → Ran label c trace d

/-- Of a connection that has failed no use can be made: calls are refused without anything being
written, whatever happens until the client closes, and those that were made before return. -/
structure Useless (label : String) (d : Connection) : Prop where
  refused : d.caller = .free → ∀ call,
    Steps label d [.called call, .returned call (.error (.connection .notListening))] d
  quiet : d.caller = .free → ∀ more e, Steps label d more e → .closing ∉ more →
    e.status = .failed ∧ e.outbound = d.outbound ∧ e.ticket = d.ticket ∧
      ∀ move ∈ more, move.Quiet (.connection .notListening)
  due : ∀ call, d.caller.due? = some call →
    ∃ outcome e, Step label d (.returned call outcome) e ∧ e.caller = .free ∧ e.status = .failed

theorem Connected.standing (hc : c.Connected) (h : Steps label c trace d) :
    Standing label c trace d := by
  have hclosed : d.closed = true ↔ .closing ∈ trace := by
    rw [h.closed_iff, hc.usable]
    exact or_iff_right Bool.noConfusion
  refine ⟨?_, ?_, isOpen_iff, h.heard, ?_⟩
  · rw [status_eq_closed_iff, hclosed]
  · rw [status_eq_failed_iff, ← hclosed, Bool.not_eq_true]
  · intro hopen hover
    exact h.ran hc.heard hover (h.holding hc.holding hopen).unreleased

theorem useless_of_failed (hfailed : d.status = .failed) : Useless label d := by
  have hended := (status_eq_failed_iff.mp hfailed).right
  have hrefusing (hfree : d.caller = .free) : d.Refusing (.connection .notListening) :=
    ⟨by rw [hfailed]; rfl, Or.inl hfree⟩
  refine ⟨?_, ?_, ?_⟩
  · intro hfree
    exact (hrefusing hfree).answers hfree
  · intro hfree more e hmore hopen
    obtain ⟨hstill, hquiet, houtbound, hticket⟩ := (hrefusing hfree).steps hmore hopen
    refine ⟨?_, houtbound, hticket, hquiet⟩
    rcases hstill.reason with ⟨_, hfault⟩ | ⟨hunclosed, hdead, _⟩
    · cases hfault
    · exact status_eq_failed_iff.mpr ⟨hunclosed, hdead⟩
  · intro call hdue
    rw [← hfailed]
    exact returns_of_ended hended hdue

/-- However calls, closing and what the engine does follow on each other, a connection is ready,
then failed, then closed, and never goes back.  It is closed by the client alone and fails only
where no frame can be read any more: whatever a frame holds, it is passed on and the ear reads the
next one.  A connection that has failed is of no use.  A session that has begun stands where such a
client stands, and what it does next are steps of that client. -/
theorem status_goes_forward (hc : c.Connected) (h : Steps label c trace d) :
    Standing label c trace d ∧
      (∀ more e, Steps label d more e → d.status.rank ≤ e.status.rank) ∧
      (∀ move e, Step label d move e → e.status = d.status ∨
        move = .closing ∧ e.status = .closed ∨
        move = .ended ∧ d.status = .ready ∧ e.status = .failed) ∧
      (∀ payload rest, d.ear = .idle → d.inbound = Frame.encode payload ++ rest →
        payload.length ≤ Frame.maxSize →
          ∃ notices e, Steps label d [.fetched payload, .collected, .dispatched payload notices] e ∧
            e.ear = .idle ∧ e.inbound = rest ∧ e.status = d.status) ∧
      (d.ear = .idle → Frame.Lost d.hungUp d.inbound →
        ∃ notices e, Steps label d
            [.failed (Frame.ending label d.inbound), .lost notices, .ended] e ∧
          (.closing ∉ trace → e.status = .failed)) ∧
      (d.status = .failed → Useless label d) ∧
      (∀ (π : Type) (link : Link π) next,
        (Session.start label link).begin = (some (.ok ()), next) →
          next.connection.Connected ∧ next.Stands next.received .free next.connection) ∧
      ∀ (π : Type) (s : Session π) base, s.label = label → s.Stands base .free d →
        s.status = d.status ∧ s.isOpen = d.isOpen ∧ s.close.status = .closed ∧
          (∃ more e, Steps label d (more ++ [.closed (.ok ())]) e ∧ s.close.Stands base .free e) ∧
          (∀ limit, ∃ more e, Steps label d more e ∧ (s.listenUpTo limit).2.Stands base .free e) ∧
          ∀ call,
            (∀ fault, s.status.refusal? = some fault →
              s.invoke call.target call.method call.args = (some (.error fault), s)) ∧
            ∀ outcome next, s.invoke call.target call.method call.args = (some outcome, next) →
              s.status.rank ≤ next.status.rank ∧
                ∃ more e, Steps label d (.called call :: more) e ∧ .returned call outcome ∈ more ∧
                  next.Stands base .free e := by
  have hstanding := hc.standing h
  refine ⟨hstanding, ?_, ?_, ?_, ?_, useless_of_failed, ?_, ?_⟩
  · intro more e hmore
    exact hmore.rank_le
  · intro move e hstep
    exact hstep.status_cases
  · intro payload rest hidle hinbound hsize
    obtain ⟨notices, e, hsteps, hidle', hrest, hclosed⟩ := hears hidle hinbound hsize
    refine ⟨notices, e, hsteps, hidle', hrest, status_congr hclosed ?_⟩
    rw [hidle, hidle']
  · intro hidle hlost
    obtain ⟨notices, e, hsteps, hended, hclosed⟩ := falls_silent hidle hlost
    refine ⟨notices, e, hsteps, ?_⟩
    intro hopen
    have hunclosed : d.closed = false := by
      rw [← Bool.not_eq_true, ← status_eq_closed_iff, hstanding.closed]
      exact hopen
    exact status_eq_failed_iff.mpr ⟨hclosed.trans hunclosed, hended⟩
  · intro π link next hbegin
    exact Session.begun_connection hbegin
  · rintro π s base rfl hstands
    refine ⟨hstands.status.left, hstands.status.right, Session.status_close, ?_, ?_, ?_⟩
    · rcases Session.close_connection hstands with ⟨more, e, hmore, he, _⟩
      exact ⟨more, e, hmore, he⟩
    · intro limit
      rcases @Session.listenUpTo_connection _ _ _ limit _ _ hstands with ⟨more, e, hmore, he, _⟩
      exact ⟨more, e, hmore, he⟩
    · intro call
      refine ⟨fun fault hrefusal => Session.invoke_refused hrefusal call, ?_⟩
      intro outcome next hinvoke
      have hconnection := Session.invoke_connection hstands call
      rw [hinvoke] at hconnection
      obtain ⟨more, e, hmore, hreturned, he, _⟩ := hconnection
      refine ⟨?_, more, e, hmore, hreturned, he⟩
      rw [hstands.status.left, he.status.left]
      exact hmore.rank_le

theorem hang_up_within_a_frame :
    ∃ trace d, opened.Connected ∧ Steps "Mock" opened trace d ∧ d.status = .failed ∧
      dispatchedIn trace = [[0x21]] ∧ .failed (.cutOff "Mock" .length) ∈ trace ∧
      Standing "Mock" opened trace d ∧ Useless "Mock" d := by
  have hsteps : Steps "Mock" opened _ _ :=
    (Steps.stay opened)
      |>.step (.engine (.send [1, 0, 0, 0, 0x21, 9, 0] rfl))
      |>.step (.ear (.fetch rfl rfl))
      |>.step (.ear (.collect rfl))
      |>.step (.ear (.dispatch rfl rfl))
      |>.step (.engine .hangUp)
      |>.step (.ear (.fail rfl rfl rfl))
      |>.step (.ear (.lose rfl rfl))
      |>.step (.ear (.leave rfl))
  obtain ⟨hstanding, _, _, _, _, huseless, _⟩ := status_goes_forward opened_connected hsteps
  exact ⟨_, _, opened_connected, hsteps, rfl, rfl, by simp, hstanding, huseless rfl⟩

end Connection
end Engine
end Cardsmith
