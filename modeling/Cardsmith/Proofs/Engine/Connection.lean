import Mathlib.Data.List.Induction
import Cardsmith.Engine.Session
import Cardsmith.Proofs.Engine.Frames

/-!
# Connections

A client that calls and closes, an ear that listens for it, and an engine that sends whatever it
likes and hangs up whenever it likes.  Each takes its steps at any time; only the client makes no
call before the one before has returned.  A frame is written piece by piece, and a write that fails
fails for good.
-/

namespace Cardsmith
namespace Engine

open Json

/-! ## Parties -/

structure Call where
  target : Target
  method : String
  args : List Value
  deriving Repr, DecidableEq

def Call.message (call : Call) : Message := .invoke call.target call.method call.args

inductive Errand where
  | request (ticket : Nat) (call : Call)
  | farewell
  deriving Repr, DecidableEq

def Errand.message : Errand → Message
  | .request _ call => call.message
  | .farewell => .shutdown

def Errand.payload (errand : Errand) : Bytes := errand.message.bytes

inductive Caller where
  | free
  | calling (call : Call)
  /-- It writes a frame of which so much is left. -/
  | writing (errand : Errand) (left : Bytes)
  | waiting (ticket : Nat) (call : Call)
  | failing (call : Call) (fault : ConnectionFault)
  | leaving
  | gone
  deriving Repr, DecidableEq

def Errand.written : Errand → Caller
  | .request ticket call => .waiting ticket call
  | .farewell => .leaving

def Errand.unwritten (fault : ConnectionFault) : Errand → Caller
  | .request _ call => .failing call fault
  | .farewell => .leaving

def Errand.after (errand : Errand) : Except FrameFault Unit → Caller
  | .ok () => errand.written
  | .error fault => errand.unwritten (.frame fault)

inductive Ear where
  | idle
  | holding (payload : Bytes)
  | ready (payload : Bytes)
  | failing
  /-- It has told everyone that the connection is lost.  Who registers now is not heard. -/
  | leaving
  | ended
  deriving Repr, DecidableEq

/-- No frame is read any more. -/
def Ear.Over : Ear → Prop
  | .idle | .holding _ | .ready _ => False
  | .failing | .leaving | .ended => True

/-- Registrations are of no use any more. -/
def Ear.Deaf : Ear → Prop
  | .idle | .holding _ | .ready _ | .failing => False
  | .leaving | .ended => True

instance : DecidablePred Ear.Over := fun ear => by
  cases ear <;> first | exact isTrue trivial | exact isFalse id

instance : DecidablePred Ear.Deaf := fun ear => by
  cases ear <;> first | exact isTrue trivial | exact isFalse id

inductive Outlet where
  | intact
  | broken
  | released
  deriving Repr, DecidableEq

/-- Everything that goes on between a client that has connected and an engine. -/
structure Connection where
  caller : Caller
  ear : Ear
  dispatcher : Dispatcher Nat
  ticket : Nat
  answers : List (Nat × Reply)
  outlet : Outlet
  outbound : Bytes
  inbound : Bytes
  hungUp : Bool
  closed : Bool

inductive Move where
  | called (call : Call)
  | registered (ticket : Nat)
  | put (piece : Bytes)
  | wrote (request : Message)
  | unwritten (fault : ConnectionFault)
  | returned (call : Call) (outcome : Except Fault Value)
  | closing
  | released
  | closed (outcome : Except Fault Unit)
  | fetched (payload : Bytes)
  | collected
  | dispatched (payload : Bytes) (notices : List (Notice Nat))
  | failed (fault : FrameFault)
  | lost (notices : List (Notice Nat))
  | ended
  | sent (bytes : Bytes)
  | hungUp

def FrameFault.ofWrite (label : String) : Option Part → SinkFault → FrameFault
  | some part, reason => .unwritten label part reason
  | none, reason => .unflushed label reason

namespace Connection

def status (c : Connection) : Status :=
  if c.closed then .closed
  else if c.ear = .ended then .failed
  else .ready

def isOpen (c : Connection) : Bool := c.status = .ready

/-! ## Steps -/

/-- A step of the client.  The label is what the connection is called in faults. -/
inductive ClientStep (label : String) : Connection → Move → Connection → Prop where
  | call {c : Connection} (call : Call) :
      c.caller = .free →
      ClientStep label c (.called call) { c with caller := .calling call }
  | refuse {c : Connection} {call : Call} :
      c.caller = .calling call → c.closed = true →
      ClientStep label c (.returned call (.error .closed)) { c with caller := .free }
  | register {c : Connection} {call : Call} {d : Dispatcher Nat} :
      c.caller = .calling call → c.closed = false → ¬ c.ear.Deaf →
      c.dispatcher.register? c.ticket = some d →
      ClientStep label c (.registered c.ticket)
        { c with
          caller := .writing (.request c.ticket call) (Frame.encode call.message.bytes)
          dispatcher := d
          ticket := c.ticket + 1 }
  /-- A registration that nobody takes up any more. -/
  | registerLate {c : Connection} {call : Call} :
      c.caller = .calling call → c.closed = false → c.ear = .leaving →
      ClientStep label c (.registered c.ticket)
        { c with
          caller := .writing (.request c.ticket call) (Frame.encode call.message.bytes)
          ticket := c.ticket + 1 }
  | turnAway {c : Connection} {call : Call} :
      c.caller = .calling call → c.closed = false → c.ear.Deaf →
      ClientStep label c (.returned call (.error (.connection .notListening)))
        { c with caller := .free }
  | put {c : Connection} {errand : Errand} {piece left : Bytes} :
      c.caller = .writing errand (piece ++ left) → piece ≠ [] → c.outlet = .intact →
      errand.payload.length < 0x100000000 →
      ClientStep label c (.put piece)
        { c with caller := .writing errand left, outbound := c.outbound ++ piece }
  | write {c : Connection} {errand : Errand} :
      c.caller = .writing errand [] → c.outlet = .intact →
      ClientStep label c (.wrote errand.message) { c with caller := errand.written }
  | breakOff {c : Connection} {errand : Errand} {left : Bytes} (part? : Option Part)
      (reason : SinkFault) :
      c.caller = .writing errand left → c.outlet ≠ .released →
      errand.payload.length < 0x100000000 →
      ClientStep label c (.unwritten (.frame (.ofWrite label part? reason)))
        { c with
          caller := errand.unwritten (.frame (.ofWrite label part? reason))
          outlet := .broken }
  | oversize {c : Connection} {errand : Errand} {left : Bytes} :
      c.caller = .writing errand left → c.outlet ≠ .released →
      0x100000000 ≤ errand.payload.length →
      ClientStep label c (.unwritten (.frame (.tooLarge errand.payload.length)))
        { c with caller := errand.unwritten (.frame (.tooLarge errand.payload.length)) }
  | disconnect {c : Connection} {errand : Errand} {left : Bytes} :
      c.caller = .writing errand left → c.outlet = .released →
      ClientStep label c (.unwritten .notConnected)
        { c with caller := errand.unwritten .notConnected }
  | fail {c : Connection} {call : Call} {fault : ConnectionFault} :
      c.caller = .failing call fault →
      ClientStep label c (.returned call (.error (.connection fault))) { c with caller := .free }
  | resume {c : Connection} {ticket : Nat} {call : Call} {reply : Reply} :
      c.caller = .waiting ticket call → c.answers.lookup ticket = some reply →
      ClientStep label c
        (.returned call (reply.bind (Session.returned call.target call.method)))
        { c with caller := .free }
  | forsake {c : Connection} {ticket : Nat} {call : Call} :
      c.caller = .waiting ticket call → c.answers.lookup ticket = none → c.ear.Deaf →
      ClientStep label c (.returned call (.error (.connection .abandoned)))
        { c with caller := .free }
  | close {c : Connection} :
      c.caller = .free → c.closed = false →
      ClientStep label c .closing
        { c with
          caller := .writing .farewell (Frame.encode Message.shutdown.bytes)
          closed := true }
  | release {c : Connection} :
      c.caller = .leaving →
      ClientStep label c .released { c with caller := .gone, outlet := .released }
  /-- Closing returns; what the end of the engine's program comes to is left open. -/
  | finish {c : Connection} (outcome : Except Fault Unit) :
      c.caller = .gone →
      ClientStep label c (.closed outcome) { c with caller := .free }
  | closeAgain {c : Connection} :
      c.caller = .free → c.closed = true →
      ClientStep label c (.closed (.ok ())) c

inductive EarStep (label : String) : Connection → Move → Connection → Prop where
  | fetch {c : Connection} {payload : Bytes} {left : List Bytes} :
      c.ear = .idle → Frame.read label [c.inbound] = .ok (payload, left) →
      EarStep label c (.fetched payload)
        { c with ear := .holding payload, inbound := left.flatten }
  | collect {c : Connection} {payload : Bytes} :
      c.ear = .holding payload →
      EarStep label c .collected
        { c with ear := .ready payload, dispatcher := c.dispatcher.letIn }
  | dispatch {c : Connection} {payload : Bytes} {notices : List (Notice Nat)}
      {d : Dispatcher Nat} :
      c.ear = .ready payload → c.dispatcher.dispatch payload = (notices, d) →
      EarStep label c (.dispatched payload notices)
        { c with ear := .idle, dispatcher := d, answers := c.answers ++ Notice.answers notices }
  | fail {c : Connection} {fault : FrameFault} :
      c.ear = .idle → Frame.read label [c.inbound] = .error fault →
      fault.settled c.hungUp = true →
      EarStep label c (.failed fault) { c with ear := .failing }
  | lose {c : Connection} {notices : List (Notice Nat)} {d : Dispatcher Nat} :
      c.ear = .failing → c.dispatcher.lose = (notices, d) →
      EarStep label c (.lost notices)
        { c with
          ear := .leaving
          dispatcher := d
          answers := c.answers ++ Notice.answers notices }
  | leave {c : Connection} :
      c.ear = .leaving →
      EarStep label c .ended { c with ear := .ended }
  /-- The client that has let go of the connection has the ear stopped as well. -/
  | stop {c : Connection} :
      c.ear = .idle → c.outlet = .released →
      EarStep label c .ended { c with ear := .ended }

inductive EngineStep : Connection → Move → Connection → Prop where
  | send {c : Connection} (bytes : Bytes) :
      c.hungUp = false →
      EngineStep c (.sent bytes) { c with inbound := c.inbound ++ bytes }
  | hangUp {c : Connection} : EngineStep c .hungUp { c with hungUp := true }

inductive Step (label : String) : Connection → Move → Connection → Prop where
  | client {c d : Connection} {move : Move} : ClientStep label c move d → Step label c move d
  | ear {c d : Connection} {move : Move} : EarStep label c move d → Step label c move d
  | engine {c d : Connection} {move : Move} : EngineStep c move d → Step label c move d

inductive Steps (label : String) : Connection → List Move → Connection → Prop where
  | stay (c : Connection) : Steps label c [] c
  | step {b c d : Connection} {trace : List Move} {move : Move} :
      Steps label b trace c → Step label c move d → Steps label b (trace ++ [move]) d

variable {label : String} {b c d : Connection} {move : Move}

theorem Steps.trans {before after : List Move} (h : Steps label b before c)
    (h' : Steps label c after d) : Steps label b (before ++ after) d := by
  induction h' with
  | stay =>
      rw [List.append_nil]
      exact h
  | step _ hstep ih =>
      rw [← List.append_assoc]
      exact ih.step hstep

theorem Step.steps (h : Step label c move d) : Steps label c [move] d := (Steps.stay c).step h

theorem Steps.eq_of_nil (h : Steps label c [] d) : c = d := by
  generalize htrace : ([] : List Move) = trace at h
  cases h with
  | stay => rfl
  | step _ _ => exact absurd htrace (by simp)

theorem Steps.last {before : List Move} (h : Steps label b (before ++ [move]) d) :
    ∃ c, Steps label b before c ∧ Step label c move d := by
  generalize htrace : before ++ [move] = trace at h
  cases h with
  | stay => exact absurd htrace (by simp)
  | step hearlier hstep =>
      rcases List.append_inj' htrace rfl with ⟨rfl, hmove⟩
      cases hmove
      exact ⟨_, hearlier, hstep⟩

theorem Steps.split {before after : List Move} (h : Steps label b (before ++ after) d) :
    ∃ c, Steps label b before c ∧ Steps label c after d := by
  induction after using List.reverseRecOn generalizing d with
  | nil =>
      rw [List.append_nil] at h
      exact ⟨d, h, .stay d⟩
  | append_singleton after move ih =>
      rw [← List.append_assoc] at h
      obtain ⟨e, hearlier, hstep⟩ := h.last
      obtain ⟨c, hbefore, hafter⟩ := ih hearlier
      exact ⟨c, hbefore, hafter.step hstep⟩

/-! ## Writing to a sink -/

variable {errand : Errand} {sink : Sink}

theorem write?_eq_some {after : Sink} {offered left : Bytes} (hoffered : offered ≠ [])
    (hwrite : sink.write? offered = some (left, after)) :
    ∃ piece, piece ≠ [] ∧ piece ++ left = offered ∧ after.arrived = sink.arrived ++ piece := by
  unfold Sink.write? at hwrite
  split at hwrite
  · cases hwrite
  · rename_i hroom
    cases hwrite
    have hportion := (Sink.portion_bounds (List.length_pos_iff.mpr hoffered) hroom).left
    refine ⟨offered.take (sink.portion offered.length), ?_, List.take_append_drop _ _,
      Sink.arrived_cons _ _ _ _⟩
    intro hnil
    rcases List.take_eq_nil_iff.mp hnil with hzero | hempty
    · exact Nat.ne_of_gt hportion hzero
    · exact hoffered hempty

def wrote (c : Connection) (errand : Errand) (piece left : Bytes) : Connection :=
  { c with caller := .writing errand left, outbound := c.outbound ++ piece }

theorem steps_wrote_nil {left : Bytes} (h : c.caller = .writing errand left) :
    Steps label c [] (c.wrote errand [] left) := by
  unfold wrote
  rw [← h, List.append_nil]
  exact .stay c

theorem wrote_wrote (c : Connection) (errand : Errand) (first second between left : Bytes) :
    (c.wrote errand first between).wrote errand second left =
      c.wrote errand (first ++ second) left := by
  unfold wrote
  rw [List.append_assoc]

theorem writeUpTo_connection {limit : Nat} {bytes rest : Bytes}
    (hwriting : c.caller = .writing errand (bytes ++ rest)) (hintact : c.outlet = .intact)
    (hsmall : errand.payload.length < 0x100000000) :
    ∃ piece left more, (sink.writeUpTo limit bytes).2.arrived = sink.arrived ++ piece ∧
      Steps label c more (c.wrote errand piece left) ∧
      ((sink.writeUpTo limit bytes).1 = true → left = rest) := by
  induction limit generalizing c sink bytes with
  | zero =>
      have hstays : Steps label c [] (c.wrote errand [] (bytes ++ rest)) :=
        steps_wrote_nil hwriting
      cases bytes with
      | nil => exact ⟨[], rest, [], (List.append_nil _).symm, hstays, fun _ => rfl⟩
      | cons byte more => exact ⟨[], _, [], (List.append_nil _).symm, hstays, Bool.noConfusion⟩
  | succ limit ih =>
      have hstays : Steps label c [] (c.wrote errand [] (bytes ++ rest)) :=
        steps_wrote_nil hwriting
      cases bytes with
      | nil => exact ⟨[], rest, [], (List.append_nil _).symm, hstays, fun _ => rfl⟩
      | cons byte more =>
          rw [Sink.writeUpTo]
          cases hwrite : sink.write? (byte :: more) with
          | none => exact ⟨[], _, [], (List.append_nil _).symm, hstays, Bool.noConfusion⟩
          | some taken =>
              obtain ⟨unwritten, between⟩ := taken
              obtain ⟨first, hfirst, hwhole, harrived⟩ :=
                write?_eq_some (List.cons_ne_nil byte more) hwrite
              rw [← hwhole, List.append_assoc] at hwriting
              have hput : Step label c (.put first) (c.wrote errand first (unwritten ++ rest)) :=
                .client (.put hwriting hfirst hintact hsmall)
              obtain ⟨second, left, later, htaken, hlater, hleft⟩ :=
                @ih (c.wrote errand first (unwritten ++ rest)) between unwritten rfl hintact
              rw [wrote_wrote] at hlater
              refine ⟨first ++ second, left, _, ?_, hput.steps.trans hlater, hleft⟩
              show (between.writeUpTo limit unwritten).2.arrived = _
              rw [htaken, harrived, List.append_assoc]

theorem writeAll_connection {bytes rest : Bytes}
    (hwriting : c.caller = .writing errand (bytes ++ rest)) (hintact : c.outlet = .intact)
    (hsmall : errand.payload.length < 0x100000000) :
    ∃ piece left more, (sink.writeAll bytes).2.arrived = sink.arrived ++ piece ∧
      Steps label c more (c.wrote errand piece left) ∧
      ((sink.writeAll bytes).1 = true → left = rest) :=
  writeUpTo_connection hwriting hintact hsmall

/-- Writing a frame to any sink is what a client does that writes it. -/
theorem writeFrame_connection (sink : Sink)
    (hwriting : c.caller = .writing errand (Frame.encode errand.payload))
    (hintact : c.outlet = .intact) :
    ∃ piece more d, Steps label c more d ∧
      (sink.writeFrame label errand.payload).2.arrived = sink.arrived ++ piece ∧
      d.outbound = c.outbound ++ piece ∧
      d.caller = errand.after (sink.writeFrame label errand.payload).1 := by
  have hunreleased : c.outlet ≠ .released := by
    rw [hintact]
    exact Outlet.noConfusion
  rw [Sink.writeFrame]
  split
  · rename_i hlarge
    exact ⟨[], _, _, (Step.client (.oversize hwriting hunreleased hlarge)).steps,
      (List.append_nil _).symm, (List.append_nil _).symm, rfl⟩
  · rename_i hlarge
    have hsmall : errand.payload.length < 0x100000000 := Nat.lt_of_not_le hlarge
    have hbreaks (piece left : Bytes) (part? : Option Part) (reason : SinkFault) :
        Step label (c.wrote errand piece left) (.unwritten (.frame (.ofWrite label part? reason)))
          { c.wrote errand piece left with
            caller := errand.unwritten (.frame (.ofWrite label part? reason))
            outlet := .broken } :=
      .client (.breakOff part? reason rfl hunreleased hsmall)
    obtain ⟨size, left, first, harrived, hfirst, hleft⟩ :=
      @writeAll_connection label c errand sink _ _ hwriting hintact hsmall
    rcases hwrote : sink.writeAll (Frame.header errand.payload.length) with ⟨_ | _, between⟩
    · rw [hwrote] at harrived
      exact ⟨size, _, _, hfirst.trans (hbreaks size left (some .length) .full).steps, harrived, rfl,
        rfl⟩
    · rw [hwrote] at harrived hleft
      rw [hleft rfl, ← List.append_nil errand.payload] at hfirst
      obtain ⟨data, last, second, harrived', hsecond, hlast⟩ :=
        @writeAll_connection label (c.wrote errand size (errand.payload ++ [])) errand between
          errand.payload [] rfl hintact hsmall
      rw [harrived, List.append_assoc] at harrived'
      rw [wrote_wrote] at hsecond
      have hsofar := hfirst.trans hsecond
      simp only
      rcases hwrote' : between.writeAll errand.payload with ⟨_ | _, after⟩
      · rw [hwrote'] at harrived'
        exact ⟨size ++ data, _, _, hsofar.trans (hbreaks _ last (some .data) .full).steps,
          harrived', rfl, rfl⟩
      · rw [hwrote'] at harrived' hlast
        rw [hlast rfl] at hsofar
        simp only
        split_ifs with hflushes
        · have hwritten : Step label (c.wrote errand (size ++ data) []) (.wrote errand.message)
              { c.wrote errand (size ++ data) [] with caller := errand.written } :=
            .client (.write rfl hintact)
          exact ⟨size ++ data, _, _, hsofar.trans hwritten.steps, harrived', rfl, rfl⟩
        · exact ⟨size ++ data, _, _, hsofar.trans (hbreaks _ [] none .flushRefused).steps,
            harrived', rfl, rfl⟩

/-- A client has connected, and nothing has been written since.  If the ear hears no more, then
because no frame will be read. -/
structure Connected (c : Connection) : Prop where
  free : c.caller = .free
  usable : c.closed = false
  intact : c.outlet = .intact
  unwritten : c.outbound = []
  heard : c.ear.Over → Frame.Lost c.hungUp c.inbound

def opened : Connection where
  caller := .free
  ear := .idle
  dispatcher := .start doorCapacity
  ticket := 0
  answers := []
  outlet := .intact
  outbound := []
  inbound := []
  hungUp := false
  closed := false

theorem opened_connected : opened.Connected := ⟨rfl, rfl, rfl, rfl, False.elim⟩

def question : Call := ⟨⟨"cards", "CardCatalogue"⟩, "size", []⟩

end Connection
end Engine
end Cardsmith
