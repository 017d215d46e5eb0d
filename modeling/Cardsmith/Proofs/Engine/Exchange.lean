import Cardsmith.Engine.Session
import Cardsmith.Proofs.Engine.Frames
import Cardsmith.Proofs.Engine.Line

/-!
# Exchanges with an engine

A client, the listener that reads for it, and an engine, each taking its steps whenever it likes.
The client registers before it writes and waits before it asks again; the listener reads a frame,
lets in whoever has registered, and passes on what the frame holds; the engine says that it is
ready, gives one reply to each request it has read, and tells of events at any time.  However the
steps fall, the first wait comes to the engine's first message and each request to its own reply.
-/

namespace Cardsmith
namespace Engine

/-! ## Parties -/

inductive Client where
  | opening
  | free
  | registered (ticket : Nat) (request : Message)
  /-- It waits for the reply to a request or, if there is none, for the first message. -/
  | waiting (ticket : Nat) (request? : Option Message)
  deriving Repr, DecidableEq

inductive Listener where
  | asleep
  | idle
  | holding (payload : Bytes)
  | ready (payload : Bytes)
  deriving Repr, DecidableEq

def Client.unwritten : Client → List Message
  | .registered _ request => [request]
  | .opening | .free | .waiting _ _ => []

def Client.current? : Client → Option (Nat × Option Message)
  | .registered ticket request => some (ticket, some request)
  | .waiting ticket request? => some (ticket, request?)
  | .opening | .free => none

def Listener.held : Listener → List Bytes
  | .asleep | .idle => []
  | .holding payload | .ready payload => [payload]

/-- Everything that goes on between a client and its engine. -/
structure Exchange where
  client : Client
  listener : Listener
  dispatcher : Dispatcher Nat
  ticket : Nat
  answers : List (Nat × Reply)
  outbound : Bytes
  inbound : Bytes
  greeted : Bool
  /-- How many requests the engine has read and not answered. -/
  owed : Nat

inductive Deed where
  | registered (request? : Option Message)
  | wrote (request : Message)
  | resumed (request? : Option Message) (reply : Reply)
  | sent (payload : Bytes)
  | served (payload : Bytes)
  | fetched (payload : Bytes)
  | collected
  | dispatched (payload : Bytes) (notices : List (Notice Nat))

inductive Party where
  | client
  | listener
  | engine
  deriving Repr, DecidableEq

def Deed.party : Deed → Party
  | .registered _ | .wrote _ | .resumed _ _ => .client
  | .fetched _ | .collected | .dispatched _ _ => .listener
  | .sent _ | .served _ => .engine

namespace Exchange

def start : Exchange :=
  ⟨.opening, .asleep, .start doorCapacity, 0, [], [], [], false, 0⟩

/-- One step of one party.  The label is what the connection is called in faults. -/
inductive Step (label : String) : Exchange → Deed → Exchange → Prop where
  | begin {s : Exchange} {d : Dispatcher Nat} :
      s.client = .opening → s.dispatcher.register? s.ticket = some d →
      Step label s (.registered none)
        { s with
          client := .waiting s.ticket none, listener := .idle, dispatcher := d,
          ticket := s.ticket + 1 }
  | register {s : Exchange} {d : Dispatcher Nat} {request : Message} :
      s.client = .free → s.dispatcher.register? s.ticket = some d →
      Step label s (.registered (some request))
        { s with
          client := .registered s.ticket request, dispatcher := d, ticket := s.ticket + 1 }
  | write {s : Exchange} {ticket : Nat} {request : Message} :
      s.client = .registered ticket request → request.bytes.length ≤ Frame.maxSize →
      Step label s (.wrote request)
        { s with
          client := .waiting ticket (some request),
          outbound := s.outbound ++ Frame.encode request.bytes }
  | resume {s : Exchange} {ticket : Nat} {request? : Option Message} {reply : Reply} :
      s.client = .waiting ticket request? → s.answers.lookup ticket = some reply →
      Step label s (.resumed request? reply) { s with client := .free }
  | greet {s : Exchange} {payload : Bytes} {name version : String} :
      s.greeted = false → Content.ofFrame payload = .reply (.ok (.ready name version)) →
      payload.length ≤ Frame.maxSize →
      Step label s (.sent payload)
        { s with inbound := s.inbound ++ Frame.encode payload, greeted := true }
  | tell {s : Exchange} {payload : Bytes} {told : Event} :
      Content.ofFrame payload = .event told → payload.length ≤ Frame.maxSize →
      Step label s (.sent payload) { s with inbound := s.inbound ++ Frame.encode payload }
  | serve {s : Exchange} {payload : Bytes} {left : List Bytes} :
      Frame.read label [s.outbound] = .ok (payload, left) →
      Step label s (.served payload) { s with outbound := left.flatten, owed := s.owed + 1 }
  | reply {s : Exchange} {payload : Bytes} {reply : Reply} {owed : Nat} :
      s.greeted = true → s.owed = owed + 1 → Content.ofFrame payload = .reply reply →
      payload.length ≤ Frame.maxSize →
      Step label s (.sent payload)
        { s with inbound := s.inbound ++ Frame.encode payload, owed := owed }
  | fetch {s : Exchange} {payload : Bytes} {left : List Bytes} :
      s.listener = .idle → Frame.read label [s.inbound] = .ok (payload, left) →
      Step label s (.fetched payload)
        { s with inbound := left.flatten, listener := .holding payload }
  | collect {s : Exchange} {payload : Bytes} :
      s.listener = .holding payload →
      Step label s .collected
        { s with dispatcher := s.dispatcher.letIn, listener := .ready payload }
  | dispatch {s : Exchange} {payload : Bytes} {notices : List (Notice Nat)}
      {d : Dispatcher Nat} :
      s.listener = .ready payload → s.dispatcher.dispatch payload = (notices, d) →
      Step label s (.dispatched payload notices)
        { s with
          dispatcher := d, listener := .idle, answers := s.answers ++ Notice.answers notices }

inductive Steps (label : String) : Exchange → List Deed → Exchange → Prop where
  | stay (s : Exchange) : Steps label s [] s
  | step {s t u : Exchange} {trace : List Deed} {deed : Deed} :
      Steps label s trace t → Step label t deed u → Steps label s (trace ++ [deed]) u

theorem Steps.trans {label : String} {s t u : Exchange} {before after : List Deed}
    (h : Steps label s before t) (h' : Steps label t after u) :
    Steps label s (before ++ after) u := by
  induction h' with
  | stay =>
      rw [List.append_nil]
      exact h
  | step _ hstep ih =>
      rw [← List.append_assoc]
      exact ih.step hstep

/-! ## What was done -/

/-- What was done, sorted. -/
structure Chronicle where
  registrations : List (Option Message)
  requests : List Message
  servings : List Bytes
  frames : List Bytes
  fetchings : List Bytes
  dispatchings : List Bytes
  notices : List (Notice Nat)
  results : List (Option Message × Reply)

namespace Chronicle

def empty : Chronicle := ⟨[], [], [], [], [], [], [], []⟩

def note (c : Chronicle) : Deed → Chronicle
  | .registered request? => { c with registrations := c.registrations ++ [request?] }
  | .wrote request => { c with requests := c.requests ++ [request] }
  | .resumed request? reply => { c with results := c.results ++ [(request?, reply)] }
  | .sent payload => { c with frames := c.frames ++ [payload] }
  | .served payload => { c with servings := c.servings ++ [payload] }
  | .fetched payload => { c with fetchings := c.fetchings ++ [payload] }
  | .collected => c
  | .dispatched payload notices =>
      { c with
        dispatchings := c.dispatchings ++ [payload]
        notices := c.notices ++ notices }

def ofTrace (trace : List Deed) : Chronicle := trace.foldl note empty

end Chronicle

def replies (frames : List Bytes) : List Reply :=
  frames.filterMap fun payload => (Content.ofFrame payload).reply?

theorem replies_append (a b : List Bytes) : replies (a ++ b) = replies a ++ replies b :=
  List.filterMap_append

theorem replies_event {payload : Bytes} {told : Event}
    (h : Content.ofFrame payload = .event told) : replies [payload] = [] := by
  simp [replies, h, Content.reply?]

theorem replies_reply {payload : Bytes} {reply : Reply}
    (h : Content.ofFrame payload = .reply reply) : replies [payload] = [reply] := by
  simp [replies, h, Content.reply?]

def numbered (replies : List Reply) : List (Nat × Reply) :=
  replies.mapIdx fun ticket reply => (ticket, reply)

theorem length_numbered (replies : List Reply) : (numbered replies).length = replies.length :=
  List.length_mapIdx

theorem numbered_concat (replies : List Reply) (reply : Reply) :
    numbered (replies ++ [reply]) = numbered replies ++ [(replies.length, reply)] :=
  List.mapIdx_concat

theorem lookup_numbered (replies : List Reply) (ticket : Nat) :
    (numbered replies).lookup ticket = replies[ticket]? := by
  induction replies using List.reverseRecOn with
  | nil => rfl
  | append_singleton before reply ih =>
      rw [numbered_concat, List.lookup_append, ih]
      by_cases hlt : ticket < before.length
      · rw [List.getElem?_append_left hlt, List.getElem?_eq_getElem hlt, Option.some_or]
      · have hge : before.length ≤ ticket := Nat.le_of_not_lt hlt
        rw [List.getElem?_append_right hge, List.getElem?_eq_none hge, Option.none_or]
        by_cases heq : ticket = before.length
        · simp [heq]
        · have hbeq : (ticket == before.length) = false := beq_eq_false_iff_ne.mpr heq
          have hout : [reply].length ≤ ticket - before.length := by
            rw [List.length_singleton]
            omega
          rw [List.getElem?_eq_none hout, List.lookup_cons, hbeq]
          rfl

/-! ## Wires -/

/-- A wire carries the frames written to it that have not been read from it, whole. -/
def Wire (written read : List Bytes) (bytes : Bytes) : Prop :=
  ∃ left, bytes = left.flatMap Frame.encode ∧ (∀ payload ∈ left, payload.length ≤ Frame.maxSize) ∧
    written = read ++ left

theorem Wire.write {written read : List Bytes} {bytes payload : Bytes}
    (h : Wire written read bytes) (hsize : payload.length ≤ Frame.maxSize) :
    Wire (written ++ [payload]) read (bytes ++ Frame.encode payload) := by
  rcases h with ⟨left, hbytes, hsizes, hwritten⟩
  refine ⟨left ++ [payload], ?_, ?_, ?_⟩
  · rw [hbytes, List.flatMap_append, List.flatMap_singleton]
  · intro p hp
    rcases List.mem_append.mp hp with hold | hnew
    · exact hsizes p hold
    · rw [List.mem_singleton.mp hnew]
      exact hsize
  · rw [hwritten, List.append_assoc]

theorem Wire.read {written read : List Bytes} {bytes payload : Bytes} {left : List Bytes}
    {label : String} (h : Wire written read bytes)
    (hread : Frame.read label [bytes] = .ok (payload, left)) :
    Wire written (read ++ [payload]) left.flatten := by
  rcases h with ⟨waiting, hbytes, hsizes, hwritten⟩
  cases waiting with
  | nil =>
      have hend : Frame.Unfinished [bytes].flatten := by
        rw [hbytes]
        exact Or.inl (by decide)
      rw [Frame.read_unfinished label hend] at hread
      cases hread
  | cons first rest =>
      have hfirst : [bytes].flatten = Frame.encode first ++ rest.flatMap Frame.encode := by
        rw [List.flatten_singleton, hbytes, List.flatMap_cons]
      rcases Frame.read_encode_append label hfirst
        (hsizes first List.mem_cons_self) with ⟨after, hok, hafter⟩
      rw [hok] at hread
      cases hread
      refine ⟨rest, hafter, fun p hp => hsizes p (List.mem_cons_of_mem _ hp), ?_⟩
      rw [hwritten, List.append_assoc]
      rfl

theorem Wire.exists_read {written read : List Bytes} {bytes : Bytes} (label : String)
    (h : Wire written read bytes) (hbytes : bytes ≠ []) :
    ∃ payload left, Frame.read label [bytes] = .ok (payload, left) ∧
      left.flatten.length + 4 ≤ bytes.length := by
  rcases h with ⟨waiting, hwaiting, hsizes, _⟩
  cases waiting with
  | nil => exact absurd hwaiting hbytes
  | cons first rest =>
      have hfirst : [bytes].flatten = Frame.encode first ++ rest.flatMap Frame.encode := by
        rw [List.flatten_singleton, hwaiting, List.flatMap_cons]
      rcases Frame.read_encode_append label hfirst (hsizes first List.mem_cons_self) with
        ⟨left, hread, hleft⟩
      refine ⟨first, left, hread, ?_⟩
      rw [hleft, hwaiting, List.flatMap_cons, List.length_append, Frame.length_encode]
      omega

theorem Wire.eq_of_nil {written read : List Bytes} (h : Wire written read []) :
    written = read := by
  rcases h with ⟨left, hleft, _, hwritten⟩
  cases left with
  | nil => rw [hwritten, List.append_nil]
  | cons first rest =>
      have hlength := congrArg List.length hleft
      rw [List.flatMap_cons, List.length_append, Frame.length_encode, List.length_nil] at hlength
      omega

end Exchange
end Engine
end Cardsmith
