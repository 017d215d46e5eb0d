import Cardsmith.Engine.Catalogue
import Cardsmith.Engine.Dispatcher
import Cardsmith.Engine.Peer

/-!
# Sessions

A client's side of a connection to an engine.  A session begins when the engine says that it is
ready; then it asks for every view of the catalogue and has the cards loaded.  Calls are made one
at a time, each waiting for its reply, until the session is closed.  Whatever the engine has sent
is read before the client goes on.
-/

namespace Cardsmith
namespace Engine

open Json

def doorCapacity : Nat := 16

structure Session (π : Type) where
  label : String
  link : Link π
  dispatcher : Dispatcher Nat
  ticket : Nat
  told : List Event
  closed : Bool
  engine : String × String
  views : List String
  log : List LogLine

/-- What a wait comes to; nothing if it never ends. -/
abbrev Wait (α : Type) := Option (Except Fault α)

inductive Transport where
  | tcp
  | socket
  deriving Repr, DecidableEq

def Transport.label : Transport → String
  | .tcp => "TCP"
  | .socket => "Unix"

def Transport.unanswered (transport : Transport) (address : String) (reason : NetFault) :
    ConnectionFault :=
  match transport with
  | .tcp => .dial address reason
  | .socket => .dialSocket reason

inductive Status where
  | ready
  | failed
  | closed
  deriving Repr, DecidableEq

namespace Session

variable {π : Type}

def start (label : String) (link : Link π) : Session π :=
  ⟨label, link, .start doorCapacity, 0, [], false, ("Unknown", "0.0.0"), [], []⟩

/-! ## Listening -/

def report (s : Session π) (level : LogLevel) (message : String) : Session π :=
  { s with log := s.log ++ [⟨level, message⟩] }

def note (s : Session π) (notices : List (Notice Nat)) (dispatcher : Dispatcher Nat) :
    Session π :=
  { s with
    dispatcher := dispatcher
    told := (Notice.events notices).reverse ++ s.told
    log := s.log ++ Notice.logLines notices }

/-- Read at most the number of frames given from what the engine has sent. -/
def listenUpTo : Nat → Session π → List (Notice Nat) × Session π
  | 0, s => ([], s)
  | limit + 1, s =>
      if s.dispatcher.running then
        match Frame.read s.label [s.link.inbound] with
        | .ok (payload, left) =>
            let (notices, dispatcher) := s.dispatcher.receive payload
            let s := { s.note notices dispatcher with
              link := { s.link with inbound := left.flatten } }
            let (more, s) := listenUpTo limit s
            (notices ++ more, s)
        | .error fault =>
            let waits := match fault with
              | .cutOff _ _ => !s.link.hungUp
              | _ => false
            if waits then ([], s)
            else
              let (notices, dispatcher) := s.dispatcher.lose
              let s := s.report .error
                ("Reader task failed: " ++ (Fault.connection (.frame fault)).message)
              (notices, s.note notices dispatcher)
      else ([], s)

def listen (s : Session π) : List (Notice Nat) × Session π :=
  listenUpTo (s.link.inbound.length + 1) s

def await (s : Session π) (ticket : Nat) : Wait Message × Session π :=
  let (notices, s) := s.listen
  ((Notice.answers notices).lookup ticket, s)

/-! ## Requests -/

/-- Send a request and wait for the reply.  At a full door the wait never ends, for nothing comes
that would let anybody in. -/
def request (s : Session π) (message : Message) : Wait Message × Session π :=
  if s.closed then (some (.error .closed), s)
  else
    match s.dispatcher.register? s.ticket with
    | none =>
        (if s.dispatcher.running then none else some (.error (.connection .notListening)), s)
    | some dispatcher =>
        let ticket := s.ticket
        let s := { s with dispatcher := dispatcher, ticket := ticket + 1 }
        match s.link.send s.label message.bytes with
        | .error fault => (some (.error (.connection (.frame fault))), s)
        | .ok link => await { s with link := link } ticket

def returned (target : Target) (method : String) : Message → Except Fault Value
  | .returnValue value => .ok value
  | .error code message => .error (.remote code message)
  | other => .error (.protocol (.notReturned target method other))

def invoke (s : Session π) (target : Target) (method : String) (args : List Value) :
    Wait Value × Session π :=
  let (reply, s) := s.request (.invoke target method args)
  (reply.map fun reply => reply.bind (returned target method), s)

/-! ## Beginning -/

def greeted : Message → Except Fault (String × String)
  | .ready name version => .ok (name, version)
  | other => .error (.protocol (.notReady other))

def awaitReady (s : Session π) : Wait Unit × Session π :=
  match s.dispatcher.register? s.ticket with
  | none => (some (.error (.connection .notListening)), s)
  | some dispatcher =>
      let (reply, s) := await { s with dispatcher := dispatcher, ticket := s.ticket + 1 } s.ticket
      match reply with
      | none => (some (.error (.timeout .ready)), s)
      | some reply =>
          match reply.bind greeted with
          | .ok (name, version) =>
              let s := { s with engine := (name, version) }
              (some (.ok ()), s.report .info s!"Connected to {name} v{version}")
          | .error fault => (some (.error fault), s)

/-- What a reply to the request for a view is worth: the view that the engine names. -/
def imported : Message → Except Fault String
  | .imported view => .ok view
  | .error code message => .error (.remote code message)
  | other => .error (.protocol (.notImported other))

def importViews (s : Session π) : List (String × String) → Wait Unit × Session π
  | [] => (some (.ok ()), s)
  | (view, package) :: rest =>
      match s.request (.importPackage view package) with
      | (none, s) => (none, s)
      | (some reply, s) =>
          match reply.bind imported with
          | .ok named =>
              let s := if named = view then s
                else s.report .warn s!"Imported view mismatch: expected {view}, got {named}"
              importViews { s with views := s.views ++ [view] } rest
          | .error fault => (some (.error fault), s)

/-- Begin a session: wait for the engine, ask for the views, have the cards loaded.  Nobody looks
at the events that come meanwhile. -/
def begin (s : Session π) : Wait Unit × Session π :=
  match s.awaitReady with
  | (some (.ok ()), s) =>
      match s.importViews Engine.views with
      | (some (.ok ()), s) =>
          match s.invoke cardLoader.1 cardLoader.2 [] with
          | (some (.ok _), s) =>
              (some (.ok ()),
                { s with told := [] }.report .info s!"Engine ready with {s.views.length} views")
          | (some (.error fault), s) => (some (.error fault), s)
          | (none, s) => (none, s)
      | outcome => outcome
  | outcome => outcome

def dial (transport : Transport) (address : String) (found : Except NetFault (Peer π × π)) :
    Except Fault (Session π) :=
  match found with
  | .ok (peer, state) => .ok (start transport.label (Link.start peer state))
  | .error reason => .error (.connection (transport.unanswered address reason))

/-! ## Ending -/

/-- Close the session: ask the engine to end, and send nothing any more. -/
def close (s : Session π) : Session π :=
  if s.closed then s
  else
    match s.link.send s.label Message.shutdown.bytes with
    | .ok link => { s with link := link, closed := true }
    | .error fault =>
        { s with closed := true }.report .warn
          ("Failed to send Shutdown: " ++ (Fault.connection (.frame fault)).message)

def status (s : Session π) : Status :=
  if s.closed then .closed
  else if s.dispatcher.running then .ready
  else .failed

def isOpen (s : Session π) : Bool := s.status = .ready

def received (s : Session π) : List Bytes := s.link.received.reverse

/-- Look at the events that came since the last look: how many were lost, and the others. -/
def takeEvents (s : Session π) : (Nat × List Event) × Session π :=
  (keptEvents s.told.reverse, { s with told := [] })

end Session

end Engine
end Cardsmith
