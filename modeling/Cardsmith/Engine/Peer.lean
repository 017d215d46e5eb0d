import Cardsmith.Engine.Decode
import Cardsmith.Engine.Frame

/-!
# The other side

An engine as its client sees it: something that answers each request with bytes, and that may
hang up.  A script says what it sends when the connection begins and in reply to each request;
where it says nothing, views are imported, calls return null and the request to end goes
unanswered.
-/

namespace Cardsmith
namespace Engine

inductive Act where
  | send (bytes : Bytes)
  | hangUp
  deriving Repr, DecidableEq

def Act.frame (payload : Bytes) : Act := .send (Frame.encode payload)

/-- An engine with a state of its own: what it does when the connection begins, and on each
request. -/
structure Peer (π : Type) where
  greet : List Act
  react : π → Bytes → List Act × π

/-! ## Scripts -/

structure Script where
  greeting : List Act
  /-- In reply to the requests of the numbers given, counted from zero. -/
  replies : List (Nat × List Act)
  deriving Repr

namespace Script

def readyMessage : Message := .ready "Spellsource" "1.3.0"

/-- The reply to a request that the script has none for. -/
def reply (request : Bytes) : List Act :=
  match Message.ofBytes request with
  | .ok (.importPackage view _) => [.frame (Message.imported view).bytes]
  | .ok (.invoke _ _ _) => [.frame (Message.returnValue .null).bytes]
  | _ => []

/-- The engine that follows a script; its state is the number of requests so far. -/
def peer (script : Script) : Peer Nat where
  greet := script.greeting
  react number request :=
    ((script.replies.lookup number).getD (reply request), number + 1)

end Script

/-! ## Connections -/

structure Link (π : Type) where
  peer : Peer π
  state : π
  inbound : Bytes
  hungUp : Bool
  received : List Bytes

namespace Link

variable {π : Type}

def perform (link : Link π) : List Act → Link π
  | [] => link
  | .send bytes :: rest => perform { link with inbound := link.inbound ++ bytes } rest
  | .hangUp :: _ => { link with hungUp := true }

def start (peer : Peer π) (state : π) : Link π := perform ⟨peer, state, [], false, []⟩ peer.greet

/-- Send a request, to which the engine reacts. -/
def send (label : String) (link : Link π) (payload : Bytes) : Except FrameFault (Link π) :=
  if 0x100000000 ≤ payload.length then .error (.tooLarge payload.length)
  else if link.hungUp then .error (.unwritten label .length .brokenPipe)
  else
    let (acts, state) := link.peer.react link.state payload
    .ok (perform { link with state := state, received := payload :: link.received } acts)

end Link

end Engine
end Cardsmith
