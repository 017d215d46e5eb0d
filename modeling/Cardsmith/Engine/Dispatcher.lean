import Cardsmith.Engine.Decode
import Cardsmith.Engine.Fault
import Cardsmith.Log

/-!
# Dispatching

Who gets which message.  Whoever sends a request first registers for its reply.  Registrations
wait at a door of limited capacity and are let in when a frame arrives; an event goes to
everyone, and every other frame answers the oldest registration.  When the connection fails, all
that are left are told so, and nobody is accepted any more.
-/

namespace Cardsmith
namespace Engine

abbrev Reply := Except Fault Message

inductive Notice (ρ : Type) where
  | answered (who : ρ) (reply : Reply)
  | told (event : Event)
  | unasked (message : Message)
  | garbled (fault : Json.Fault)

structure Dispatcher (ρ : Type) where
  capacity : Nat
  /-- Those that registered since the last frame arrived, the oldest first. -/
  door : List ρ
  /-- Those let in before, the oldest first. -/
  pending : List ρ
  gone : List ρ
  running : Bool
  deriving Repr

namespace Dispatcher

variable {ρ : Type}

def start (capacity : Nat) : Dispatcher ρ := ⟨capacity, [], [], [], true⟩

/-- Register, unless nothing is read any more or the door is full. -/
def register? (d : Dispatcher ρ) (who : ρ) : Option (Dispatcher ρ) :=
  if d.running && d.door.length < d.capacity then some { d with door := d.door ++ [who] }
  else none

/-- Want a reply no longer.  The registration keeps its place. -/
def abandon (d : Dispatcher ρ) (who : ρ) : Dispatcher ρ := { d with gone := who :: d.gone }

/-- Answer a registration; one that wants no reply hears nothing. -/
def answer [BEq ρ] (d : Dispatcher ρ) (who : ρ) (reply : Reply) : List (Notice ρ) :=
  if d.gone.contains who then [] else [.answered who reply]

def answerOldest [BEq ρ] (d : Dispatcher ρ) (reply : Reply) (otherwise : List (Notice ρ)) :
    List (Notice ρ) × Dispatcher ρ :=
  match d.pending with
  | [] => (otherwise, d)
  | who :: rest => (d.answer who reply, { d with pending := rest })

def letIn (d : Dispatcher ρ) : Dispatcher ρ :=
  { d with door := [], pending := d.pending ++ d.door }

/-- Pass on what a frame holds: an event to everyone, anything else to the oldest of those let
in. -/
def dispatch [BEq ρ] (d : Dispatcher ρ) (payload : Bytes) : List (Notice ρ) × Dispatcher ρ :=
  match Message.ofBytes payload with
  | .ok (.event event) => ([.told event], d)
  | .ok message => d.answerOldest (.ok message) [.unasked message]
  | .error fault =>
      let (notices, d) := d.answerOldest (.error (.malformed fault)) []
      (.garbled fault :: notices, d)

def receive [BEq ρ] (d : Dispatcher ρ) (payload : Bytes) : List (Notice ρ) × Dispatcher ρ :=
  d.letIn.dispatch payload

def lose [BEq ρ] (d : Dispatcher ρ) : List (Notice ρ) × Dispatcher ρ :=
  let d := d.letIn
  (d.pending.flatMap fun who => d.answer who (.error (.connection .lost)),
    { d with pending := [], running := false })

end Dispatcher

/-! ## Notices -/

namespace Notice

variable {ρ : Type}

def answers (notices : List (Notice ρ)) : List (ρ × Reply) :=
  notices.filterMap fun
    | .answered who reply => some (who, reply)
    | .told _ | .unasked _ | .garbled _ => none

def events (notices : List (Notice ρ)) : List Event :=
  notices.filterMap fun
    | .told event => some event
    | .answered _ _ | .unasked _ | .garbled _ => none

def logLines (notices : List (Notice ρ)) : List LogLine :=
  notices.filterMap fun
    | .unasked message =>
        some ⟨.warn, "Received response but no pending request: " ++ message.diagnostic⟩
    | .garbled fault => some ⟨.error, "Failed to deserialize message: " ++ fault.message⟩
    | .answered _ _ | .told _ => none

end Notice

/-! ## Events -/

def eventWindow : Nat := 64

/-- How many of the events that came since the last look are lost, and those that are kept. -/
def keptEvents (events : List Event) : Nat × List Event :=
  (events.length - eventWindow, events.drop (events.length - eventWindow))

end Engine
end Cardsmith
