import Cardsmith.Engine.Frame

/-!
# Sinks

Where frames are written to.  A sink takes as many bytes at a time as it likes, at least one,
until its room is used up; then it fails for good.  It may also refuse to pass on what it took.
-/

namespace Cardsmith
namespace Engine

structure Sink where
  /-- How many bytes the sink would take at each write; it takes at least one. -/
  appetite : Nat → Nat
  writes : Nat
  /-- How many bytes it can still take, if there is a limit. -/
  room : Option Nat
  flushes : Bool
  pieces : List Bytes

namespace Sink

def arrived (sink : Sink) : Bytes := sink.pieces.reverse.flatten

/-- How many of the bytes offered a sink takes at once. -/
def portion (sink : Sink) (offered : Nat) : Nat :=
  let wanted := min (max 1 (sink.appetite sink.writes)) offered
  match sink.room with
  | some room => min room wanted
  | none => wanted

/-- Offer bytes to a sink: those it did not take, unless it has no room at all. -/
def write? (sink : Sink) (offered : Bytes) : Option (Bytes × Sink) :=
  if sink.room = some 0 then none
  else
    let n := sink.portion offered.length
    some (offered.drop n,
      { sink with
        writes := sink.writes + 1
        room := sink.room.map (· - n)
        pieces := offered.take n :: sink.pieces })

/-- Offer bytes until all are taken, in at most the number of writes given: whether they were. -/
def writeUpTo : Nat → Sink → Bytes → Bool × Sink
  | _, sink, [] => (true, sink)
  | 0, sink, _ :: _ => (false, sink)
  | limit + 1, sink, b :: rest =>
      match sink.write? (b :: rest) with
      | none => (false, sink)
      | some (left, sink) => writeUpTo limit sink left

def writeAll (sink : Sink) (bytes : Bytes) : Bool × Sink := writeUpTo bytes.length sink bytes

def writeFrame (label : String) (sink : Sink) (payload : Bytes) :
    Except FrameFault Unit × Sink :=
  if 0x100000000 ≤ payload.length then (.error (.tooLarge payload.length), sink)
  else
    match sink.writeAll (Frame.header payload.length) with
    | (false, sink) => (.error (.unwritten label .length .full), sink)
    | (true, sink) =>
        match sink.writeAll payload with
        | (false, sink) => (.error (.unwritten label .data .full), sink)
        | (true, sink) =>
            if sink.flushes then (.ok (), sink)
            else (.error (.unflushed label .flushRefused), sink)

/-- Write frames one after the other, every one whatever came of those before it. -/
def writeFrames (label : String) (sink : Sink) :
    List Bytes → List (Except FrameFault Unit) × Sink
  | [] => ([], sink)
  | payload :: rest =>
      let (outcome, sink) := writeFrame label sink payload
      let (outcomes, sink) := writeFrames label sink rest
      (outcome :: outcomes, sink)

end Sink

end Engine
end Cardsmith
