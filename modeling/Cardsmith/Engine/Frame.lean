import Cardsmith.Bytes.Utf8

/-!
# Frames

Messages on a connection are framed: the number of bytes in four bytes, the lowest first, and
then the bytes.  A frame is read from a stream that comes in pieces of any sizes; a frame that is
cut off, or that says it is too large, gives nothing.
-/

namespace Cardsmith
namespace Engine

/-! ## Faults -/

inductive Part where
  | length
  | data
  deriving Repr, DecidableEq

def Part.name : Part → String
  | .length => "length"
  | .data => "data"

inductive SinkFault where
  | full
  | flushRefused
  | brokenPipe
  deriving Repr, DecidableEq

def SinkFault.message : SinkFault → String
  | .full => "sink full"
  | .flushRefused => "flush refused"
  | .brokenPipe => "Broken pipe (os error 32)"

/-- Why a frame cannot be read or written; the label names the connection. -/
inductive FrameFault where
  | tooLarge (size : Nat)
  | cutOff (label : String) (part : Part)
  | unwritten (label : String) (part : Part) (reason : SinkFault)
  | unflushed (label : String) (reason : SinkFault)
  deriving Repr, DecidableEq

def FrameFault.message : FrameFault → String
  | .tooLarge size => s!"Message too large: {size} bytes"
  | .cutOff label part => s!"{label} read {part.name} failed: early eof"
  | .unwritten label part reason => s!"{label} write {part.name} failed: {reason.message}"
  | .unflushed label reason => s!"{label} flush failed: {reason.message}"

/-! ## Encoding -/

namespace Frame

def maxSize : Nat := 64 * 1024 * 1024

/-- The four bytes of a size, the lowest first. -/
def header (size : Nat) : Bytes :=
  [UInt8.ofNat size, UInt8.ofNat (size / 256), UInt8.ofNat (size / 65536),
    UInt8.ofNat (size / 16777216)]

def encode (payload : Bytes) : Bytes := header payload.length ++ payload

def number : Bytes → Nat
  | [] => 0
  | b :: rest => b.toNat + 256 * number rest

/-! ## Reading -/

/-- Take a number of bytes from a stream in pieces, if there are as many. -/
def take? : Nat → List Bytes → Option (Bytes × List Bytes)
  | 0, pieces => some ([], pieces)
  | _ + 1, [] => none
  | n + 1, piece :: rest =>
      if n + 1 < piece.length then some (piece.take (n + 1), piece.drop (n + 1) :: rest)
      else (take? (n + 1 - piece.length) rest).map fun (bytes, left) => (piece ++ bytes, left)

def read (label : String) (pieces : List Bytes) : Except FrameFault (Bytes × List Bytes) :=
  match take? 4 pieces with
  | none => .error (.cutOff label .length)
  | some (size, rest) =>
      if maxSize < number size then .error (.tooLarge (number size))
      else
        match take? (number size) rest with
        | none => .error (.cutOff label .data)
        | some (payload, left) => .ok (payload, left)

def readUpTo (label : String) : Nat → List Bytes → List Bytes × FrameFault
  | 0, _ => ([], .cutOff label .length)
  | limit + 1, pieces =>
      match read label pieces with
      | .error fault => ([], fault)
      | .ok (payload, left) =>
          let (payloads, fault) := readUpTo label limit left
          (payload :: payloads, fault)

def readAll (label : String) (pieces : List Bytes) : List Bytes × FrameFault :=
  readUpTo label (pieces.flatten.length + 1) pieces

end Frame

end Engine
end Cardsmith
