import Cardsmith.Engine.Envelope

/-!
# Messages from envelopes

The message in an envelope.  Each kind has fields of its own; in a body of members they are found
by name and in any order, in a body of items by place.
-/

namespace Cardsmith
namespace Engine

open Json

/-! ## Fields -/

/-- The number that a draft stands for, machine integer or carried as text. -/
def numeralOf : Draft → Except Cause Numeral
  | .integer i => .ok (Numeral.ofInt i)
  | .object ((key, carried) :: rest) =>
      if key = reservedKey then do
        let n ← Draft.carriedNumber carried
        Draft.onlyOneMember ((key, carried) :: rest)
        pure n
      else .error (.mismatch .notCarriedNumber)
  | draft => .error (.mismatch (.kind draft.found "a JSON number"))

/-- The error code that a numeral is: an integer that a signed word of 32 bits holds. -/
def codeOf? (n : Numeral) : Option Int32 :=
  match n.integer? with
  | some i => if -0x80000000 ≤ i ∧ i < 0x80000000 then some (Int32.ofInt i) else none
  | none => none

def errorCode (draft : Draft) : Except Cause Int32 := do
  let n ← numeralOf draft
  match codeOf? n with
  | some code => pure code
  | none => .error (.mismatch (.codeRange n))

def targetOf : Draft → Except Cause Target
  | .object members => do
      let (view, className) ← Record.readMembers
        (Record.both (Record.field "View" Record.string) (Record.field "Class" Record.string))
        (none, none) members
      pure ⟨← Record.required "View" view, ← Record.required "Class" className⟩
  | .list items => do
      let expected := "struct RemoteRef with 2 elements"
      let (view, items) ← Record.nextPart expected Record.string 0 items
      let (className, items) ← Record.nextPart expected Record.string 1 items
      Record.endParts 2 items
      pure ⟨view, className⟩
  | draft => .error (.mismatch (.kind draft.found "struct RemoteRef"))

/-! ## Bodies of members -/

def Message.ofMembers (members : List (String × Draft)) : Kind → Except Cause Message
  | .ready => do
      let (name, version) ← Record.readMembers
        (Record.both (Record.field "Name" Record.string) (Record.field "Version" Record.string))
        (none, none) members
      pure (.ready (← Record.required "Name" name) (← Record.required "Version" version))
  | .imported => do
      let view ← Record.readMembers (Record.field "View" Record.string) none members
      pure (.imported (← Record.required "View" view))
  | .returnValue => do
      let value ← Record.readMembers (Record.field "Value" Draft.toValue) none members
      pure (.returnValue (value.getD .null))
  | .event => do
      let (name, payload) ← Record.readMembers
        (Record.both (Record.field "Name" Record.string) (Record.field "Payload" Draft.toValue))
        (none, none) members
      pure (.event ⟨← Record.required "Name" name, payload.getD .null⟩)
  | .error => do
      let (code, message) ← Record.readMembers
        (Record.both (Record.field "Code" errorCode) (Record.field "Message" Record.string))
        (none, none) members
      pure (.error (← Record.required "Code" code) (← Record.required "Message" message))
  | .importPackage => do
      let (view, package) ← Record.readMembers
        (Record.both (Record.field "View" Record.string) (Record.field "Package" Record.string))
        (none, none) members
      pure (.importPackage (← Record.required "View" view) (← Record.required "Package" package))
  | .invoke => do
      let (target, method, args) ← Record.readMembers
        (Record.both (Record.field "Target" targetOf)
          (Record.both (Record.field "Method" Record.string) (Record.field "Args" Record.values)))
        (none, none, none) members
      pure (.invoke (← Record.required "Target" target) (← Record.required "Method" method)
        (args.getD []))
  | .shutdown => pure .shutdown

/-! ## Bodies of items -/

def variantText (kind : Kind) (count : Nat) : String :=
  s!"struct variant EngineMessage::{kind.name} with {count} element" ++
    if count = 1 then "" else "s"

def readPair {α β : Type} (kind : Kind) (first : Draft → Except Cause α)
    (second : Draft → Except Cause β) (items : List Draft) : Except Cause (α × β) := do
  let expected := variantText kind 2
  let (a, items) ← Record.nextPart expected first 0 items
  let (b, items) ← Record.nextPart expected second 1 items
  Record.endParts 2 items
  pure (a, b)

def Message.ofItems (items : List Draft) : Kind → Except Cause Message
  | .ready => do
      let (name, version) ← readPair .ready Record.string Record.string items
      pure (.ready name version)
  | .imported => do
      let (view, items) ← Record.nextPart (variantText .imported 1) Record.string 0 items
      Record.endParts 1 items
      pure (.imported view)
  | .returnValue => do
      let (value, items) ← Record.nextPartOr Value.null Draft.toValue items
      Record.endParts 1 items
      pure (.returnValue value)
  | .event => .error (.mismatch (.kind .list "struct variant EngineMessage::Event"))
  | .error => do
      let (code, message) ← readPair .error errorCode Record.string items
      pure (.error code message)
  | .importPackage => do
      let (view, package) ← readPair .importPackage Record.string Record.string items
      pure (.importPackage view package)
  | .invoke => do
      let expected := variantText .invoke 3
      let (target, items) ← Record.nextPart expected targetOf 0 items
      let (method, items) ← Record.nextPart expected Record.string 1 items
      let (args, items) ← Record.nextPartOr [] Record.values items
      Record.endParts 3 items
      pure (.invoke target method args)
  | .shutdown => do
      Record.endParts 0 items
      pure .shutdown

/-! ## Messages -/

def Message.ofEnvelope (envelope : Envelope) : Except Cause Message :=
  match envelope.body with
  | .members members => Message.ofMembers members envelope.kind
  | .items items => Message.ofItems items envelope.kind

/-- The message that bytes stand for.  A fault inside the envelope has no place. -/
def Message.ofBytes (input : Bytes) : Except Json.Fault Message :=
  match Envelope.read (input.length + 1) input with
  | .error stop => .error (stop.fault input)
  | .ok (envelope, rest) =>
      match Message.ofEnvelope envelope with
      | .error cause => .error ⟨cause, none⟩
      | .ok message =>
          match readEnd rest with
          | .error stop => .error (stop.fault input)
          | .ok () => .ok message

end Engine
end Cardsmith
