import Cardsmith.Json.Printer

/-!
# Messages

What travels between a client and its engine, and the JSON object that each message is written
as: its type first, then its fields.
-/

namespace Cardsmith
namespace Engine

open Json

/-- A class of the engine, in one of the package views. -/
structure Target where
  view : String
  className : String
  deriving Repr, DecidableEq

def Target.text (target : Target) : String := target.view ++ "." ++ target.className

/-- Something the engine tells without being asked. -/
structure Event where
  name : String
  payload : Value
  deriving Repr, DecidableEq

inductive Message where
  | ready (name version : String)
  | imported (view : String)
  | returnValue (value : Value)
  | event (event : Event)
  /-- What a request came to instead of a result. -/
  | error (code : Int32) (message : String)
  | importPackage (view package : String)
  | invoke (target : Target) (method : String) (args : List Value)
  | shutdown
  deriving Repr, DecidableEq

/-! ## Kinds -/

inductive Kind where
  | ready
  | imported
  | returnValue
  | event
  | error
  | importPackage
  | invoke
  | shutdown
  deriving Repr, DecidableEq

namespace Kind

def all : List Kind :=
  [.ready, .imported, .returnValue, .event, .error, .importPackage, .invoke, .shutdown]

def name : Kind → String
  | .ready => "Ready"
  | .imported => "Imported"
  | .returnValue => "ReturnValue"
  | .event => "Event"
  | .error => "Error"
  | .importPackage => "ImportPackage"
  | .invoke => "Invoke"
  | .shutdown => "Shutdown"

def names : List String := all.map name

def ofName? (s : String) : Option Kind := all.find? fun kind => kind.name = s

end Kind

def Message.kind : Message → Kind
  | .ready _ _ => .ready
  | .imported _ => .imported
  | .returnValue _ => .returnValue
  | .event _ => .event
  | .error _ _ => .error
  | .importPackage _ _ => .importPackage
  | .invoke _ _ _ => .invoke
  | .shutdown => .shutdown

/-! ## Written form -/

def Target.fields (target : Target) : Mapping :=
  [("View", .string target.view), ("Class", .string target.className)]

def Message.fields : Message → Mapping
  | .ready name version => [("Name", .string name), ("Version", .string version)]
  | .imported view => [("View", .string view)]
  | .returnValue value => [("Value", value)]
  | .event told => [("Name", .string told.name), ("Payload", told.payload)]
  | .error code message =>
      [("Code", .number (Numeral.ofInt code.toInt)), ("Message", .string message)]
  | .importPackage view package => [("View", .string view), ("Package", .string package)]
  | .invoke target method args =>
      [("Target", .object target.fields), ("Method", .string method), ("Args", .array args)]
  | .shutdown => []

def Message.toValue (message : Message) : Value :=
  .object (("Type", .string message.kind.name) :: message.fields)

def Message.text (message : Message) : String := message.toValue.compact

def Message.bytes (message : Message) : Bytes := Utf8.encode message.text

end Engine
end Cardsmith
