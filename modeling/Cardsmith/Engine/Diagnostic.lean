import Cardsmith.Engine.Message
import Cardsmith.Text.Quoted

/-!
# Messages in diagnostics

The form in which a diagnostic shows a message and the values in it.
-/

namespace Cardsmith
namespace Engine

open Json

mutual

def valueDiagnostic : Value → String
  | .null => "Null"
  | .bool b => s!"Bool({b})"
  | .number n => s!"Number({n.text})"
  | .string s => s!"String({Text.quoted s})"
  | .array items => "Array [" ++ itemsDiagnostic items ++ "]"
  | .object fields => "Object \x7b" ++ fieldsDiagnostic fields ++ "\x7d"
termination_by structural v => v

def itemsDiagnostic : List Value → String
  | [] => ""
  | item :: rest =>
      valueDiagnostic item ++ (if rest.isEmpty then "" else ", ") ++ itemsDiagnostic rest
termination_by structural items => items

def fieldsDiagnostic : List (String × Value) → String
  | [] => ""
  | (key, v) :: rest =>
      Text.quoted key ++ ": " ++ valueDiagnostic v ++ (if rest.isEmpty then "" else ", ") ++
        fieldsDiagnostic rest
termination_by structural fields => fields

end

def partsDiagnostic (name : String) (parts : List (String × String)) : String :=
  name ++ " \x7b " ++ ", ".intercalate (parts.map fun (key, text) => key ++ ": " ++ text) ++ " \x7d"

def Message.diagnostic : Message → String
  | .ready name version =>
      partsDiagnostic "Ready" [("name", Text.quoted name), ("version", Text.quoted version)]
  | .imported view => partsDiagnostic "Imported" [("view", Text.quoted view)]
  | .returnValue value => partsDiagnostic "ReturnValue" [("value", valueDiagnostic value)]
  | .event told =>
      partsDiagnostic "Event" [("event", partsDiagnostic "EngineEvent"
        [("name", Text.quoted told.name), ("payload", valueDiagnostic told.payload)])]
  | .error code message =>
      partsDiagnostic "Error" [("code", s!"{code.toInt}"), ("message", Text.quoted message)]
  | .importPackage view package =>
      partsDiagnostic "ImportPackage"
        [("view", Text.quoted view), ("package", Text.quoted package)]
  | .invoke target method args =>
      partsDiagnostic "Invoke"
        [("target", partsDiagnostic "RemoteRef"
          [("view", Text.quoted target.view), ("class", Text.quoted target.className)]),
          ("method", Text.quoted method), ("args", "[" ++ itemsDiagnostic args ++ "]")]
  | .shutdown => "Shutdown"

end Engine
end Cardsmith
