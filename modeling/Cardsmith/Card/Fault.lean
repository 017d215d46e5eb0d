import Cardsmith.Json.Fault
import Cardsmith.Json.Value
import Cardsmith.Storage.Fault

/-!
# Faults of cards

Why a card, or a hero class, cannot be had.
-/

namespace Cardsmith
namespace Card

inductive Fault where
  | storage (path : String) (reason : Storage.Fault)
  | malformed (fault : Json.Fault)
  | notObject (found : Json.Value)
  | unknownClass (name : String)
  deriving Repr, DecidableEq

def kindText : Json.Value → String
  | .null => "null"
  | .bool _ => "a boolean"
  | .number _ => "a number"
  | .string _ => "a string"
  | .array _ => "an array"
  | .object _ => "an object"

def Fault.message : Fault → String
  | .storage path reason => s!"I/O error: {path}: {reason.message}"
  | .malformed fault => "Serialization error: " ++ fault.message
  | .notObject found => "Card document must be a JSON object, found " ++ kindText found
  | .unknownClass name => "Unknown hero class: " ++ name

end Card
end Cardsmith
