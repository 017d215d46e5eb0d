import Cardsmith.Card.Basic
import Cardsmith.Text.Lowercase

/-!
# Card identifiers

An identifier is made of a card's type and name: the type in lower case, an underscore, and the
name in lower case with every character that is no ASCII letter or digit replaced by an
underscore.
-/

namespace Cardsmith
namespace Card

open Json

def identifierChar (c : Char) : Char := if c.isAlphanum then c else '_'

def identifier (name type : String) : String :=
  String.ofList ((Text.lowercase type).toList ++
    '_' :: (Text.lowercase name).toList.map identifierChar)

def stringField? (card : Card) (key : String) : Option String :=
  match card.get? key with
  | some (.string s) => some s
  | _ => none

def identifier? (card : Card) : Option String := do
  let name ← stringField? card "name"
  let type ← stringField? card "type"
  pure (identifier name type)

end Card
end Cardsmith
