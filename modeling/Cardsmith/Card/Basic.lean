import Cardsmith.Bytes.Sha256
import Cardsmith.Card.Fault
import Cardsmith.Json.Printer
import Cardsmith.Json.Reader

/-!
# Cards

A card is a JSON object whose fields keep their order and whose numbers keep their digits.  Its
canonical text is the indented form, and its digest is the digest of that text.
-/

namespace Cardsmith

/-- A card: the fields of a JSON object, in order. -/
abbrev Card := Json.Mapping

namespace Card

def ofText (text : String) : Except Fault Card :=
  match Json.Value.ofText text with
  | .ok (.object fields) => .ok fields
  | .ok other => .error (.notObject other)
  | .error fault => .error (.malformed fault)

def text (card : Card) : String := (Json.Value.object card).indented

def compact (card : Card) : String := (Json.Value.object card).compact

/-- The digest of a card: that of its canonical text. -/
def digest (card : Card) : String := Sha256.hexDigest (Utf8.encode (text card))

end Card
end Cardsmith
