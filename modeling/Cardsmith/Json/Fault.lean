import Cardsmith.Bytes.Utf8
import Cardsmith.Json.Numeral
import Cardsmith.Text.Quoted

/-!
# What can be wrong with a JSON text

Causes and their wording.  A text may break the grammar, or be JSON of another shape than the
one asked for; most faults also have a place, the line and the column in bytes.
-/

namespace Cardsmith
namespace Json

/-! ## Places -/

/-- A place in a text: the line from one on, and how many of its bytes stand before the place. -/
structure Place where
  line : Nat
  column : Nat
  deriving Repr, DecidableEq

def Place.after (bytes : Bytes) : Place :=
  bytes.foldl
    (fun place b =>
      if b = 0x0A then ⟨place.line + 1, 0⟩ else ⟨place.line, place.column + 1⟩)
    ⟨1, 0⟩

def Place.message (place : Place) : String := s!" at line {place.line} column {place.column}"

/-! ## Breaches of the grammar -/

inductive GrammarFault where
  | endInValue
  | endInList
  | endInObject
  | endInString
  | expectedValue
  | expectedLiteral
  | expectedColon
  | expectedListEnd
  | expectedObjectEnd
  | trailingComma
  | trailingCharacters
  | keyNotString
  | invalidEscape
  | invalidNumber
  | invalidCodePoint
  | loneSurrogate
  | unfinishedSurrogatePair
  | controlCharacter
  | nestingLimit
  deriving Repr, DecidableEq

def GrammarFault.message : GrammarFault → String
  | .endInValue => "EOF while parsing a value"
  | .endInList => "EOF while parsing a list"
  | .endInObject => "EOF while parsing an object"
  | .endInString => "EOF while parsing a string"
  | .expectedValue => "expected value"
  | .expectedLiteral => "expected ident"
  | .expectedColon => "expected `:`"
  | .expectedListEnd => "expected `,` or `]`"
  | .expectedObjectEnd => "expected `,` or `\x7d`"
  | .trailingComma => "trailing comma"
  | .trailingCharacters => "trailing characters"
  | .keyNotString => "key must be a string"
  | .invalidEscape => "invalid escape"
  | .invalidNumber => "invalid number"
  | .invalidCodePoint => "invalid unicode code point"
  | .loneSurrogate => "lone leading surrogate in hex escape"
  | .unfinishedSurrogatePair => "unexpected end of hex escape"
  | .controlCharacter => "control character (\\u0000-\\u001F) found while parsing a string"
  | .nestingLimit => "recursion limit exceeded"

/-! ## Wrong shapes -/

inductive Found where
  | null
  | bool (b : Bool)
  | integer (i : Int)
  | number
  | string (s : String)
  | list
  | mapping
  deriving Repr, DecidableEq

def Found.message : Found → String
  | .null => "null"
  | .bool b => s!"boolean `{b}`"
  | .integer i => s!"integer `{i}`"
  | .number => "number"
  | .string s => "string " ++ Text.quoted s
  | .list => "sequence"
  | .mapping => "map"

inductive Mismatch where
  | kind (found : Found) (expected : String)
  | size (found : Nat) (expected : String)
  | unknownVariant (name : String) (known : List String)
  | missingField (name : String)
  | repeatedField (name : String)
  | codeRange (n : Numeral)
  /-- A mapping other than a number carried as text where a number was asked for. -/
  | notCarriedNumber
  deriving Repr, DecidableEq

def Mismatch.message : Mismatch → String
  | .kind found expected => s!"invalid type: {found.message}, expected {expected}"
  | .size found expected => s!"invalid length {found}, expected {expected}"
  | .unknownVariant name known =>
      s!"unknown variant `{name}`, expected one of " ++
        ", ".intercalate (known.map fun n => s!"`{n}`")
  | .missingField name => s!"missing field `{name}`"
  | .repeatedField name => s!"duplicate field `{name}`"
  | .codeRange n => s!"error code out of range: {n.text}"
  | .notCarriedNumber => "expected field with custom name"

/-! ## Faults -/

inductive Cause where
  | grammar (fault : GrammarFault)
  | mismatch (mismatch : Mismatch)
  /-- A string that carries a number is not one; the place is in that string. -/
  | carriedNumber (fault : GrammarFault) (place : Place)
  deriving Repr, DecidableEq

structure Fault where
  cause : Cause
  place : Option Place
  deriving Repr, DecidableEq

/-- A fault in words.  A number carried as text has its own place. -/
def Fault.message (fault : Fault) : String :=
  let place := match fault.place with
    | some place => place.message
    | none => ""
  match fault.cause with
  | .grammar g => g.message ++ place
  | .mismatch m => m.message ++ place
  | .carriedNumber g inner => g.message ++ inner.message

end Json
end Cardsmith
