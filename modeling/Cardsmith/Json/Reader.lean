import Cardsmith.Json.Token
import Cardsmith.Json.Value

/-!
# Reading JSON values

The reader of whole values.  Containers nest up to a limit; a repeated key keeps its first place
and its last value; an object whose first key is the reserved key stands for the number that its
string carries.
-/

namespace Cardsmith
namespace Json

/-- The key under which a number travels as text. -/
def reservedKey : String := "$serde_json::private::Number"

def nestingLimit : Nat := 127

/-! ## Lists and objects -/

def nextItem (first : Bool) (bs : Bytes) : Except Stop (Bool × Bytes) :=
  match skipBlanks bs with
  | [] => stopIn .endInList []
  | b :: rest =>
      if b = ']'.toUInt8 then .ok (false, b :: rest)
      else if first then .ok (true, b :: rest)
      else if b = ','.toUInt8 then
        match skipBlanks rest with
        | [] => stopIn .endInValue []
        | c :: more =>
            if c = ']'.toUInt8 then stopIn .trailingComma (c :: more) else .ok (true, c :: more)
      else stopIn .expectedListEnd (b :: rest)

def endList (bs : Bytes) : Except Stop Bytes :=
  match skipBlanks bs with
  | [] => stopIn .endInList []
  | b :: rest =>
      if b = ']'.toUInt8 then .ok rest
      else if b = ','.toUInt8 then
        match skipBlanks rest with
        | [] => stopIn .trailingCharacters []
        | c :: more =>
            if c = ']'.toUInt8 then stopIn .trailingComma (c :: more)
            else stopIn .trailingCharacters (c :: more)
      else stopIn .trailingCharacters (b :: rest)

def nextKey (budget : Nat) (first : Bool) (bs : Bytes) : Except Stop (Option String × Bytes) :=
  match skipBlanks bs with
  | [] => stopIn .endInObject []
  | b :: rest =>
      if b = '\x7d'.toUInt8 then .ok (none, b :: rest)
      else if first then
        if b = '"'.toUInt8 then do
          let (key, rest) ← readString budget rest
          pure (some key, rest)
        else stopIn .keyNotString (b :: rest)
      else if b = ','.toUInt8 then
        match skipBlanks rest with
        | [] => stopIn .endInValue []
        | c :: more =>
            if c = '"'.toUInt8 then do
              let (key, rest) ← readString budget more
              pure (some key, rest)
            else if c = '\x7d'.toUInt8 then stopIn .trailingComma (c :: more)
            else stopIn .keyNotString (c :: more)
      else stopIn .expectedObjectEnd (b :: rest)

def readColon (bs : Bytes) : Except Stop Bytes :=
  match skipBlanks bs with
  | [] => stopIn .endInObject []
  | b :: rest => if b = ':'.toUInt8 then .ok rest else stopIn .expectedColon (b :: rest)

def endObject (bs : Bytes) : Except Stop Bytes :=
  match skipBlanks bs with
  | [] => stopIn .endInObject []
  | b :: rest =>
      if b = '\x7d'.toUInt8 then .ok rest
      else if b = ','.toUInt8 then stopIn .trailingComma (b :: rest)
      else stopIn .trailingCharacters (b :: rest)

/-- Read the items up to the closing bracket of a list, those before being `done`, last first. -/
def readItems {α : Type} (item : Bytes → Except Stop (α × Bytes)) :
    Nat → Bool → List α → Bytes → Except Stop (List α × Bytes)
  | 0, _, _, bs => stopIn .endInList bs
  | budget + 1, first, done, bs => do
      let (more, bs) ← nextItem first bs
      if more then
        let (value, bs) ← item bs
        readItems item budget false (value :: done) bs
      else pure (done.reverse, bs)

def readMembers {α : Type} (keyBudget : Nat) (item : Bytes → Except Stop (α × Bytes)) :
    Nat → Bool → List (String × α) → Bytes → Except Stop (List (String × α) × Bytes)
  | 0, _, _, bs => stopIn .endInObject bs
  | budget + 1, first, done, bs => do
      let (key?, bs) ← nextKey keyBudget first bs
      match key? with
      | none => pure (done.reverse, bs)
      | some key =>
          let bs ← readColon bs
          let (value, bs) ← item bs
          readMembers keyBudget item budget false ((key, value) :: done) bs

/-! ## Values -/

def Scalar.value : Scalar → Value
  | .null => .null
  | .bool b => .bool b
  | .number n => .number n
  | .string s => .string s

/-- Read the string under the reserved key as the number it carries. -/
def readCarriedNumber (budget : Nat) (bs : Bytes) : Except Stop (Numeral × Bytes) :=
  match skipBlanks bs with
  | [] => stopIn .endInValue []
  | b :: rest =>
      if b = '"'.toUInt8 then do
        let (s, rest) ← readString budget rest
        match Numeral.ofText s with
        | .ok n => pure (n, rest)
        | .error cause => .error ⟨cause, rest, false⟩
      else stopAtKind budget "string containing a number" (b :: rest)

def readObject (budget : Nat) (item : Bytes → Except Stop (Value × Bytes)) (bs : Bytes) :
    Except Stop (Value × Bytes) := do
  let (key?, bs) ← nextKey budget true bs
  match key? with
  | none =>
      let bs ← endObject bs
      pure (.object [], bs)
  | some key =>
      let bs ← readColon bs
      if key = reservedKey then
        let (n, bs) ← readCarriedNumber budget bs
        let bs ← endObject bs
        pure (.number n, bs)
      else
        let (value, bs) ← item bs
        let (members, bs) ← readMembers budget item budget false [(key, value)] bs
        let bs ← endObject bs
        pure (.object (Mapping.ofMembers members), bs)

def readValue (budget : Nat) : Nat → Bytes → Except Stop (Value × Bytes)
  | 0, bs => do
      let (head, rest) ← readHead budget bs
      match head with
      | .scalar s => pure (s.value, rest)
      | .list | .object => stopAt .nestingLimit rest
  | depth + 1, bs => do
      let (head, rest) ← readHead budget bs
      match head with
      | .scalar s => pure (s.value, rest)
      | .list =>
          let (items, rest) ← readItems (readValue budget depth) budget true [] rest
          let rest ← endList rest
          pure (.array items, rest)
      | .object => readObject budget (readValue budget depth) rest

def readEnd (bs : Bytes) : Except Stop Unit :=
  match skipBlanks bs with
  | [] => .ok ()
  | b :: rest => stopIn .trailingCharacters (b :: rest)

/-- Give the outcome of a reader on a whole text, a stop as a fault with its place. -/
def readAll {α : Type} (reader : Nat → Bytes → Except Stop (α × Bytes)) (input : Bytes) :
    Except Fault α :=
  let outcome : Except Stop α := do
    let (result, rest) ← reader (input.length + 1) input
    readEnd rest
    pure result
  outcome.mapError fun stop => stop.fault input

def Value.ofBytes (input : Bytes) : Except Fault Value :=
  readAll (fun budget => readValue budget nestingLimit) input

def Value.ofText (text : String) : Except Fault Value := Value.ofBytes (Utf8.encode text)

end Json
end Cardsmith
