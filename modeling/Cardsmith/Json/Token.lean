import Cardsmith.Bytes.Hex
import Cardsmith.Json.Fault

/-!
# Reading the parts of a JSON text

Readers of the smallest parts: blanks, literal names, strings and numerals.  A reader takes the
bytes that are left and gives what it read with the bytes left after it, or stops with a fault.
Loops count down a budget of steps, which the number of bytes of the whole text covers.
-/

namespace Cardsmith
namespace Json

/-- A fault met while reading: its cause, the bytes left where the reader stands, and whether
the fault lies at the next byte, which is then counted to its place. -/
structure Stop where
  cause : Cause
  rest : Bytes
  ahead : Bool
  deriving Repr, DecidableEq

def Stop.fault (stop : Stop) (input : Bytes) : Fault :=
  let left := if stop.ahead then stop.rest.length - 1 else stop.rest.length
  ⟨stop.cause, some (Place.after (input.take (input.length - left)))⟩

def stopAt {α : Type} (fault : GrammarFault) (rest : Bytes) : Except Stop α :=
  .error ⟨.grammar fault, rest, false⟩

def stopIn {α : Type} (fault : GrammarFault) (rest : Bytes) : Except Stop α :=
  .error ⟨.grammar fault, rest, true⟩

/-! ## Blanks and literals -/

def isBlankByte (b : UInt8) : Bool := b = 0x20 || b = 0x0A || b = 0x09 || b = 0x0D

def skipBlanks (bs : Bytes) : Bytes := bs.dropWhile isBlankByte

def readLiteral : List Char → Bytes → Except Stop Bytes
  | [], bs => .ok bs
  | _ :: _, [] => stopAt .endInValue []
  | c :: cs, b :: bs => if b = c.toUInt8 then readLiteral cs bs else stopAt .expectedLiteral bs

/-! ## Strings -/

def readHexCode : Bytes → Except Stop (Nat × Bytes)
  | a :: b :: c :: d :: rest =>
      match Hex.value? a, Hex.value? b, Hex.value? c, Hex.value? d with
      | some a, some b, some c, some d => .ok (((a * 16 + b) * 16 + c) * 16 + d, rest)
      | _, _, _, _ => stopAt .invalidEscape rest
  | _ => stopAt .endInString []

def readSurrogateMark (mark : Char) : Bytes → Except Stop Bytes
  | [] => stopAt .endInString []
  | b :: rest => if b = mark.toUInt8 then .ok rest else stopAt .unfinishedSurrogatePair rest

/-- Read the code of an escape, and the second half of a surrogate pair after a first half. -/
def readCodeEscape (bs : Bytes) : Except Stop (Char × Bytes) := do
  let (high, rest) ← readHexCode bs
  if 0xDC00 ≤ high ∧ high ≤ 0xDFFF then stopAt .loneSurrogate rest
  else if high < 0xD800 ∨ 0xDBFF < high then pure (Char.ofNat high, rest)
  else
    let rest ← readSurrogateMark '\\' rest
    let rest ← readSurrogateMark 'u' rest
    let (low, rest) ← readHexCode rest
    if low < 0xDC00 ∨ 0xDFFF < low then stopAt .loneSurrogate rest
    else pure (Char.ofNat ((high - 0xD800) * 1024 + (low - 0xDC00) + 0x10000), rest)

def readEscape : Bytes → Except Stop (Char × Bytes)
  | [] => stopAt .endInString []
  | b :: rest =>
      if b = '"'.toUInt8 then .ok ('"', rest)
      else if b = '\\'.toUInt8 then .ok ('\\', rest)
      else if b = '/'.toUInt8 then .ok ('/', rest)
      else if b = 'b'.toUInt8 then .ok ('\x08', rest)
      else if b = 'f'.toUInt8 then .ok ('\x0c', rest)
      else if b = 'n'.toUInt8 then .ok ('\n', rest)
      else if b = 'r'.toUInt8 then .ok ('\r', rest)
      else if b = 't'.toUInt8 then .ok ('\t', rest)
      else if b = 'u'.toUInt8 then readCodeEscape rest
      else stopAt .invalidEscape rest

/-- Read the bytes of a string up to its closing quote, those before being `done`, last first. -/
def readStringBytes : Nat → Bytes → Bytes → Except Stop (Bytes × Bytes)
  | 0, _, bs => stopAt .endInString bs
  | _ + 1, _, [] => stopAt .endInString []
  | budget + 1, done, b :: rest =>
      if b = '"'.toUInt8 then .ok (done.reverse, b :: rest)
      else if b = '\\'.toUInt8 then do
        let (c, rest) ← readEscape rest
        readStringBytes budget ((Utf8.encodeChar c).reverse ++ done) rest
      else if b < 0x20 then stopAt .controlCharacter rest
      else readStringBytes budget (b :: done) rest

def readString (budget : Nat) (bs : Bytes) : Except Stop (String × Bytes) := do
  let (bytes, rest) ← readStringBytes budget [] bs
  match Utf8.decode? bytes with
  | some s => pure (s, rest.drop 1)
  | none => stopAt .invalidCodePoint rest

/-! ## Numerals -/

def digit? (b : UInt8) : Option Digit :=
  if h : 48 ≤ b.toNat ∧ b.toNat ≤ 57 then some ⟨b.toNat - 48, by omega⟩ else none

def spanDigits : Bytes → List Digit × Bytes
  | [] => ([], [])
  | b :: rest =>
      match digit? b with
      | some d => (d :: (spanDigits rest).1, (spanDigits rest).2)
      | none => ([], b :: rest)

def readWhole : Bytes → Except Stop ({ digits : Digits // digits.Canonical } × Bytes)
  | [] => stopAt .endInValue []
  | b :: rest =>
      match digit? b with
      | none => stopAt .invalidNumber rest
      | some d =>
          if h : d.val = 0 then
            match rest with
            | c :: _ =>
                if (digit? c).isSome then stopIn .invalidNumber rest
                else .ok (⟨⟨d, []⟩, fun _ => rfl⟩, rest)
            | [] => .ok (⟨⟨d, []⟩, fun _ => rfl⟩, [])
          else
            .ok (⟨⟨d, (spanDigits rest).1⟩, fun h' => absurd h' h⟩, (spanDigits rest).2)

def readFraction : Bytes → Except Stop (Option Digits × Bytes)
  | [] => .ok (none, [])
  | b :: rest =>
      if b = '.'.toUInt8 then
        match spanDigits rest with
        | (d :: ds, rest) => .ok (some ⟨d, ds⟩, rest)
        | ([], []) => stopIn .endInValue []
        | ([], rest) => stopIn .invalidNumber rest
      else .ok (none, b :: rest)

def readExponentSign : Bytes → Bool × Bytes
  | [] => (false, [])
  | b :: rest =>
      if b = '+'.toUInt8 then (false, rest)
      else if b = '-'.toUInt8 then (true, rest)
      else (false, b :: rest)

def readExponent : Bytes → Except Stop (Option Exponent × Bytes)
  | [] => .ok (none, [])
  | b :: rest =>
      if b = 'e'.toUInt8 ∨ b = 'E'.toUInt8 then
        match readExponentSign rest with
        | (_, []) => stopAt .endInValue []
        | (negative, c :: rest) =>
            match digit? c with
            | none => stopAt .invalidNumber rest
            | some d => .ok (some ⟨negative, ⟨d, (spanDigits rest).1⟩⟩, (spanDigits rest).2)
      else .ok (none, b :: rest)

def readNumeral (negative : Bool) (bs : Bytes) : Except Stop (Numeral × Bytes) := do
  let (whole, rest) ← readWhole bs
  let (fraction, rest) ← readFraction rest
  let (exponent, rest) ← readExponent rest
  pure (⟨negative, whole.val, fraction, exponent, whole.property⟩, rest)

/-- Read a numeral that has to be the whole text; what follows a fault is a fault of its own. -/
def readWholeNumeral (input : Bytes) : Except Stop Numeral :=
  let outcome : Except Stop (Numeral × Bytes) :=
    match input with
    | [] => stopIn .endInValue []
    | b :: rest =>
        if b = '-'.toUInt8 then readNumeral true rest
        else if (digit? b).isSome then readNumeral false (b :: rest)
        else stopIn .invalidNumber (b :: rest)
  match outcome with
  | .ok (n, []) => .ok n
  | .ok (_, rest) => stopIn .invalidNumber rest
  | .error stop => if stop.rest.isEmpty then .error stop else stopIn .invalidNumber stop.rest

def Numeral.ofText (s : String) : Except Cause Numeral :=
  let input := Utf8.encode s
  match readWholeNumeral input with
  | .ok n => .ok n
  | .error stop =>
      match stop.cause, (stop.fault input).place with
      | .grammar g, some place => .error (.carriedNumber g place)
      | cause, _ => .error cause

/-! ## Heads -/

inductive Scalar where
  | null
  | bool (b : Bool)
  | number (n : Numeral)
  | string (s : String)
  deriving Repr, DecidableEq

def Scalar.found : Scalar → Found
  | .null => .null
  | .bool b => .bool b
  | .number n =>
      match n.machine? with
      | some i => .integer i
      | none => .number
  | .string s => .string s

inductive Head where
  | scalar (s : Scalar)
  | list
  | object
  deriving Repr, DecidableEq

def readHead (budget : Nat) (bs : Bytes) : Except Stop (Head × Bytes) :=
  match skipBlanks bs with
  | [] => stopIn .endInValue []
  | b :: rest =>
      if b = 'n'.toUInt8 then do
        let rest ← readLiteral ['u', 'l', 'l'] rest
        pure (.scalar .null, rest)
      else if b = 't'.toUInt8 then do
        let rest ← readLiteral ['r', 'u', 'e'] rest
        pure (.scalar (.bool true), rest)
      else if b = 'f'.toUInt8 then do
        let rest ← readLiteral ['a', 'l', 's', 'e'] rest
        pure (.scalar (.bool false), rest)
      else if b = '-'.toUInt8 then do
        let (n, rest) ← readNumeral true rest
        pure (.scalar (.number n), rest)
      else if (digit? b).isSome then do
        let (n, rest) ← readNumeral false (b :: rest)
        pure (.scalar (.number n), rest)
      else if b = '"'.toUInt8 then do
        let (s, rest) ← readString budget rest
        pure (.scalar (.string s), rest)
      else if b = '['.toUInt8 then .ok (.list, rest)
      else if b = '\x7b'.toUInt8 then .ok (.object, rest)
      else stopIn .expectedValue (b :: rest)

/-- Stop at a value of another kind than the one asked for.  A container is not read. -/
def stopAtKind {α : Type} (budget : Nat) (expected : String) (bs : Bytes) : Except Stop α := do
  let bs := skipBlanks bs
  let (head, rest) ← readHead budget bs
  match head with
  | .scalar s => .error ⟨.mismatch (.kind s.found expected), rest, false⟩
  | .list => .error ⟨.mismatch (.kind .list expected), bs, false⟩
  | .object => .error ⟨.mismatch (.kind .mapping expected), bs, false⟩

end Json
end Cardsmith
