/-!
# Texts as bytes

UTF-8 in both directions.  Encoding lists the bytes of a text; decoding gives the text back or
tells where the bytes stop being one: the offset of the first byte that starts no character and
how many bytes are at fault there, or that the bytes end inside a character.
-/

namespace Cardsmith

abbrev Bytes := List UInt8

namespace Utf8

/-! ## Encoding -/

def encodeChar (c : Char) : Bytes :=
  let n := c.toNat
  if n < 0x80 then [UInt8.ofNat n]
  else if n < 0x800 then [UInt8.ofNat (0xC0 + n / 64), UInt8.ofNat (0x80 + n % 64)]
  else if n < 0x10000 then
    [UInt8.ofNat (0xE0 + n / 4096), UInt8.ofNat (0x80 + n / 64 % 64), UInt8.ofNat (0x80 + n % 64)]
  else
    [UInt8.ofNat (0xF0 + n / 262144), UInt8.ofNat (0x80 + n / 4096 % 64),
      UInt8.ofNat (0x80 + n / 64 % 64), UInt8.ofNat (0x80 + n % 64)]

def encodeChars (chars : List Char) : Bytes := chars.flatMap encodeChar

def encode (text : String) : Bytes := encodeChars text.toList

@[simp] theorem encodeChars_nil : encodeChars [] = [] := rfl

theorem encodeChars_cons (c : Char) (rest : List Char) :
    encodeChars (c :: rest) = encodeChar c ++ encodeChars rest := by
  simp [encodeChars]

theorem encodeChars_append (a b : List Char) :
    encodeChars (a ++ b) = encodeChars a ++ encodeChars b := by
  simp [encodeChars, List.flatMap_append]

/-! ## Decoding -/

/-- Where and how bytes stop being a text. -/
structure Fault where
  offset : Nat
  /-- How many bytes are at fault, or nothing if the bytes end inside a character. -/
  length : Option Nat
  deriving Repr, DecidableEq

inductive Start where
  | char (c : Char) (more : Nat)
  | invalid (length : Nat)
  | cut

def isContinuation (b : UInt8) : Bool := 0x80 <= b.toNat && b.toNat < 0xC0

/-- The smallest and the largest second byte allowed after a first byte. -/
def secondBounds (first : Nat) : Nat × Nat :=
  if first = 0xE0 then (0xA0, 0xBF)
  else if first = 0xED then (0x80, 0x9F)
  else if first = 0xF0 then (0x90, 0xBF)
  else if first = 0xF4 then (0x80, 0x8F)
  else (0x80, 0xBF)

def isSecond (first : Nat) (b : UInt8) : Bool :=
  (secondBounds first).1 <= b.toNat && b.toNat <= (secondBounds first).2

def start (first : UInt8) (rest : Bytes) : Start :=
  let n := first.toNat
  if n < 0x80 then .char (Char.ofNat n) 0
  else if n < 0xC2 then .invalid 1
  else if n < 0xE0 then
    match rest with
    | [] => .cut
    | b :: _ =>
        if isSecond n b then .char (Char.ofNat ((n - 0xC0) * 64 + (b.toNat - 0x80))) 1
        else .invalid 1
  else if n < 0xF0 then
    match rest with
    | [] => .cut
    | b :: more =>
        if isSecond n b then
          match more with
          | [] => .cut
          | d :: _ =>
              if isContinuation d then
                .char (Char.ofNat
                  ((n - 0xE0) * 4096 + (b.toNat - 0x80) * 64 + (d.toNat - 0x80))) 2
              else .invalid 2
        else .invalid 1
  else if n < 0xF5 then
    match rest with
    | [] => .cut
    | b :: more =>
        if isSecond n b then
          match more with
          | [] => .cut
          | d :: most =>
              if isContinuation d then
                match most with
                | [] => .cut
                | e :: _ =>
                    if isContinuation e then
                      .char (Char.ofNat ((n - 0xF0) * 262144 + (b.toNat - 0x80) * 4096 +
                        (d.toNat - 0x80) * 64 + (e.toNat - 0x80))) 3
                    else .invalid 3
              else .invalid 2
        else .invalid 1
  else .invalid 1

/-- Decode bytes after `offset` bytes of text, `skip` of them belonging to the last character,
the characters so far being `done`, last one first. -/
def decodeFrom (offset : Nat) (done : List Char) : Nat → Bytes → Except Fault (List Char)
  | _, [] => .ok done.reverse
  | skip + 1, _ :: rest => decodeFrom (offset + 1) done skip rest
  | 0, b :: rest =>
      match start b rest with
      | .char c more => decodeFrom (offset + 1) (c :: done) more rest
      | .invalid length => .error ⟨offset, some length⟩
      | .cut => .error ⟨offset, none⟩

def decodeChars (bytes : Bytes) : Except Fault (List Char) := decodeFrom 0 [] 0 bytes

def decode (bytes : Bytes) : Except Fault String := (decodeChars bytes).map String.ofList

def decode? (bytes : Bytes) : Option String := (decode bytes).toOption

def Fault.message (fault : Fault) : String :=
  match fault.length with
  | some length => s!"invalid utf-8 sequence of {length} bytes from index {fault.offset}"
  | none => s!"incomplete utf-8 byte sequence from index {fault.offset}"

end Utf8
end Cardsmith
