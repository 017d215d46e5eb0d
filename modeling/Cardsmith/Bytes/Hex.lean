import Cardsmith.Bytes.Utf8

/-!
# Hexadecimal text

Digits of base sixteen and the text of a byte sequence, two digits a byte.
-/

namespace Cardsmith
namespace Hex

def digit (n : Nat) : Char :=
  if n < 10 then Char.ofNat (48 + n) else Char.ofNat (87 + n)

def value? (b : UInt8) : Option Nat :=
  let n := b.toNat
  if 48 <= n && n <= 57 then some (n - 48)
  else if 97 <= n && n <= 102 then some (n - 87)
  else if 65 <= n && n <= 70 then some (n - 55)
  else none

def byte (b : UInt8) : List Char := [digit (b.toNat / 16), digit (b.toNat % 16)]

def text (bytes : Bytes) : String := String.ofList (bytes.flatMap byte)

end Hex
end Cardsmith
