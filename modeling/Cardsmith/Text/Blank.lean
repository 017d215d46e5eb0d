import Cardsmith.Text.CodeRange

/-!
# Blanks around a text

The property White_Space of the Unicode standard, and trimming by it.
-/

namespace Cardsmith
namespace Text

/-- Codes of the property White_Space. -/
def blankRanges : CodeRanges := [
    (0x9, 0xD), (0x20, 0x20), (0x85, 0x85), (0xA0, 0xA0), (0x1680, 0x1680), (0x2000, 0x200A),
    (0x2028, 0x2029), (0x202F, 0x202F), (0x205F, 0x205F), (0x3000, 0x3000)
]

def isBlank (c : Char) : Bool := blankRanges.has c.toNat

def trimBlanks (chars : List Char) : List Char :=
  ((chars.dropWhile isBlank).reverse.dropWhile isBlank).reverse

end Text
end Cardsmith
