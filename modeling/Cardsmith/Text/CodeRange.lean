/-!
# Sets of characters given by code ranges

A character property of the Unicode standard is a set of code points.  This module holds the
shape such a set is written in, a list of inclusive ranges, and membership in it.
-/

namespace Cardsmith
namespace Text

/-- A set of code points as inclusive ranges, each with its first and its last code. -/
abbrev CodeRanges := List (Nat × Nat)

namespace CodeRanges

def has (ranges : CodeRanges) (code : Nat) : Bool :=
  ranges.any fun range => range.1 <= code && code <= range.2

end CodeRanges

end Text
end Cardsmith
