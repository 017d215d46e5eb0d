import Cardsmith.Bytes.Hex
import Cardsmith.Json.Value

/-!
# Writing JSON

One printer for both written forms.  A layout says what stands between the parts of a container
and after a key: the compact form puts nothing there, the indented form a line break with two
spaces a level, and a space after the colon.  Empty containers are a pair of brackets in both.
-/

namespace Cardsmith
namespace Json

/-! ## Strings -/

def escapeChar (c : Char) : List Char :=
  if c = '"' then ['\\', '"']
  else if c = '\\' then ['\\', '\\']
  else if c = '\x08' then ['\\', 'b']
  else if c = '\t' then ['\\', 't']
  else if c = '\n' then ['\\', 'n']
  else if c = '\x0c' then ['\\', 'f']
  else if c = '\r' then ['\\', 'r']
  else if c.toNat < 0x20 then
    ['\\', 'u', '0', '0', Hex.digit (c.toNat / 16), Hex.digit (c.toNat % 16)]
  else [c]

def stringChars (s : String) : List Char := '"' :: s.toList.flatMap escapeChar ++ ['"']

/-! ## Values -/

/-- What a written form puts between the parts of a container. -/
structure Layout where
  /-- What stands in front of each part and of the closing bracket, by depth. -/
  line : Nat → List Char
  colon : List Char

def Layout.compact : Layout := ⟨fun _ => [], [':']⟩

def Layout.indented : Layout := ⟨fun depth => '\n' :: List.replicate (2 * depth) ' ', [':', ' ']⟩

mutual

/-- The characters of a value whose brackets stand at a depth. -/
def Value.print (layout : Layout) : Nat → Value → List Char
  | _, .null => "null".toList
  | _, .bool true => "true".toList
  | _, .bool false => "false".toList
  | _, .number n => n.chars
  | _, .string s => stringChars s
  | _, .array [] => ['[', ']']
  | depth, .array (item :: rest) =>
      '[' :: layout.line (depth + 1) ++ item.print layout (depth + 1) ++
        printItems layout (depth + 1) rest ++ layout.line depth ++ [']']
  | _, .object [] => ['\x7b', '\x7d']
  | depth, .object ((key, v) :: rest) =>
      '\x7b' :: layout.line (depth + 1) ++ stringChars key ++ layout.colon ++
        v.print layout (depth + 1) ++ printFields layout (depth + 1) rest ++
        layout.line depth ++ ['\x7d']
termination_by structural _ v => v

def printItems (layout : Layout) : Nat → List Value → List Char
  | _, [] => []
  | depth, item :: rest =>
      ',' :: layout.line depth ++ item.print layout depth ++ printItems layout depth rest
termination_by structural _ items => items

def printFields (layout : Layout) : Nat → List (String × Value) → List Char
  | _, [] => []
  | depth, (key, v) :: rest =>
      ',' :: layout.line depth ++ stringChars key ++ layout.colon ++ v.print layout depth ++
        printFields layout depth rest
termination_by structural _ fields => fields

end

def Value.compact (v : Value) : String := String.ofList (v.print .compact 0)

def Value.indented (v : Value) : String := String.ofList (v.print .indented 0)

end Json
end Cardsmith
