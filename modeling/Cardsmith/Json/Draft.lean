import Cardsmith.Json.Reader

/-!
# JSON trees as they were read

A draft is a JSON tree before anyone has said which shape it should have: repeated members are
still there, and of the numbers only machine integers stand for themselves, while every other
number travels as an object with one member, its text under the reserved key.
-/

namespace Cardsmith
namespace Json

/-- A JSON tree as it was read. -/
inductive Draft where
  | null
  | bool (b : Bool)
  | integer (i : Int)
  | string (s : String)
  | list (items : List Draft)
  | object (members : List (String × Draft))
  deriving Repr

namespace Draft

def found : Draft → Found
  | .null => .null
  | .bool b => .bool b
  | .integer i => .integer i
  | .string s => .string s
  | .list _ => .list
  | .object _ => .mapping

def ofNumeral (n : Numeral) : Draft :=
  match n.machine? with
  | some i => .integer i
  | none => .object [(reservedKey, .string n.text)]

def ofScalar : Scalar → Draft
  | .null => .null
  | .bool b => .bool b
  | .number n => ofNumeral n
  | .string s => .string s

/-! ## Reading -/

/-- Read a draft with at most `depth` brackets open at once. -/
def read (budget : Nat) : Nat → Bytes → Except Stop (Draft × Bytes)
  | 0, bs => do
      let (head, rest) ← readHead budget bs
      match head with
      | .scalar s => pure (ofScalar s, rest)
      | .list | .object => stopAt .nestingLimit rest
  | depth + 1, bs => do
      let (head, rest) ← readHead budget bs
      match head with
      | .scalar s => pure (ofScalar s, rest)
      | .list =>
          let (items, rest) ← readItems (read budget depth) budget true [] rest
          let rest ← endList rest
          pure (.list items, rest)
      | .object =>
          let (members, rest) ← readMembers budget (read budget depth) budget true [] rest
          let rest ← endObject rest
          pure (.object members, rest)

/-! ## As values -/

/-- The number that a draft carries as text, where its string is asked for. -/
def carriedNumber : Draft → Except Cause Numeral
  | .string s => Numeral.ofText s
  | draft => .error (.mismatch (.kind draft.found "string containing a number"))

def onlyOneMember (members : List (String × Draft)) : Except Cause Unit :=
  if members.length = 1 then .ok ()
  else .error (.mismatch (.size members.length "1 element in map"))

mutual

def toValue : Draft → Except Cause Value
  | .null => .ok .null
  | .bool b => .ok (.bool b)
  | .integer i => .ok (.number (Numeral.ofInt i))
  | .string s => .ok (.string s)
  | .list items =>
      match toValues items with
      | .ok values => .ok (.array values)
      | .error cause => .error cause
  | .object members =>
      match members with
      | [] => .ok (.object [])
      | (key, first) :: rest =>
          if key = reservedKey then
            match carriedNumber first with
            | .error cause => .error cause
            | .ok n =>
                match onlyOneMember ((key, first) :: rest) with
                | .error cause => .error cause
                | .ok () => .ok (.number n)
          else
            match toValue first with
            | .error cause => .error cause
            | .ok value =>
                match toFields rest with
                | .error cause => .error cause
                | .ok fields => .ok (.object (Mapping.ofMembers ((key, value) :: fields)))
termination_by structural draft => draft

def toValues : List Draft → Except Cause (List Value)
  | [] => .ok []
  | item :: rest =>
      match toValue item with
      | .error cause => .error cause
      | .ok value =>
          match toValues rest with
          | .error cause => .error cause
          | .ok values => .ok (value :: values)
termination_by structural items => items

def toFields : List (String × Draft) → Except Cause (List (String × Value))
  | [] => .ok []
  | (key, item) :: rest =>
      match toValue item with
      | .error cause => .error cause
      | .ok value =>
          match toFields rest with
          | .error cause => .error cause
          | .ok fields => .ok ((key, value) :: fields)
termination_by structural members => members

end

end Draft

end Json
end Cardsmith
