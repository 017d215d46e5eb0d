import Cardsmith.Json.Draft

/-!
# Records

Objects, or lists, whose parts are known by name or by place.  A field of a record is read where
it stands and may stand there once; members of other names are passed over.  In a list the parts
come in the order of the fields.
-/

namespace Cardsmith
namespace Json
namespace Record

/-! ## Values of fields -/

def string : Draft → Except Cause String
  | .string s => .ok s
  | draft => .error (.mismatch (.kind draft.found "a string"))

def values : Draft → Except Cause (List Value)
  | .list items => Draft.toValues items
  | draft => .error (.mismatch (.kind draft.found "a sequence"))

/-! ## By name -/

/-- What to do with a member: nothing if its name is not known, or else to read it into the
fields read so far. -/
abbrev Accept (σ : Type) := String → Draft → σ → Option (Except Cause σ)

def field {α : Type} (name : String) (read : Draft → Except Cause α) : Accept (Option α) :=
  fun key draft slot =>
    if key = name then
      some (match slot with
        | some _ => .error (.mismatch (.repeatedField name))
        | none => (read draft).map some)
    else none

def both {σ τ : Type} (a : Accept σ) (b : Accept τ) : Accept (σ × τ) :=
  fun key draft (s, t) =>
    match a key draft s with
    | some outcome => some (outcome.map fun s => (s, t))
    | none => (b key draft t).map fun outcome => outcome.map fun t => (s, t)

def readMembers {σ : Type} (accept : Accept σ) : σ → List (String × Draft) → Except Cause σ
  | state, [] => .ok state
  | state, (key, draft) :: rest =>
      match accept key draft state with
      | none => readMembers accept state rest
      | some (.ok state) => readMembers accept state rest
      | some (.error cause) => .error cause

def required {α : Type} (name : String) : Option α → Except Cause α
  | some a => .ok a
  | none => .error (.mismatch (.missingField name))

/-! ## By place -/

/-- Read the part at the front of a list that has to have one more; `place` parts were before
it. -/
def nextPart {α : Type} (expected : String) (read : Draft → Except Cause α) (place : Nat) :
    List Draft → Except Cause (α × List Draft)
  | [] => .error (.mismatch (.size place expected))
  | draft :: rest => (read draft).map fun a => (a, rest)

def nextPartOr {α : Type} (default : α) (read : Draft → Except Cause α) :
    List Draft → Except Cause (α × List Draft)
  | [] => .ok (default, [])
  | draft :: rest => (read draft).map fun a => (a, rest)

def partsText (count : Nat) : String :=
  if count = 1 then "1 element in sequence" else s!"{count} elements in sequence"

def endParts (count : Nat) (rest : List Draft) : Except Cause Unit :=
  if rest.isEmpty then .ok ()
  else .error (.mismatch (.size (count + rest.length) (partsText count)))

end Record
end Json
end Cardsmith
