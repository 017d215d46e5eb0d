import Cardsmith.Engine.Message
import Cardsmith.Json.Record

/-!
# Envelopes

A message as it is first read: its kind, and everything else as drafts.  The kind may stand at
any place among the members of an object, or be the first item of a list.
-/

namespace Cardsmith
namespace Engine

open Json

inductive Body where
  | members (members : List (String × Draft))
  | items (items : List Draft)
  deriving Repr

structure Envelope where
  kind : Kind
  body : Body
  deriving Repr

namespace Envelope

def kindKey : String := "Type"

def readKind (budget : Nat) (bs : Bytes) : Except Stop (Kind × Bytes) := do
  let (head, rest) ← readHead budget bs
  match head with
  | .scalar (.string s) =>
      match Kind.ofName? s with
      | some kind => pure (kind, rest)
      | none => .error ⟨.mismatch (.unknownVariant s Kind.names), rest, false⟩
  | _ => stopAtKind budget "variant identifier" bs

/-- The bytes left once a container has been closed as far as it can be. -/
def afterEnd (bracket : Char) (bs : Bytes) : Bytes :=
  match skipBlanks bs with
  | [] => []
  | b :: rest => if b = bracket.toUInt8 then rest else b :: rest

def stopAfterEnd {α : Type} (bracket : Char) (mismatch : Mismatch) (bs : Bytes) : Except Stop α :=
  .error ⟨.mismatch mismatch, afterEnd bracket bs, false⟩

/-- Read the members up to the closing bracket: the kind if it is there, and the others in
order, those before being `done`, last first. -/
def readMembers (keyBudget : Nat) (item : Bytes → Except Stop (Draft × Bytes)) :
    Nat → Bool → Option Kind → List (String × Draft) → Bytes →
      Except Stop ((Option Kind × List (String × Draft)) × Bytes)
  | 0, _, _, _, bs => stopIn .endInObject bs
  | budget + 1, first, kind?, done, bs => do
      let (key?, bs) ← nextKey keyBudget first bs
      match key? with
      | none => pure ((kind?, done.reverse), bs)
      | some key =>
          if key = kindKey then
            match kind? with
            | some _ => stopAfterEnd '\x7d' (.repeatedField kindKey) bs
            | none =>
                let bs ← readColon bs
                let (kind, bs) ← readKind keyBudget bs
                readMembers keyBudget item budget false (some kind) done bs
          else
            let bs ← readColon bs
            let (draft, bs) ← item bs
            readMembers keyBudget item budget false kind? ((key, draft) :: done) bs

def readObject (budget : Nat) (bs : Bytes) : Except Stop (Envelope × Bytes) := do
  let ((kind?, members), bs) ←
    readMembers budget (Draft.read budget (nestingLimit - 1)) budget true none [] bs
  match kind? with
  | none => stopAfterEnd '\x7d' (.missingField kindKey) bs
  | some kind =>
      let bs ← endObject bs
      pure (⟨kind, .members members⟩, bs)

def readList (budget : Nat) (bs : Bytes) : Except Stop (Envelope × Bytes) := do
  let (more, bs) ← nextItem true bs
  if more then
    let (kind, bs) ← readKind budget bs
    let (items, bs) ← readItems (Draft.read budget (nestingLimit - 1)) budget false [] bs
    let bs ← endList bs
    pure (⟨kind, .items items⟩, bs)
  else stopAfterEnd ']' (.missingField kindKey) bs

/-- The mismatch of a value without parts that stands where an envelope is read.  A number that
is no machine integer is taken for an object without a kind. -/
def scalarMismatch (s : Scalar) : Mismatch :=
  match s.found with
  | .number => .missingField kindKey
  | found => .kind found "internally tagged enum EngineMessage"

def read (budget : Nat) (bs : Bytes) : Except Stop (Envelope × Bytes) := do
  let (head, rest) ← readHead budget bs
  match head with
  | .object => readObject budget rest
  | .list => readList budget rest
  | .scalar s => .error ⟨.mismatch (scalarMismatch s), rest, false⟩

end Envelope

end Engine
end Cardsmith
