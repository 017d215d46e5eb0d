import Cardsmith.Card.Basic

/-!
# Paths inside a card

A path leads from a mapping to a mapping nested in it, by fields and by elements of arrays under
fields.  `resolve?` finds the mapping at a path; `editAt?` runs an edit on it in place and leaves
everything beside the path as it is.
-/

namespace Cardsmith
namespace Card

open Json

/-- One step from a mapping to a mapping nested in it. -/
inductive Step where
  | field (key : String)
  | element (key : String) (index : Nat)
  deriving Repr, DecidableEq

def Step.key : Step → String
  | .field key => key
  | .element key _ => key

/-- Steps from a mapping inwards; the empty path stays at the mapping. -/
abbrev Path := List Step

/-! ## Text -/

def escapeKey (key : String) : List Char :=
  key.toList.flatMap fun c =>
    if c = '~' then ['~', '0'] else if c = '/' then ['~', '1'] else [c]

/-- The characters of a step: a slash in front of each of its tokens. -/
def Step.chars : Step → List Char
  | .field key => '/' :: escapeKey key
  | .element key index => '/' :: escapeKey key ++ '/' :: Nat.toDigits 10 index

namespace Path

def pointer (path : Path) : String := String.ofList (path.flatMap Step.chars)

def lastKey? (path : Path) : Option String := path.getLast?.map Step.key

end Path

/-! ## Finding -/

def Step.resolve? (node : Mapping) : Step → Option Mapping
  | .field key =>
      match node.get? key with
      | some (.object child) => some child
      | _ => none
  | .element key index =>
      match node.get? key with
      | some (.array items) =>
          match items[index]? with
          | some (.object child) => some child
          | _ => none
      | _ => none

def resolve? (node : Mapping) : Path → Option Mapping
  | [] => some node
  | step :: rest => (step.resolve? node).bind fun child => resolve? child rest

@[simp] theorem resolve?_nil (node : Mapping) : resolve? node [] = some node := rfl

theorem resolve?_cons (node : Mapping) (step : Step) (rest : Path) :
    resolve? node (step :: rest) = (step.resolve? node).bind fun child => resolve? child rest :=
  rfl

theorem resolve?_append (node : Mapping) (p q : Path) :
    resolve? node (p ++ q) = (resolve? node p).bind fun child => resolve? child q := by
  induction p generalizing node with
  | nil => rfl
  | cons step rest ih =>
      simp only [List.cons_append, resolve?_cons, Option.bind_assoc]
      congr 1
      funext child
      exact ih child

/-! ## Editing in place -/

def editObject? {α : Type} (edit : Mapping → Option (α × Mapping)) : Value → Option (α × Value)
  | .object fields => (edit fields).map fun (a, fields) => (a, .object fields)
  | _ => none

def editItem? {α : Type} (edit : Value → Option (α × Value)) :
    Nat → List Value → Option (α × List Value)
  | _, [] => none
  | 0, item :: rest => (edit item).map fun (a, item) => (a, item :: rest)
  | index + 1, item :: rest =>
      (editItem? edit index rest).map fun (a, rest) => (a, item :: rest)

def editField? {α : Type} (edit : Value → Option (α × Value)) (key : String) :
    Mapping → Option (α × Mapping)
  | [] => none
  | (k, v) :: rest =>
      if k = key then (edit v).map fun (a, v) => (a, (k, v) :: rest)
      else (editField? edit key rest).map fun (a, rest) => (a, (k, v) :: rest)

def Step.edit? {α : Type} (edit : Mapping → Option (α × Mapping)) (node : Mapping) :
    Step → Option (α × Mapping)
  | .field key => editField? (editObject? edit) key node
  | .element key index =>
      editField?
        (fun value =>
          match value with
          | .array items =>
              (editItem? (editObject? edit) index items).map fun (a, items) => (a, .array items)
          | _ => none)
        key node

/-- Run an edit on the mapping at a path, if there is one; what the edit gives besides the
edited mapping is handed on. -/
def editAt? {α : Type} (edit : Mapping → α × Mapping) : Path → Mapping → Option (α × Mapping)
  | [], node => some (edit node)
  | step :: rest, node => step.edit? (editAt? edit rest) node

end Card
end Cardsmith
