import Cardsmith.Card.Basic

/-!
# Hero classes

The classes that cards belong to, each with the colour of its cards.
-/

namespace Cardsmith

inductive HeroClass where
  | druid
  | hunter
  | mage
  | paladin
  | priest
  | rogue
  | shaman
  | warlock
  | warrior
  | deathKnight
  | neutral
  | dream
  deriving Repr, DecidableEq

namespace HeroClass

open Card Json

def all : List HeroClass :=
  [.druid, .hunter, .mage, .paladin, .priest, .rogue, .shaman, .warlock, .warrior, .deathKnight,
    .neutral, .dream]

def name : HeroClass → String
  | .druid => "DRUID"
  | .hunter => "HUNTER"
  | .mage => "MAGE"
  | .paladin => "PALADIN"
  | .priest => "PRIEST"
  | .rogue => "ROGUE"
  | .shaman => "SHAMAN"
  | .warlock => "WARLOCK"
  | .warrior => "WARRIOR"
  | .deathKnight => "DEATHKNIGHT"
  | .neutral => "NEUTRAL"
  | .dream => "DREAM"

def color : HeroClass → String
  | .druid => "BROWN"
  | .hunter => "GREEN"
  | .mage => "BLUE"
  | .paladin => "GOLD"
  | .priest => "WHITE"
  | .rogue => "BLACK"
  | .shaman => "SILVER"
  | .warlock => "VIOLET"
  | .warrior => "RED"
  | .deathKnight => "SPIRIT"
  | .neutral => "ANY"
  | .dream => "ANY"

def names : List String := all.map name

def ofName? (s : String) : Option HeroClass := all.find? fun c => c.name = s

def ofName (s : String) : Except Card.Fault HeroClass :=
  match ofName? s with
  | some c => .ok c
  | none => .error (.unknownClass s)

def colorOf? (s : String) : Option String := (ofName? s).map color

/-! ## As JSON -/

def toValue (c : HeroClass) : Value := .string c.name

def readName (budget : Nat) (bs : Bytes) : Except Stop (HeroClass × Bytes) := do
  let (s, rest) ← readString budget bs
  match ofName? s with
  | some c => pure (c, rest)
  | none => .error ⟨.mismatch (.unknownVariant s names), rest, false⟩

def readNothing (budget : Nat) (bs : Bytes) : Except Stop Bytes := do
  let (head, rest) ← readHead budget bs
  match head with
  | .scalar .null => pure rest
  | _ => stopAtKind budget "unit" bs

/-- Read a class: its name, or an object with one member of that name, whose value is null. -/
def read (budget : Nat) (bs : Bytes) : Except Stop (HeroClass × Bytes) :=
  match skipBlanks bs with
  | [] => stopIn .endInValue []
  | b :: rest =>
      if b = '"'.toUInt8 then readName budget rest
      else if b = '\x7b'.toUInt8 then
        match skipBlanks rest with
        | [] => stopIn .endInValue []
        | q :: rest =>
            if q = '"'.toUInt8 then do
              let (c, rest) ← readName budget rest
              let rest ← readColon rest
              let rest ← readNothing budget rest
              match skipBlanks rest with
              | [] => stopAt .endInObject []
              | e :: rest =>
                  if e = '\x7d'.toUInt8 then pure (c, rest) else stopAt .expectedValue (e :: rest)
            else stopAtKind budget "variant identifier" (q :: rest)
      else stopIn .expectedValue (b :: rest)

def ofText (text : String) : Except Card.Fault HeroClass :=
  match readAll read (Utf8.encode text) with
  | .ok c => .ok c
  | .error fault => .error (.malformed fault)

end HeroClass
end Cardsmith
