import Cardsmith.Engine.Message

/-!
# What the engine offers

The package views that every session asks for, and the named classes in them.
-/

namespace Cardsmith
namespace Engine

/-- The views of a session with their packages, in the order in which they are asked for. -/
def views : List (String × String) := [
    ("game", "net.demilich.metastone.game.*"),
    ("entities", "net.demilich.metastone.game.entities.*"),
    ("decks", "net.demilich.metastone.game.decks.*"),
    ("events", "net.demilich.metastone.game.events.*"),
    ("actions", "net.demilich.metastone.game.actions.*"),
    ("logic", "net.demilich.metastone.game.logic.*"),
    ("cards", "net.demilich.metastone.game.cards.*"),
    ("spells", "net.demilich.metastone.game.spells.*"),
    ("targeting", "net.demilich.metastone.game.targeting.*"),
    ("utils", "net.demilich.metastone.game.utils.*"),
    ("behaviour", "net.demilich.metastone.game.behaviour.*"),
    ("spellsource", "com.hiddenswitch.spellsource")
]

def fullNameView : String := "jvm"

structure Reference where
  name : String
  target : Target
  deriving Repr, DecidableEq

def references : List Reference := [
    ⟨"GameAction", "actions", "GameAction"⟩,
    ⟨"ActionType", "actions", "ActionType"⟩,
    ⟨"GameContext", "game", "GameContext"⟩,
    ⟨"GameEventType", "game", "events.GameEventType"⟩,
    ⟨"Card", "cards", "CardCatalogue"⟩,
    ⟨"CardCatalogue", "cards", "CardCatalogue"⟩,
    ⟨"Rarity", "cards", "Rarity"⟩,
    ⟨"CardType", "cards", "CardType"⟩,
    ⟨"CardSet", "cards", "CardSet"⟩,
    ⟨"Deck", "decks", "Deck"⟩,
    ⟨"Entity", "entities", "Entity"⟩,
    ⟨"Actor", "entities", "Actor"⟩,
    ⟨"EntityType", "entities", "EntityType"⟩,
    ⟨"Weapon", "entities", "weapons.Weapon"⟩,
    ⟨"Minion", "entities", "minions.Minion"⟩,
    ⟨"Hero", "entities", "heroes.Hero"⟩,
    ⟨"HeroClass", "entities", "heroes.HeroClass"⟩,
    ⟨"GameEvent", "events", "GameEvent"⟩,
    ⟨"Attribute", "utils", "Attribute"⟩,
    ⟨"GameLogic", "logic", "GameLogic"⟩,
    ⟨"Zones", "targeting", "Zones"⟩,
    ⟨"Spellsource", "spellsource", "Spellsource"⟩,
    ⟨"PythonBridge", fullNameView, "com.hiddenswitch.spellsource.applications.PythonBridge"⟩,
    ⟨"ArrayList", fullNameView, "java.util.ArrayList"⟩
]

def reference? (name : String) : Option Reference :=
  references.find? fun reference => reference.name = name

def cardLoader : Target × String := (⟨"cards", "CardCatalogue"⟩, "loadCardsFromPackage")

end Engine
end Cardsmith
