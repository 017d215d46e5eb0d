import Cardsmith.Card.Rule
import Cardsmith.Proofs.Card.Editing
import Cardsmith.Proofs.Json.Reading

/-!
# Written cards read back

Both written forms of a card are read back as that card exactly when the card is admitted.  A card
that was read is; edits keep a card well-formed, but they can nest it too deep or leave the
reserved key first in one of its mappings.
-/

namespace Cardsmith
namespace Card

open Json

/-! ## Admitted cards -/

theorem ofText_eq_ok {source : String} {card : Card} :
    ofText source = .ok card ↔ Value.ofText source = .ok (.object card) := by
  unfold ofText
  cases hvalue : Value.ofText source with
  | error fault => simp
  | ok value => cases value <;> simp

theorem admitted_of_ofText {source : String} {card : Card} (h : ofText source = .ok card) :
    (Value.object card).Admitted nestingLimit :=
  Value.admitted_of_ofBytes (ofText_eq_ok.mp h)

/-- A written form is read back as the card exactly if the card is admitted. -/
theorem ofText_print {layout : Layout} (hlayout : layout.Spaced) (card : Card) :
    ofText (String.ofList ((Value.object card).print layout 0)) = .ok card ↔
      (Value.object card).Admitted nestingLimit := by
  constructor
  · exact admitted_of_ofText
  · intro h
    rw [ofText_eq_ok, Value.ofText, Utf8.encode, String.toList_ofList]
    exact Value.ofBytes_print hlayout h

theorem ofText_text (card : Card) :
    ofText (text card) = .ok card ↔ (Value.object card).Admitted nestingLimit :=
  ofText_print Layout.indented_spaced card

theorem ofText_compact (card : Card) :
    ofText (compact card) = .ok card ↔ (Value.object card).Admitted nestingLimit :=
  ofText_print Layout.compact_spaced card

/-! ## Edited cards -/

/-- Whether the value that a change puts in, if any, is one that a text stands for. -/
def Edit.FromText : Edit → Prop
  | .set _ value => ∃ source, Value.ofText source = .ok value
  | .remove _ | .clear => True

/-- The cards that come from reading a text and then making changes anywhere inside. -/
inductive Derived : Card → Prop where
  | read {source : String} {card : Card} (h : ofText source = .ok card) : Derived card
  | edit {card changed : Card} {edit : Edit} {path : Path} {old : Option Value}
      (hcard : Derived card) (hedit : edit.FromText)
      (h : edit.at? path card = some (old, changed)) : Derived changed
  | reorder {card changed : Card} {order : Mapping → Mapping} {path : Path}
      (hcard : Derived card) (horder : ∀ node, (order node).Perm node)
      (h : editAt? (fun node => ((), order node)) path card = some ((), changed)) :
      Derived changed

theorem Edit.apply_wellFormed {edit : Edit} (hedit : edit.FromText) {node : Mapping}
    (h : Mapping.WellFormed node) : Mapping.WellFormed (edit.apply node) := by
  cases edit with
  | set key value =>
      rcases hedit with ⟨source, hsource⟩
      exact h.insert key (Value.admitted_of_ofBytes hsource).wellFormed
  | remove key => exact h.remove key
  | clear => exact Mapping.wellFormed_nil

theorem editAt?_wellFormed {α : Type} {change : Mapping → α × Mapping}
    (hchange : ∀ node, Mapping.WellFormed node → Mapping.WellFormed (change node).2)
    {path : Path} {card changed : Card} {old : α} (hcard : Mapping.WellFormed card)
    (h : editAt? change path card = some (old, changed)) : Mapping.WellFormed changed := by
  rw [editAt?_eq] at h
  cases hfound : resolve? card path with
  | none =>
      rw [hfound] at h
      cases h
  | some found =>
      rw [hfound] at h
      cases h
      exact put_wellFormed hcard (hchange found (resolve?_wellFormed hcard hfound)) path

theorem Derived.wellFormed {card : Card} (h : Derived card) : Mapping.WellFormed card := by
  induction h with
  | read h => exact (admitted_of_ofText h).wellFormed
  | edit _ hedit h ih => exact editAt?_wellFormed (fun _ => Edit.apply_wellFormed hedit) ih h
  | reorder _ horder h ih =>
      exact editAt?_wellFormed (fun node hnode => hnode.perm (horder node)) ih h

/-! ## Reading back -/

def reread (written : String) : Except Fault (Card × String) :=
  (ofText written).map fun back => (back, digest back)

theorem reread_eq_ok {written : String} {card : Card} :
    reread written = .ok (card, digest card) ↔ ofText written = .ok card := by
  unfold reread
  cases hback : ofText written with
  | error fault => simp [Except.map]
  | ok back =>
      simp only [Except.map, Except.ok.injEq, Prod.mk.injEq]
      constructor
      · exact And.left
      · rintro rfl
        exact ⟨rfl, rfl⟩

theorem admitted_iff {card : Card} (h : Mapping.WellFormed card) :
    (Value.object card).Admitted nestingLimit ↔
      (Value.object card).depth < 128 ∧ (Value.object card).Unreserved := by
  constructor
  · rintro ⟨_, hunreserved, hdepth⟩
    exact ⟨Nat.lt_succ_of_le hdepth, hunreserved⟩
  · rintro ⟨hdepth, hunreserved⟩
    exact ⟨h, hunreserved, Nat.le_of_lt_succ hdepth⟩

/-- Both written forms of an edited card give the card and its digest back exactly if the card
nests fewer than 128 levels and the reserved key is first in none of its mappings; those of a
card that was just read always do. -/
theorem reread_derived_iff {card : Card} (h : Derived card) :
    (reread (text card) = .ok (card, digest card) ↔
        (Value.object card).depth < 128 ∧ (Value.object card).Unreserved) ∧
      (reread (compact card) = .ok (card, digest card) ↔
        (Value.object card).depth < 128 ∧ (Value.object card).Unreserved) ∧
      ∀ source, ofText source = .ok card →
        reread (text card) = .ok (card, digest card) ∧
          reread (compact card) = .ok (card, digest card) := by
  have hadmitted := admitted_iff h.wellFormed
  refine ⟨?_, ?_, ?_⟩
  · rw [reread_eq_ok, ofText_text, hadmitted]
  · rw [reread_eq_ok, ofText_compact, hadmitted]
  · intro source hsource
    have hcard := admitted_of_ofText hsource
    exact ⟨reread_eq_ok.mpr ((ofText_text card).mpr hcard),
      reread_eq_ok.mpr ((ofText_compact card).mpr hcard)⟩

/-- A card with the reserved key in a mapping, after another key. -/
def guarded : Card := [("a", .object [("b", .array []), (reservedKey, .string "1")])]

def unguarded : Card := [("a", .object [(reservedKey, .string "1")])]

theorem derived_guarded : Derived guarded := by
  have hread : ofText "\x7b\"a\":\x7b\"b\":[]\x7d\x7d" =
      .ok [("a", .object [("b", .array [])])] := rfl
  have hvalue : (Edit.set reservedKey (.string "1")).FromText := ⟨"\"1\"", rfl⟩
  have hedit : (Edit.set reservedKey (.string "1")).at? [.field "a"]
      [("a", .object [("b", .array [])])] = some (none, guarded) := rfl
  exact .edit (.read hread) hvalue hedit

theorem derived_unguarded : Derived unguarded := by
  have hedit : (Edit.remove "b").at? [.field "a"] guarded =
      some (some (.array []), unguarded) := rfl
  have hremoval : (Edit.remove "b").FromText := trivial
  exact .edit derived_guarded hremoval hedit

theorem reread_guarded_not_unguarded :
    reread (text guarded) = .ok (guarded, digest guarded) ∧
      reread (compact unguarded) ≠ .ok (unguarded, digest unguarded) := by
  constructor
  · refine (reread_derived_iff derived_guarded).left.mpr ⟨by decide, ?_⟩
    simp [guarded, Value.Unreserved, FieldsUnreserved, ItemsUnreserved, Mapping.keys, reservedKey]
  · intro hread
    have hunreserved := ((reread_derived_iff derived_unguarded).right.left.mp hread).right
    simp [unguarded, Value.Unreserved, FieldsUnreserved, Mapping.keys] at hunreserved

end Card
end Cardsmith
