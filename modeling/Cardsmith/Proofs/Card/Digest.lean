import Cardsmith.Proofs.Card.RoundTrip
import Cardsmith.Proofs.Json.Unambiguous

/-!
# What texts and digests tell apart

Two cards have one canonical text only if they are the same card, order and digits included, and
one digest only if, besides, the hash collides on their texts.  In particular two fields that
change places anywhere inside a card change its digest.
-/

namespace Cardsmith

/-! ## Hexadecimal text -/

namespace Hex

theorem digit_inj {m n : Nat} (hm : m < 16) (hn : n < 16) (h : digit m = digit n) : m = n := by
  have hvalue := Json.value?_digit hm
  rw [h, Json.value?_digit hn] at hvalue
  exact (Option.some.inj hvalue).symm

theorem byte_inj {a b : UInt8} (h : byte a = byte b) : a = b := by
  have ha := a.toNat_lt
  have hb := b.toNat_lt
  simp only [byte, List.cons.injEq, and_true] at h
  have hhigh := digit_inj (by omega) (by omega) h.left
  have hlow := digit_inj (by omega) (by omega) h.right
  apply UInt8.toNat_inj.mp
  omega

theorem flatMap_byte_inj {a b : Bytes} (h : a.flatMap byte = b.flatMap byte) : a = b := by
  induction a generalizing b with
  | nil =>
      cases b with
      | nil => rfl
      | cons y b => cases h
  | cons x a ih =>
      cases b with
      | nil => cases h
      | cons y b =>
          rw [List.flatMap_cons, List.flatMap_cons] at h
          obtain ⟨hbyte, hrest⟩ := List.append_inj h rfl
          rw [byte_inj hbyte, ih hrest]

theorem text_inj {a b : Bytes} (h : text a = text b) : a = b :=
  flatMap_byte_inj (String.ofList_inj.mp h)

end Hex

/-- The hash does not collide on two messages. -/
def Sha256.NoCollision (a b : Bytes) : Prop := digest a = digest b → a = b

/-! ## Fields that change places -/

namespace Json

/-- Two fields of one mapping, somewhere in a value, have changed places. -/
inductive Value.Reordered : Value → Value → Prop where
  | here {before between after : Mapping} {first second : String × Value} :
      Reordered (.object (before ++ first :: (between ++ second :: after)))
        (.object (before ++ second :: (between ++ first :: after)))
  | field {before after : Mapping} {key : String} {v w : Value} :
      Reordered v w →
      Reordered (.object (before ++ (key, v) :: after)) (.object (before ++ (key, w) :: after))
  | item {before after : List Value} {v w : Value} :
      Reordered v w → Reordered (.array (before ++ v :: after)) (.array (before ++ w :: after))

theorem Value.Reordered.ne {v w : Value} (h : v.Reordered w) (hv : v.WellFormed) : v ≠ w := by
  induction h with
  | @here before between after first second =>
      intro heq
      obtain rfl := (List.cons.inj (List.append_cancel_left (Value.object.inj heq))).left
      have hdistinct : (Mapping.keys (before ++ first :: (between ++ first :: after))).Nodup :=
        hv.left
      rw [Mapping.keys, List.map_append, List.map_cons, List.map_append, List.map_cons] at hdistinct
      have hfirst := (List.nodup_cons.mp (List.nodup_append.mp hdistinct).right.left).left
      exact hfirst (List.mem_append_right _ List.mem_cons_self)
  | @field before after key v w _ ih =>
      intro heq
      have hsame := (List.cons.inj (List.append_cancel_left (Value.object.inj heq))).left
      have hvalue : v.WellFormed :=
        (Mapping.wellFormed_iff.mp hv).right (key, v) (List.mem_append_right _ List.mem_cons_self)
      exact ih hvalue (Prod.mk.inj hsame).right
  | @item before after v w _ ih =>
      intro heq
      have hitem : v.WellFormed :=
        itemsWellFormed_iff.mp hv v (List.mem_append_right _ List.mem_cons_self)
      exact ih hitem (List.cons.inj (List.append_cancel_left (Value.array.inj heq))).left

end Json

namespace Card

open Json

/-! ## Cards -/

theorem text_injective {a b : Card} (h : text a = text b) : a = b := by
  have hprint := String.ofList_inj.mp h
  exact Value.object.inj (Value.print_injective Layout.indented_spaced hprint)

theorem encode_text_injective {a b : Card} (h : Utf8.encode (text a) = Utf8.encode (text b)) :
    a = b := by
  have hdecoded := congrArg Utf8.decode? h
  rw [Utf8.encode, Utf8.encode, Utf8.decode?_encodeChars, Utf8.decode?_encodeChars,
    String.ofList_toList, String.ofList_toList] at hdecoded
  exact text_injective (Option.some.inj hdecoded)

/-- Cards have one text exactly if they are the same, and one digest exactly if they are the same
as long as the hash does not collide on their texts; then fields that change places anywhere
change the digest. -/
theorem texts_and_digests_tell_apart (a b : Card) :
    (text a = text b ↔ a = b) ∧
      (Sha256.NoCollision (Utf8.encode (text a)) (Utf8.encode (text b)) →
        (digest a = digest b ↔ a = b) ∧
          (Mapping.WellFormed a → (Value.object a).Reordered (.object b) →
            digest a ≠ digest b)) := by
  refine ⟨⟨text_injective, congrArg text⟩, ?_⟩
  intro hclear
  have hdigest : digest a = digest b ↔ a = b := by
    constructor
    · intro h
      exact encode_text_injective (hclear (Hex.text_inj h))
    · exact congrArg digest
  refine ⟨hdigest, ?_⟩
  intro hwell hreordered h
  exact hreordered.ne hwell (congrArg Value.object (hdigest.mp h))

def unguardedAgain : Card := [("a", .object [(reservedKey, .string "1"), ("b", .array [])])]

theorem guarded_told_from_unguardedAgain :
    Sha256.NoCollision (Utf8.encode (text guarded)) (Utf8.encode (text unguardedAgain)) ∧
      Mapping.WellFormed guarded ∧ (Value.object guarded).Reordered (.object unguardedAgain) ∧
      text guarded ≠ text unguardedAgain ∧ digest guarded ≠ digest unguardedAgain := by
  have hdigests : Sha256.digest (Utf8.encode (text guarded)) ≠
      Sha256.digest (Utf8.encode (text unguardedAgain)) := by decide +kernel
  have hclear : Sha256.NoCollision (Utf8.encode (text guarded))
      (Utf8.encode (text unguardedAgain)) := fun h => absurd h hdigests
  have hwell : Mapping.WellFormed guarded := derived_guarded.wellFormed
  have hreordered : (Value.object guarded).Reordered (.object unguardedAgain) :=
    @Value.Reordered.field [] [] "a" _ _ (@Value.Reordered.here [] [] [] _ _)
  have hapart := texts_and_digests_tell_apart guarded unguardedAgain
  refine ⟨hclear, hwell, hreordered, ?_, (hapart.right hclear).right hwell hreordered⟩
  intro h
  exact hreordered.ne hwell (congrArg Value.object (hapart.left.mp h))

end Card
end Cardsmith
