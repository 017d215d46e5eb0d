import Cardsmith.Proofs.Engine.Rearranged

/-!
# Error codes

The code of an error may be any number literal in the text: a numeral in one of its spellings.  The
error is read exactly if the literal is an integer of 32 bits, and then its code is that integer.
-/

namespace Cardsmith
namespace Engine

open Json Utf8

theorem Message.ofMembers_error_iff {draft : Draft} {text : String} {m : Message} :
    Message.ofMembers [("Code", draft), ("Message", .string text)] .error = .ok m ↔
      ∃ code, errorCode draft = .ok code ∧ m = .error code text := by
  have htext : Record.string (.string text) = .ok text := rfl
  cases hcode : errorCode draft with
  | error cause =>
      simp [Message.ofMembers, Record.readMembers, Record.field, Record.both, hcode, bind,
        Except.bind, Except.map]
  | ok code =>
      simp [Message.ofMembers, Record.readMembers, Record.field, Record.both, hcode, htext,
        Record.required, bind, Except.bind, Except.map, pure, Except.pure, eq_comm]

/-- The characters of an error with a numeral, in any spelling, for its code, between its other
members. -/
def errorChars (layout : Layout) (spelling : Spelling) (n : Numeral) (before after : Mapping) :
    List Char :=
  objectChars layout 0
    (before.entries layout 1 ++ ("Code", n.spelled spelling) :: after.entries layout 1)

section

variable {layout : Layout} (spelling : Spelling) (n : Numeral) {text : String}
  {before after : Mapping}

theorem Message.ofBytes_errorChars (hlayout : layout.Spaced)
    (hmembers : Rearranges [("Type", .string "Error"), ("Message", .string text)]
      (before ++ after))
    (hcode : ∀ member ∈ before ++ after, member.1 ≠ "Code")
    (hdepth : (Value.object (before ++ after)).depth < nestingLimit + 1) {m : Message} :
    Message.ofBytes (encodeChars (errorChars layout spelling n before after)) = .ok m ↔
      ∃ code, n.integer? = some code.toInt ∧ m = .error code text := by
  obtain ⟨others, hperm, hothers⟩ := hmembers
  have hdeep (member : String × Value) (hmember : member ∈ others) :
      member.2.depth ≤ nestingLimit - 1 :=
    depth_object_lt_iff.mp hdepth member
      (hperm.mem_iff.mpr (List.mem_append_right _ hmember))
  have hentries : before.entries layout 1 ++ ("Code", n.spelled spelling) ::
      after.entries layout 1 = (before.map (Written.ofField layout 1) ++
        Written.ofNumeral "Code" spelling n :: after.map (Written.ofField layout 1)).map
          Written.entry := by
    rw [List.map_append, List.map_cons, Written.map_entry_ofField, Written.map_entry_ofField]
    rfl
  have hwritten : (before.map (Written.ofField layout 1) ++
      Written.ofNumeral "Code" spelling n :: after.map (Written.ofField layout 1)).Perm
        (Envelope.typed .error :: ([Written.ofNumeral "Code" spelling n,
          Written.ofField layout 1 ("Message", .string text)] ++
            others.map (Written.ofField layout 1))) := by
    refine List.perm_middle.trans (List.Perm.trans ?_ (List.Perm.swap _ _ _))
    rw [← List.map_append]
    exact (hperm.map (Written.ofField layout 1)).cons _
  rw [errorChars, hentries, Message.ofBytes_arranged hlayout hwritten ?_ rfl ?_]
  · simp only [← errorCode_ofNumeral]
    exact Message.ofMembers_error_iff
  · simp only [List.forall_mem_append, List.forall_mem_cons, List.forall_mem_map]
    exact ⟨⟨Written.stands_ofNumeral _ spelling n _,
      Written.stands_ofField hlayout 1 (Nat.zero_le _), by simp⟩,
      fun member hmember => Written.stands_ofField hlayout 1 (hdeep member hmember)⟩
  · rw [List.forall_mem_map]
    intro other hother
    have hne := hcode other (hperm.mem_iff.mpr (List.mem_append_right _ hother))
    have hown : other.1 ∉ ["Type", "Message"] := hothers other hother
    simp only [Envelope.kindKey, Kind.fieldNames, List.mem_cons, not_or] at hown ⊢
    exact ⟨hown.left, hne, hown.right⟩

/-- An error with any number literal for its code, at any place among its members and others of
other names, is read exactly if the literal has neither fraction nor exponent and is an integer of
32 bits; the code is then that integer.  The code is the same whether the number is kept as a
machine integer or as its text. -/
theorem error_codes_read_exactly (hlayout : layout.Spaced)
    (hmembers : Rearranges [("Type", .string "Error"), ("Message", .string text)]
      (before ++ after))
    (hcode : ∀ member ∈ before ++ after, member.1 ≠ "Code")
    (hdepth : (Value.object (before ++ after)).depth < 128) :
    ((∃ m, Message.ofBytes (encodeChars (errorChars layout spelling n before after)) = .ok m) ↔
        n.fraction = none ∧ n.exponent = none ∧ -0x80000000 ≤ n.signed ∧
          n.signed ≤ 0x7fffffff) ∧
      (∀ m, Message.ofBytes (encodeChars (errorChars layout spelling n before after)) = .ok m →
        ∃ code : Int32, m = .error code text ∧ code.toInt = n.signed) ∧
      errorCode (Draft.ofNumeral n) = errorCode (.object [(reservedKey, .string n.text)]) := by
  have hread {m : Message} :=
    Message.ofBytes_errorChars spelling n hlayout hmembers hcode hdepth (m := m)
  refine ⟨⟨?_, ?_⟩, ?_, ?_⟩
  · rintro ⟨m, hm⟩
    obtain ⟨code, hinteger, _⟩ := hread.mp hm
    obtain ⟨hfraction, hexponent, hsigned⟩ := Numeral.integer?_eq_some_iff.mp hinteger
    have hlow := code.le_toInt
    have hhigh := code.toInt_lt
    exact ⟨hfraction, hexponent, by omega, by omega⟩
  · rintro ⟨hfraction, hexponent, hlow, hhigh⟩
    have hinteger : n.integer? = some (Int32.ofInt n.signed).toInt := by
      rw [Int32.toInt_ofInt_of_le hlow (by omega)]
      exact Numeral.integer?_eq_some_iff.mpr ⟨hfraction, hexponent, rfl⟩
    exact ⟨_, hread.mpr ⟨_, hinteger, rfl⟩⟩
  · intro m hm
    obtain ⟨code, hinteger, rfl⟩ := hread.mp hm
    exact ⟨code, rfl, (Numeral.integer?_eq_some_iff.mp hinteger).right.right.symm⟩
  · simp only [errorCode, numeralOf_ofNumeral, numeralOf_carried]

end

theorem extreme_codes_read_exactly :
    let before : Mapping := [("Message", .string "late"), ("Note", .bool true)]
    let after : Mapping := [("Type", .string "Error")]
    let input (i : Int) : Bytes :=
      encodeChars (errorChars .compact .plain (.ofInt i) before after)
    Rearranges [("Type", .string "Error"), ("Message", .string "late")] (before ++ after) ∧
      (∀ member ∈ before ++ after, member.1 ≠ "Code") ∧
      (Value.object (before ++ after)).depth < 128 ∧
      (∃ m, Message.ofBytes (input (-0x80000000)) = .ok m) ∧
      ¬ ∃ m, Message.ofBytes (input 0x80000000) = .ok m := by
  intro before after input
  have hmembers : Rearranges [("Type", .string "Error"), ("Message", .string "late")]
      (before ++ after) := ⟨[("Note", .bool true)], by decide, by decide⟩
  have hcode : ∀ member ∈ before ++ after, member.1 ≠ "Code" := by decide
  have hdepth : (Value.object (before ++ after)).depth < 128 := by decide
  have hexact (i : Int) :=
    (error_codes_read_exactly .plain (.ofInt i) Layout.compact_spaced hmembers hcode hdepth).left
  have hsigned (i : Int) : (Numeral.ofInt i).signed = i :=
    (Numeral.integer?_eq_some_iff.mp (Numeral.integer?_ofInt i)).right.right
  refine ⟨hmembers, hcode, hdepth, (hexact _).mpr ⟨rfl, rfl, ?_⟩, fun h => ?_⟩
  · rw [hsigned]
    decide
  · have hhigh := ((hexact _).mp h).right.right.right
    rw [hsigned] at hhigh
    exact absurd hhigh (by decide)

end Engine
end Cardsmith
