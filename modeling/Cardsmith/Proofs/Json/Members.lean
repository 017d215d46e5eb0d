import Cardsmith.Proofs.Json.Drafts

/-!
# Written members and their drafts

A member of an object may be written with any characters that are read as its draft: those that a
layout writes for a value, or any spelling of a numeral.
-/

namespace Cardsmith
namespace Json

open Utf8

/-- A member as it is written, with the draft that its value is read as. -/
structure Written where
  key : String
  chars : List Char
  draft : Draft

namespace Written

def entry (written : Written) : String × List Char := (written.key, written.chars)

def member (written : Written) : String × Draft := (written.key, written.draft)

/-- The characters are read as the draft with at most `depth` brackets open at once. -/
def Stands (depth : Nat) (written : Written) : Prop :=
  ∀ budget, (encodeChars written.chars).length ≤ budget →
    Reads (Draft.read budget depth) (encodeChars written.chars) written.draft

def ofField (layout : Layout) (level : Nat) (field : String × Value) : Written :=
  ⟨field.1, field.2.print layout level, Draft.ofValue field.2⟩

def ofNumeral (key : String) (spelling : Spelling) (n : Numeral) : Written :=
  ⟨key, n.spelled spelling, Draft.ofNumeral n⟩

theorem map_entry_ofField (layout : Layout) (level : Nat) (fields : Mapping) :
    (fields.map (ofField layout level)).map entry = fields.entries layout level := List.map_map

theorem map_member_ofField (layout : Layout) (level : Nat) (fields : Mapping) :
    (fields.map (ofField layout level)).map member = Draft.ofFields fields := by
  rw [Draft.ofFields_eq_map]
  exact List.map_map

theorem stands_ofField {layout : Layout} (hlayout : layout.Spaced) (level : Nat) {depth : Nat}
    {field : String × Value} (h : field.2.depth ≤ depth) :
    (ofField layout level field).Stands depth :=
  fun _ hbudget => Draft.read_written hlayout level h hbudget

theorem stands_ofNumeral (key : String) (spelling : Spelling) (n : Numeral) (depth : Nat) :
    (ofNumeral key spelling n).Stands depth := by
  intro budget _ blanks rest hblanks hrest
  rw [Draft.read_blanks hblanks]
  cases depth <;> rw [Draft.read, ofNumeral, readHead_number spelling n hrest] <;> rfl

end Written

end Json
end Cardsmith
