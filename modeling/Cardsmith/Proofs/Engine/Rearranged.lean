import Cardsmith.Proofs.Engine.Messages
import Cardsmith.Proofs.Json.Members
import Cardsmith.Proofs.Json.Records

/-!
# Messages with their members in any order

The members of a written message may stand in any order, the type among them, and members of other
names may stand between them: the message read is the same.  The reader goes member by member and
keeps all but the type as drafts; the fields are then found among the drafts by name.
-/

namespace Cardsmith
namespace Engine

open Json Utf8

/-! ## Envelopes -/

namespace Envelope

def typed (kind : Kind) : Written := ⟨kindKey, stringChars kind.name, .string kind.name⟩

section Members

variable {layout : Layout} {budget depth : Nat} {tail : Bytes}

theorem readMembers_member (hlayout : layout.Spaced) {written : Written}
    (hkey : written.key ≠ kindKey) (hstands : written.Stands depth)
    (hwithin : Within budget written.entry) (more : List (String × List Char))
    (htail : EndsNumeral tail) (level steps : Nat) (first : Bool) (kind? : Option Kind)
    (done : List (String × Draft)) :
    readMembers budget (Draft.read budget depth) (steps + 1) first kind? done
        (encodeChars (printEntries layout level first (written.entry :: more)) ++ tail) =
      readMembers budget (Draft.read budget depth) steps false kind? (written.member :: done)
        (encodeChars (printEntries layout level false more) ++ tail) := by
  rcases hlayout.colon with ⟨gap, hcolon, hgap⟩
  have hread := hstands budget hwithin.right gap _ hgap
    (endsNumeral_entries layout level more htail)
  rw [encodeChars_printEntries_cons, hcolon]
  simp only [List.append_assoc, List.cons_append]
  rw [readMembers, nextKey_entry hlayout hwithin.left]
  simp only [bind, Except.bind, Written.entry, if_neg hkey, readColon_colon, hread]
  rfl

theorem readMembers_run (hlayout : layout.Spaced) {written : List Written}
    (hkeys : ∀ member ∈ written, member.key ≠ kindKey)
    (hstands : ∀ member ∈ written, member.Stands depth)
    (hwithin : ∀ member ∈ written, Within budget member.entry) (more : List (String × List Char))
    (htail : EndsNumeral tail) (level steps : Nat) (first : Bool) (kind? : Option Kind)
    (done : List (String × Draft)) :
    readMembers budget (Draft.read budget depth) (steps + written.length) first kind? done
        (encodeChars (printEntries layout level first (written.map Written.entry ++ more)) ++
          tail) =
      readMembers budget (Draft.read budget depth) steps (first && written.isEmpty) kind?
        ((written.map Written.member).reverse ++ done)
        (encodeChars (printEntries layout level (first && written.isEmpty) more) ++ tail) := by
  induction written generalizing first done with
  | nil =>
      rw [List.isEmpty_nil, Bool.and_true]
      rfl
  | cons member rest ih =>
      rw [List.forall_mem_cons] at hkeys hstands hwithin
      rw [List.map_cons, List.cons_append, List.length_cons, ← Nat.add_assoc,
        readMembers_member hlayout hkeys.left hstands.left hwithin.left _ htail,
        ih hkeys.right hstands.right hwithin.right]
      simp only [Bool.false_and, List.isEmpty_cons, Bool.and_false, List.map_cons,
        List.reverse_cons, List.append_assoc, List.singleton_append]

theorem readMembers_typed (hlayout : layout.Spaced) {kind : Kind}
    (hwithin : Within budget (typed kind).entry) (item : Bytes → Except Stop (Draft × Bytes))
    (more : List (String × List Char)) (level steps : Nat) (first : Bool)
    (done : List (String × Draft)) :
    readMembers budget item (steps + 1) first none done
        (encodeChars (printEntries layout level first ((typed kind).entry :: more)) ++ tail) =
      readMembers budget item steps false (some kind) done
        (encodeChars (printEntries layout level false more) ++ tail) := by
  rcases hlayout.colon with ⟨gap, hcolon, hgap⟩
  have hkind (rest : Bytes) : readKind budget
      (gap ++ (encodeChars (stringChars kind.name) ++ rest)) = .ok (kind, rest) := by
    rw [← readKind_written kind hwithin.right rest, readKind, readKind, readHead_blanks hgap,
      readHead_string kind.name hwithin.right]
    rfl
  rw [encodeChars_printEntries_cons, hcolon]
  simp only [List.append_assoc, List.cons_append]
  rw [readMembers, nextKey_entry hlayout hwithin.left]
  simp only [bind, Except.bind, Written.entry, typed, if_true, readColon_colon, hkind]

theorem readMembers_written (hlayout : layout.Spaced) {kind : Kind} {before after : List Written}
    (hkeys : ∀ member ∈ before ++ after, member.key ≠ kindKey)
    (hstands : ∀ member ∈ before ++ after, member.Stands depth)
    (hwithin : ∀ member ∈ before ++ typed kind :: after, Within budget member.entry)
    {steps : Nat} (hsteps : before.length + after.length + 1 < steps) {blanks : Bytes}
    (hblanks : Blank blanks) (level : Nat) (rest : Bytes) :
    readMembers budget (Draft.read budget depth) steps true none []
        (encodeChars (printEntries layout level true
          ((before ++ typed kind :: after).map Written.entry)) ++
            (blanks ++ '}'.toUInt8 :: rest)) =
      .ok ((some kind, (before ++ after).map Written.member), '}'.toUInt8 :: rest) := by
  have htail : EndsNumeral (blanks ++ '}'.toUInt8 :: rest) :=
    endsNumeral_blanks hblanks (endsNumeral_cons (by decide) rest)
  rw [List.forall_mem_append] at hkeys hstands hwithin
  rw [List.forall_mem_cons] at hwithin
  obtain ⟨extra, rfl⟩ := Nat.exists_eq_add_of_lt hsteps
  have hcount : before.length + after.length + 1 + extra + 1 =
      (extra + 1 + after.length + 1) + before.length := by omega
  have hlast := readMembers_run hlayout hkeys.right hstands.right hwithin.right.right [] htail
    level (extra + 1) false (some kind) ((before.map Written.member).reverse ++ [])
  rw [List.append_nil (after.map Written.entry)] at hlast
  rw [hcount, List.map_append, List.map_cons,
    readMembers_run hlayout hkeys.left hstands.left hwithin.left _ htail,
    readMembers_typed hlayout hwithin.right.left, hlast]
  rw [Bool.false_and, printEntries, encodeChars_nil, List.nil_append, readMembers,
    nextKey_last hblanks]
  simp only [bind, Except.bind, pure, Except.pure, List.append_nil, List.reverse_append,
    List.reverse_reverse, List.map_append]

theorem read_objectChars (hlayout : layout.Spaced) (level : Nat) (kind : Kind)
    {before after : List Written}
    (hkeys : ∀ member ∈ before ++ after, member.key ≠ kindKey)
    (hstands : ∀ member ∈ before ++ after, member.Stands (nestingLimit - 1))
    (hbudget : (encodeChars (objectChars layout level
      ((before ++ typed kind :: after).map Written.entry))).length ≤ budget) :
    read budget (encodeChars (objectChars layout level
        ((before ++ typed kind :: after).map Written.entry))) =
      .ok (⟨kind, .members ((before ++ after).map Written.member)⟩, []) := by
  rw [encodeChars_objectChars] at hbudget ⊢
  simp only [List.length_cons, List.length_append] at hbudget
  have hcount := length_entries_le layout (level + 1) true
    ((before ++ typed kind :: after).map Written.entry)
  rw [List.length_map, List.length_append, List.length_cons] at hcount
  have hwithin (member : Written) (hmember : member ∈ before ++ typed kind :: after) :
      Within budget member.entry :=
    (within_of_mem layout (level + 1) (List.mem_map_of_mem hmember) true).mono (by omega)
  have hsteps : before.length + after.length + 1 < budget := by omega
  have hread := readMembers_written hlayout hkeys hstands hwithin hsteps (hlayout.line level)
    (level + 1) []
  rw [read, readHead_object]
  simp only [bind, Except.bind, readObject, hread, endObject_brace]
  rfl

end Members

end Envelope

/-! ## Fields among drafts -/

def Kind.fieldNames : Kind → List String
  | .ready => ["Name", "Version"]
  | .imported => ["View"]
  | .returnValue => ["Value"]
  | .event => ["Name", "Payload"]
  | .error => ["Code", "Message"]
  | .importPackage => ["View", "Package"]
  | .invoke => ["Target", "Method", "Args"]
  | .shutdown => []

theorem Kind.fieldNames_nodup (kind : Kind) : kind.fieldNames.Nodup := by
  cases kind <;> decide

theorem Kind.kindKey_not_mem_fieldNames (kind : Kind) :
    Envelope.kindKey ∉ kind.fieldNames := by
  cases kind <;> decide

theorem Message.keys_fields (m : Message) : m.fields.keys = m.kind.fieldNames := by
  cases m <;> rfl

theorem Message.ofMembers_arranged {kind : Kind} {own members : List (String × Draft)}
    (h : Record.Arranged own members) (hnames : own.map Prod.fst = kind.fieldNames)
    {m : Message} :
    Message.ofMembers members kind = .ok m ↔ Message.ofMembers own kind = .ok m := by
  have hfield {α : Type} (name : String) (read : Draft → Except Cause α)
      (hname : name ∈ kind.fieldNames) : Record.ReadAlike (Record.field name read) own members :=
    Record.readAlike_field h (hnames.symm ▸ hname) read
  have hfields {α β : Type} (name other : String) (read : Draft → Except Cause α)
      (readOther : Draft → Except Cause β) (hne : name ≠ other)
      (hname : name ∈ kind.fieldNames) (hother : other ∈ kind.fieldNames) :
      Record.ReadAlike (Record.both (Record.field name read) (Record.field other readOther)) own
        members :=
    Record.readAlike_fields h hne (hnames.symm ▸ hname) (hnames.symm ▸ hother) read readOther
  cases kind with
  | ready =>
      simp only [Message.ofMembers, Except.bind_eq_ok_iff, hfields "Name" "Version"
        Record.string Record.string (by decide) (by decide) (by decide) _ _]
  | imported =>
      simp only [Message.ofMembers, Except.bind_eq_ok_iff,
        hfield "View" Record.string (by decide) _ _]
  | returnValue =>
      simp only [Message.ofMembers, Except.bind_eq_ok_iff,
        hfield "Value" Draft.toValue (by decide) _ _]
  | event =>
      simp only [Message.ofMembers, Except.bind_eq_ok_iff, hfields "Name" "Payload"
        Record.string Draft.toValue (by decide) (by decide) (by decide) _ _]
  | error =>
      simp only [Message.ofMembers, Except.bind_eq_ok_iff, hfields "Code" "Message"
        errorCode Record.string (by decide) (by decide) (by decide) _ _]
  | importPackage =>
      simp only [Message.ofMembers, Except.bind_eq_ok_iff, hfields "View" "Package"
        Record.string Record.string (by decide) (by decide) (by decide) _ _]
  | invoke =>
      have hrest := hfields "Method" "Args" Record.string Record.values (by decide) (by decide)
        (by decide)
      have hall := (hfield "Target" targetOf (by decide)).both hrest
        ((Record.apart_field (by decide) _ _).both (Record.apart_field (by decide) _ _))
      simp only [Message.ofMembers, Except.bind_eq_ok_iff, hall _ _]
  | shutdown => rfl

theorem targetOf_arranged {own members : List (String × Draft)}
    (h : Record.Arranged own members) (hnames : own.map Prod.fst = ["View", "Class"])
    {target : Target} :
    targetOf (.object members) = .ok target ↔ targetOf (.object own) = .ok target := by
  have hfields := Record.readAlike_fields h (by decide : "View" ≠ "Class") (by simp [hnames])
    (by simp [hnames]) Record.string Record.string
  simp only [targetOf, Except.bind_eq_ok_iff, hfields _ _]

/-! ## Messages in any order -/

/-- From an object with the type at any place the message is made of the drafts of its own members,
whatever their order and whatever other members stand among them. -/
theorem Message.ofBytes_arranged {layout : Layout} (hlayout : layout.Spaced) {kind : Kind}
    {own others written : List Written}
    (hperm : written.Perm (Envelope.typed kind :: (own ++ others)))
    (hstands : ∀ member ∈ own ++ others, member.Stands (nestingLimit - 1))
    (hown : own.map Written.key = kind.fieldNames)
    (hothers : ∀ other ∈ others, other.key ∉ Envelope.kindKey :: kind.fieldNames) {m : Message} :
    Message.ofBytes (encodeChars (objectChars layout 0 (written.map Written.entry))) = .ok m ↔
      Message.ofMembers (own.map Written.member) kind = .ok m := by
  obtain ⟨before, after, rfl⟩ :=
    List.append_of_mem (hperm.mem_iff.mpr List.mem_cons_self)
  have hrest : (before ++ after).Perm (own ++ others) :=
    (List.perm_middle.symm.trans hperm).cons_inv
  have hkeys (member : Written) (hmember : member ∈ before ++ after) :
      member.key ≠ Envelope.kindKey := by
    intro hkey
    rcases List.mem_append.mp (hrest.mem_iff.mp hmember) with hmem | hmem
    · have hname : member.key ∈ kind.fieldNames := hown ▸ List.mem_map_of_mem hmem
      exact kind.kindKey_not_mem_fieldNames (hkey ▸ hname)
    · exact hothers member hmem (hkey ▸ List.mem_cons_self)
  have hread := Envelope.read_objectChars hlayout 0 kind hkeys
    (fun member hmember => hstands member (hrest.mem_iff.mp hmember)) (Nat.le_succ _)
  have harranged : Record.Arranged (own.map Written.member)
      ((before ++ after).map Written.member) := by
    have hnames : (own.map Written.member).map Prod.fst = own.map Written.key := List.map_map
    refine ⟨hnames ▸ hown ▸ kind.fieldNames_nodup, others.map Written.member, ?_, ?_⟩
    · rw [← List.map_append]
      exact hrest.map Written.member
    · simp only [List.forall_mem_map]
      intro other hother member hmember (hkey : other.key = member.key)
      have hname : member.key ∈ kind.fieldNames := hown ▸ List.mem_map_of_mem hmember
      exact hothers other hother (List.mem_cons_of_mem _ (hkey ▸ hname))
  have hend : readEnd [] = .ok () := rfl
  rw [← Message.ofMembers_arranged harranged (by rw [List.map_map]; exact hown)]
  simp only [Message.ofBytes, hread, Message.ofEnvelope]
  cases Message.ofMembers ((before ++ after).map Written.member) kind with
  | error cause => simp
  | ok found => simp [hend]

/-- The members are the fields in any order, among any others of other names. -/
def Rearranges (fields members : Mapping) : Prop :=
  ∃ others, members.Perm (fields ++ others) ∧ ∀ other ∈ others, other.1 ∉ fields.keys

theorem Rearranges.arranged {fields members : Mapping} (h : Rearranges fields members)
    (hdistinct : fields.Distinct) :
    Record.Arranged (Draft.ofFields fields) (Draft.ofFields members) := by
  obtain ⟨others, hperm, hothers⟩ := h
  simp only [Draft.ofFields_eq_map]
  refine ⟨?_, others.map fun field => (field.1, Draft.ofValue field.2), ?_, ?_⟩
  · rw [List.map_map]
    exact hdistinct
  · rw [← List.map_append]
    exact hperm.map _
  · simp only [List.forall_mem_map]
    intro other hother field hfield (hkey : other.1 = field.1)
    exact hothers other hother (hkey ▸ List.mem_map_of_mem hfield)

theorem depth_object_lt_iff {fields : Mapping} :
    (Value.object fields).depth < nestingLimit + 1 ↔
      ∀ field ∈ fields, field.2.depth ≤ nestingLimit - 1 := by
  rw [← fieldsDepth_le_iff, Value.depth, nestingLimit]
  omega

theorem Message.ofBytes_rearranged {layout : Layout} (hlayout : layout.Spaced) {kind : Kind}
    {fields members : Mapping} (hnames : fields.keys = kind.fieldNames)
    (h : Rearranges (("Type", .string kind.name) :: fields) members)
    (hdepth : (Value.object members).depth < nestingLimit + 1) {m : Message} :
    Message.ofBytes (encodeChars ((Value.object members).print layout 0)) = .ok m ↔
      Message.ofMembers (Draft.ofFields fields) kind = .ok m := by
  obtain ⟨others, hperm, hothers⟩ := h
  have hne : members ≠ [] := by
    rintro rfl
    cases hperm.nil_eq
  have hwritten := hperm.map (Written.ofField layout 1)
  rw [List.cons_append, List.map_cons, List.map_append] at hwritten
  rw [print_object layout 0 hne, ← Written.map_entry_ofField, ← Written.map_member_ofField layout 1]
  refine Message.ofBytes_arranged hlayout hwritten ?_ ?_ ?_
  · rw [← List.map_append, List.forall_mem_map]
    intro field hfield
    exact Written.stands_ofField hlayout 1 (depth_object_lt_iff.mp hdepth field
      (hperm.mem_iff.mpr (List.mem_cons_of_mem _ hfield)))
  · rw [List.map_map]
    exact hnames
  · rw [List.forall_mem_map, ← hnames]
    exact hothers

/-! ## Any message -/

/-- The fields are those of the message; the members of a target may stand in any order among any
others of other names. -/
def Message.FieldsAs : Message → Mapping → Prop
  | .invoke target method args, fields => ∃ place, Rearranges target.fields place ∧
      fields = [("Target", .object place), ("Method", .string method), ("Args", .array args)]
  | m, fields => fields = m.fields

/-- The members are those of the object that the message is written as, and likewise those of its
target, in any order among any others of other names. -/
def Message.Rearranged (m : Message) (members : Mapping) : Prop :=
  ∃ fields, m.FieldsAs fields ∧ Rearranges (("Type", .string m.kind.name) :: fields) members

theorem Message.FieldsAs.keys_eq {m : Message} {fields : Mapping} (h : m.FieldsAs fields) :
    fields.keys = m.kind.fieldNames := by
  cases m with
  | invoke target method args =>
      obtain ⟨place, _, rfl⟩ := h
      rfl
  | ready | imported | returnValue | event | error | importPackage | shutdown =>
      obtain rfl := h
      exact Message.keys_fields _

theorem Message.FieldsAs.ofMembers {m : Message} {fields : Mapping} (h : m.FieldsAs fields)
    (hadmitted : ∀ field ∈ m.fields, ∃ deep, field.2.Admitted deep) :
    Message.ofMembers (Draft.ofFields fields) m.kind = .ok m := by
  cases m with
  | invoke target method args =>
      obtain ⟨place, hplace, rfl⟩ := h
      rcases hadmitted ("Args", .array args)
        (List.mem_cons_of_mem _ (List.mem_cons_of_mem _ List.mem_cons_self)) with ⟨deep, hargs⟩
      have hdistinct : Mapping.Distinct target.fields :=
        (by decide : ["View", "Class"].Nodup)
      have htarget : targetOf (.object (Draft.ofFields place)) = .ok target :=
        (targetOf_arranged (hplace.arranged hdistinct) rfl).mpr rfl
      exact Message.ofMembers_call htarget (values_ofValue hargs)
  | ready | imported | returnValue | event | error | importPackage | shutdown =>
      obtain rfl := h
      exact Message.ofMembers_ofFields hadmitted

theorem Message.Fits.unreserved {depth : Nat} {m : Message} (h : m.Fits depth) :
    ∀ value ∈ m.carried, value.Unreserved := by
  cases m with
  | returnValue value =>
      have hvalue : value.Admitted depth := h
      simpa [Message.carried] using hvalue.unreserved
  | event told =>
      have hpayload : told.payload.Admitted depth := h
      simpa [Message.carried] using hpayload.unreserved
  | invoke target method args =>
      have hargs : (Value.array args).Admitted depth := h
      exact itemsUnreserved_iff.mp hargs.unreserved
  | ready | imported | error | importPackage | shutdown =>
      exact fun value hvalue => absurd hvalue List.not_mem_nil

/-- A message is read from its members, and from those of its target, in any order and among any
others of other names, in a text of fewer than 128 levels, exactly if no mapping in what it carries
has the reserved key first: such a mapping stands for a number. -/
theorem rearranged_members_read_back {layout : Layout} (hlayout : layout.Spaced) {m : Message}
    (hcarried : ∀ value ∈ m.carried, value.WellFormed) {members : Mapping}
    (hmembers : m.Rearranged members) (hdepth : (Value.object members).depth < 128) :
    Message.ofBytes (encodeChars ((Value.object members).print layout 0)) = .ok m ↔
      ∀ value ∈ m.carried, value.Unreserved := by
  constructor
  · intro h
    exact (Message.fits_of_ofBytes h).unreserved
  · intro hunreserved
    obtain ⟨fields, hfields, harranged⟩ := hmembers
    have hfits : m.Fits (itemsDepth m.carried + 1) :=
      Message.fits_of_carried fun value hvalue => ⟨hcarried value hvalue, hunreserved value hvalue,
        itemsDepth_le_iff.mp (Nat.le_refl _) value hvalue⟩
    exact (Message.ofBytes_rearranged hlayout hfields.keys_eq harranged hdepth).mpr
      (hfields.ofMembers fun field hfield => ⟨_, Message.fields_admitted hfits field hfield⟩)

def shuffledCall : Mapping :=
  [("Args", .array [.number (.ofInt 1)]), ("Note", .object [(reservedKey, .null)]),
    ("Target", .object [("Class", .string "Card"), ("Type", .null), ("View", .string "cards")]),
    ("Type", .string "Invoke"), ("Method", .string "cost"), ("Note", .bool true)]

theorem shuffled_call_read_back :
    let call : Message := .invoke ⟨"cards", "Card"⟩ "cost" [.number (.ofInt 1)]
    (∀ value ∈ call.carried, value.WellFormed) ∧ call.Rearranged shuffledCall ∧
      (Value.object shuffledCall).depth < 128 ∧
      Message.ofBytes (encodeChars ((Value.object shuffledCall).print .indented 0)) = .ok call := by
  intro call
  have hcarried : ∀ value ∈ call.carried, value.WellFormed := by
    simp [call, Message.carried, Value.WellFormed]
  have hplace : Rearranges (Target.fields ⟨"cards", "Card"⟩)
      [("Class", .string "Card"), ("Type", .null), ("View", .string "cards")] :=
    ⟨[("Type", .null)], by decide, by decide⟩
  have hmembers : call.Rearranged shuffledCall :=
    ⟨_, ⟨_, hplace, rfl⟩, [("Note", .object [(reservedKey, .null)]), ("Note", .bool true)],
      by decide, by decide⟩
  have hdepth : (Value.object shuffledCall).depth < 128 := by decide
  refine ⟨hcarried, hmembers, hdepth, ?_⟩
  refine (rearranged_members_read_back Layout.indented_spaced hcarried hmembers hdepth).mpr ?_
  simp [call, Message.carried, Value.Unreserved]

/-- A message that carries a mapping with the reserved key first is not read back from what is
written for it, but as one that carries a number. -/
theorem reserved_mapping_is_read_as_number :
    let message : Message := .returnValue (.object [(reservedKey, .string "7")])
    (∀ value ∈ message.carried, value.WellFormed) ∧ message.toValue.depth = 2 ∧
      message.Rearranged [("Type", .string "ReturnValue"),
        ("Value", .object [(reservedKey, .string "7")])] ∧
      Message.ofBytes message.bytes = .ok (.returnValue (.number (.ofInt 7))) ∧
      Message.ofBytes message.bytes ≠ .ok message := by
  intro message
  have hmembers : Rearranges (("Type", .string Kind.returnValue.name) :: message.fields)
      (("Type", .string "ReturnValue") :: message.fields) :=
    ⟨[], by rw [List.append_nil]; exact List.Perm.refl _, by simp⟩
  have hbytes : message.bytes = encodeChars (message.toValue.print .compact 0) := by
    rw [Message.bytes, Message.text, Value.compact, Utf8.encode, String.toList_ofList]
  have hread : Message.ofBytes message.bytes = .ok (.returnValue (.number (.ofInt 7))) := by
    rw [hbytes]
    exact (Message.ofBytes_rearranged Layout.compact_spaced rfl hmembers (by decide)).mpr rfl
  refine ⟨?_, rfl, ⟨_, rfl, hmembers⟩, hread, ?_⟩
  · simp [message, Message.carried, Value.WellFormed, Mapping.Distinct, Mapping.keys,
      FieldsWellFormed]
  · rw [hread]
    simp [message]

end Engine
end Cardsmith
