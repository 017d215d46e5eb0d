import Cardsmith.Engine.Decode
import Cardsmith.Proofs.Json.Drafts

/-!
# Reading written messages

A message is read back from what is written for it, with every value digit for digit and field
for field, exactly if its text does not have too many brackets; and every message that is read
at all is read back.
-/

namespace Cardsmith
namespace Engine

open Json Utf8

/-! ## Envelopes -/

namespace Envelope

variable {budget : Nat} {item : Bytes → Except Stop (Draft × Bytes)}

theorem mem_of_readMembers {steps : Nat} {first : Bool} {done members : List (String × Draft)}
    {bs rest : Bytes} (hread : Json.readMembers budget item steps first done bs = .ok (members, rest))
    {member : String × Draft} (hmember : member ∈ done) : member ∈ members := by
  rcases readMembers_forall (P := fun _ => True) (fun _ _ _ _ => trivial) hread with
    ⟨more, rfl, _⟩
  exact List.mem_append_left _ (List.mem_reverse.mpr hmember)

/-- Once the kind has been read, the members are read as those of any object, but another kind is
not admitted. -/
theorem readMembers_eq_ok_iff {steps : Nat} {first : Bool} {kind : Kind} {kind? : Option Kind}
    {done members : List (String × Draft)} {bs rest : Bytes}
    (hdone : ∀ member ∈ done, member.1 ≠ kindKey) :
    readMembers budget item steps first (some kind) done bs = .ok ((kind?, members), rest) ↔
      kind? = some kind ∧ Json.readMembers budget item steps first done bs = .ok (members, rest) ∧
        ∀ member ∈ members, member.1 ≠ kindKey := by
  induction steps generalizing first done bs with
  | zero =>
      constructor
      · intro h
        cases h
      · rintro ⟨_, h, _⟩
        cases h
  | succ steps ih =>
      rw [readMembers, Json.readMembers]
      cases hnext : nextKey budget first bs with
      | error stop => simp [bind, Except.bind]
      | ok result =>
          obtain ⟨key?, next⟩ := result
          cases key? with
          | none =>
              simp only [bind, Except.bind, pure, Except.pure, Except.ok.injEq, Prod.mk.injEq]
              constructor
              · rintro ⟨⟨rfl, rfl⟩, rfl⟩
                exact ⟨rfl, ⟨rfl, rfl⟩, fun member hmember =>
                  hdone member (List.mem_reverse.mp hmember)⟩
              · rintro ⟨rfl, ⟨rfl, rfl⟩, _⟩
                exact ⟨⟨rfl, rfl⟩, rfl⟩
          | some key =>
              by_cases hkey : key = kindKey
              · constructor
                · intro h
                  simp only [bind, Except.bind, if_pos hkey] at h
                  cases h
                · rintro ⟨_, h, hother⟩
                  simp only [bind, Except.bind] at h
                  cases hcolon : readColon next with
                  | error stop => simp [hcolon] at h
                  | ok after =>
                      cases hitem : item after with
                      | error stop => simp [hcolon, hitem] at h
                      | ok read =>
                          simp only [hcolon, hitem] at h
                          exact absurd hkey (hother _ (mem_of_readMembers h List.mem_cons_self))
              · cases hcolon : readColon next with
                | error stop => simp [bind, Except.bind, hkey, hcolon]
                | ok after =>
                    cases hitem : item after with
                    | error stop => simp [bind, Except.bind, hkey, hcolon, hitem]
                    | ok read =>
                        obtain ⟨draft, last⟩ := read
                        have hmore : ∀ member ∈ (key, draft) :: done, member.1 ≠ kindKey :=
                          List.forall_mem_cons.mpr ⟨hkey, hdone⟩
                        simp only [bind, Except.bind, if_neg hkey, hcolon, hitem]
                        exact ih hmore

theorem ofName?_name (kind : Kind) : Kind.ofName? kind.name = some kind := by
  cases kind <;> decide

theorem readKind_written (kind : Kind)
    (hbudget : (encodeChars (stringChars kind.name)).length ≤ budget) (rest : Bytes) :
    readKind budget (encodeChars (stringChars kind.name) ++ rest) = .ok (kind, rest) := by
  simp only [readKind, readHead_string kind.name hbudget, bind, Except.bind, ofName?_name]
  rfl

theorem bytes_eq (m : Message) :
    m.bytes = '\x7b'.toUInt8 :: (encodeChars (stringChars kindKey) ++
      (':'.toUInt8 :: (encodeChars (stringChars m.kind.name) ++
        (encodeChars (printFields .compact 1 m.fields) ++ ['\x7d'.toUInt8])))) := by
  have hcolon : encodeChars Layout.compact.colon = [':'.toUInt8] := by decide
  rw [Message.bytes, Message.text, Value.compact, Utf8.encode, String.toList_ofList,
    Message.toValue, encodeChars_object, hcolon]
  rfl

theorem fields_key_ne (m : Message) : ∀ field ∈ m.fields, field.1 ≠ kindKey := by
  cases m <;> simp [Message.fields, kindKey]

theorem readMembers_fields_iff {steps depth : Nat} {fields : Mapping} {kind : Kind}
    (hadmitted : ∀ field ∈ fields, ∃ deep, field.2.Admitted deep)
    (hkeys : ∀ field ∈ fields, field.1 ≠ kindKey)
    (hbudget : (encodeChars (printFields .compact 1 fields)).length ≤ budget)
    (hsteps : fields.length < steps) {result : (Option Kind × List (String × Draft)) × Bytes} :
    readMembers budget (Draft.read budget depth) steps false (some kind) []
        (encodeChars (printFields .compact 1 fields) ++ ['\x7d'.toUInt8]) = .ok result ↔
      (∀ field ∈ fields, field.2.depth ≤ depth) ∧
        result = ((some kind, Draft.ofFields fields), ['\x7d'.toUInt8]) := by
  obtain ⟨⟨kind?, members⟩, rest⟩ := result
  have hdrafts := @Draft.readMembers_eq_ok_iff _ Layout.compact_spaced _ depth _ _ _ hadmitted
    hbudget hsteps _ blank_nil [] (members, rest)
  rw [List.nil_append] at hdrafts
  rw [readMembers_eq_ok_iff fun member hmember => absurd hmember List.not_mem_nil, hdrafts]
  constructor
  · rintro ⟨rfl, ⟨hdepth, hresult⟩, _⟩
    cases hresult
    exact ⟨hdepth, rfl⟩
  · rintro ⟨hdepth, hresult⟩
    cases hresult
    refine ⟨rfl, ⟨hdepth, rfl⟩, ?_⟩
    rw [Draft.ofFields_eq_map]
    intro member hmember
    rcases List.mem_map.mp hmember with ⟨field, hfield, rfl⟩
    exact hkeys field hfield

/-- What is written for a message is read as its kind and the drafts of its fields, if they do not
have too many brackets, and not at all if they do. -/
theorem read_bytes_eq_ok_iff {m : Message}
    (hadmitted : ∀ field ∈ m.fields, ∃ deep, field.2.Admitted deep)
    (hbudget : m.bytes.length ≤ budget) {result : Envelope × Bytes} :
    read budget m.bytes = .ok result ↔
      (∀ field ∈ m.fields, field.2.depth ≤ nestingLimit - 1) ∧
        result = (⟨m.kind, .members (Draft.ofFields m.fields)⟩, []) := by
  have hlength := congrArg List.length (bytes_eq m)
  simp only [List.length_cons, List.length_append, List.length_nil] at hlength
  have hcount := length_fields_le .compact 1 m.fields
  obtain ⟨steps, rfl⟩ := Nat.exists_eq_succ_of_ne_zero (n := budget) (by omega)
  have hfields {found : (Option Kind × List (String × Draft)) × Bytes} :=
    @readMembers_fields_iff steps.succ steps (nestingLimit - 1) m.fields m.kind hadmitted
      (fields_key_ne m) (by omega) (by omega) found
  have hhead : ∀ bs, readHead steps.succ ('\x7b'.toUInt8 :: bs) = .ok (.object, bs) :=
    fun _ => rfl
  have hkey := @nextKey_first steps.succ kindKey (by omega) _ blank_nil
    (':'.toUInt8 :: (encodeChars (stringChars m.kind.name) ++
      (encodeChars (printFields .compact 1 m.fields) ++ ['\x7d'.toUInt8])))
  have hkind := @readKind_written steps.succ m.kind (by omega)
    (encodeChars (printFields .compact 1 m.fields) ++ ['\x7d'.toUInt8])
  rw [List.nil_append] at hkey
  rw [bytes_eq, read, hhead]
  simp only [bind, Except.bind, readObject, readMembers, hkey, if_true, readColon_colon, hkind]
  cases hread : readMembers steps.succ (Draft.read steps.succ (nestingLimit - 1)) steps false
      (some m.kind) [] (encodeChars (printFields .compact 1 m.fields) ++ ['\x7d'.toUInt8]) with
  | error stop =>
      constructor
      · intro h
        cases h
      · rintro ⟨hdepth, _⟩
        rw [hfields.mpr ⟨hdepth, rfl⟩] at hread
        cases hread
  | ok found =>
      obtain ⟨hdepth, rfl⟩ := hfields.mp hread
      simp only [endObject_brace]
      constructor
      · intro h
        cases h
        exact ⟨hdepth, rfl⟩
      · rintro ⟨_, rfl⟩
        rfl

/-! ## What an envelope holds -/

def drafts : Body → List Draft
  | .members members => members.map Prod.snd
  | .items items => items

theorem readMembers_forall {P : Draft → Prop}
    (hitem : ∀ bs draft rest, item bs = .ok (draft, rest) → P draft) {steps : Nat} {first : Bool}
    {kind? kindRead? : Option Kind} {done members : List (String × Draft)} {bs rest : Bytes}
    (hdone : ∀ member ∈ done, P member.2)
    (hread : readMembers budget item steps first kind? done bs =
      .ok ((kindRead?, members), rest)) : ∀ member ∈ members, P member.2 := by
  induction steps generalizing first kind? done bs with
  | zero => cases hread
  | succ steps ih =>
      rw [readMembers, Except.bind_eq_ok_iff] at hread
      rcases hread with ⟨⟨key?, next⟩, _, hread⟩
      cases key? with
      | none =>
          cases hread
          intro member hmember
          exact hdone member (List.mem_reverse.mp hmember)
      | some key =>
          by_cases hkey : key = kindKey
          · simp only [if_pos hkey] at hread
            cases kind? with
            | some kind => cases hread
            | none =>
                simp only [] at hread
                rw [Except.bind_eq_ok_iff] at hread
                rcases hread with ⟨colon, _, hread⟩
                rw [Except.bind_eq_ok_iff] at hread
                rcases hread with ⟨⟨kind, after⟩, _, hread⟩
                exact ih hdone hread
          · simp only [if_neg hkey] at hread
            rw [Except.bind_eq_ok_iff] at hread
            rcases hread with ⟨colon, _, hread⟩
            rw [Except.bind_eq_ok_iff] at hread
            rcases hread with ⟨⟨draft, after⟩, hdraft, hread⟩
            exact ih (List.forall_mem_cons.mpr ⟨hitem _ _ _ hdraft, hdone⟩) hread

theorem drafts_fit {input rest : Bytes} {envelope : Envelope}
    (hread : read budget input = .ok (envelope, rest)) :
    ∀ draft ∈ drafts envelope.body, draft.Fits (nestingLimit - 1) := by
  have hitem : ∀ bs draft rest, Draft.read budget (nestingLimit - 1) bs = .ok (draft, rest) →
      draft.Fits (nestingLimit - 1) := fun _ _ _ h => Draft.fits_of_read h
  rw [read, Except.bind_eq_ok_iff] at hread
  rcases hread with ⟨⟨head, next⟩, _, hread⟩
  cases head with
  | scalar s => cases hread
  | object =>
      simp only [readObject] at hread
      rw [Except.bind_eq_ok_iff] at hread
      rcases hread with ⟨⟨⟨kind?, members⟩, after⟩, hmembers, hread⟩
      cases kind? with
      | none => cases hread
      | some kind =>
          simp only [] at hread
          rw [Except.bind_eq_ok_iff] at hread
          rcases hread with ⟨close, _, hread⟩
          cases hread
          have hfits := readMembers_forall hitem (by simp) hmembers
          intro draft hdraft
          rcases List.mem_map.mp hdraft with ⟨member, hmember, rfl⟩
          exact hfits member hmember
  | list =>
      simp only [readList] at hread
      rw [Except.bind_eq_ok_iff] at hread
      rcases hread with ⟨⟨more, after⟩, _, hread⟩
      cases more with
      | false => cases hread
      | true =>
          simp only [if_true] at hread
          rw [Except.bind_eq_ok_iff] at hread
          rcases hread with ⟨⟨kind, later⟩, _, hread⟩
          rw [Except.bind_eq_ok_iff] at hread
          rcases hread with ⟨⟨items, last⟩, hitems, hread⟩
          rw [Except.bind_eq_ok_iff] at hread
          rcases hread with ⟨close, _, hread⟩
          cases hread
          exact readItems_forall hitem (by simp) hitems

end Envelope

/-! ## Messages from their fields -/

theorem numeralOf_carried (n : Numeral) :
    numeralOf (.object [(reservedKey, .string n.text)]) = .ok n := by
  simp only [numeralOf, if_true, Draft.carriedNumber, Numeral.ofText_text, Draft.onlyOneMember,
    List.length_singleton]
  rfl

theorem numeralOf_ofNumeral (n : Numeral) : numeralOf (Draft.ofNumeral n) = .ok n := by
  unfold Draft.ofNumeral
  cases hmachine : n.machine? with
  | some i => simp only [numeralOf, Numeral.ofInt_of_machine? hmachine]
  | none => exact numeralOf_carried n

theorem codeOf?_eq_some_iff {n : Numeral} {code : Int32} :
    codeOf? n = some code ↔ n.integer? = some code.toInt := by
  have hlow := code.le_toInt
  have hhigh := code.toInt_lt
  unfold codeOf?
  cases n.integer? with
  | none => simp
  | some i =>
      simp only [Option.some.injEq]
      split_ifs with hrange
      · rw [Option.some.injEq]
        constructor
        · rintro rfl
          exact (Int32.toInt_ofInt_of_le (by omega) (by omega)).symm
        · rintro rfl
          exact Int32.ofInt_toInt code
      · constructor
        · intro h
          cases h
        · rintro rfl
          exact absurd ⟨by omega, by omega⟩ hrange

theorem errorCode_ofNumeral {n : Numeral} {code : Int32} :
    errorCode (Draft.ofNumeral n) = .ok code ↔ n.integer? = some code.toInt := by
  rw [← codeOf?_eq_some_iff]
  simp only [errorCode, numeralOf_ofNumeral, bind, Except.bind]
  cases codeOf? n <;> simp [pure, Except.pure]

theorem errorCode_ofValue (code : Int32) :
    errorCode (Draft.ofValue (.number (Numeral.ofInt code.toInt))) = .ok code :=
  errorCode_ofNumeral.mpr (Numeral.integer?_ofInt code.toInt)

theorem values_ofValue {depth : Nat} {args : List Value} (h : (Value.array args).Admitted depth) :
    Record.values (Draft.ofValue (.array args)) = .ok args := by
  have hvalue := Draft.toValue_ofValue h
  rw [Draft.ofValue, Draft.toValue] at hvalue
  rw [Draft.ofValue, Record.values]
  cases hvalues : Draft.toValues (Draft.ofItems args) with
  | error cause => simp [hvalues] at hvalue
  | ok values =>
      simp only [hvalues] at hvalue
      cases hvalue
      rfl

theorem Message.ofMembers_call {target : Target} {method : String} {args : List Value}
    {targetDraft argsDraft : Draft} (htarget : targetOf targetDraft = .ok target)
    (hargs : Record.values argsDraft = .ok args) :
    Message.ofMembers
        [("Target", targetDraft), ("Method", .string method), ("Args", argsDraft)] .invoke =
      .ok (.invoke target method args) := by
  have hmethod : Record.string (.string method) = .ok method := rfl
  simp [Message.ofMembers, Record.readMembers, Record.field, Record.both, htarget, hmethod, hargs,
    Record.required, bind, Except.bind, Except.map, pure, Except.pure]

theorem Message.ofMembers_ofFields {m : Message}
    (hadmitted : ∀ field ∈ m.fields, ∃ deep, field.2.Admitted deep) :
    Message.ofMembers (Draft.ofFields m.fields) m.kind = .ok m := by
  have hstring (s : String) : Record.string (Draft.ofValue (.string s)) = .ok s := rfl
  cases m with
  | returnValue value =>
      rcases hadmitted ("Value", value) List.mem_cons_self with ⟨deep, hvalue⟩
      simp [Message.ofMembers, Message.kind, Message.fields, Draft.ofFields, Record.readMembers,
        Record.field, Draft.toValue_ofValue hvalue, bind, Except.bind, Except.map, pure,
        Except.pure]
  | event told =>
      rcases hadmitted ("Payload", told.payload)
        (List.mem_cons_of_mem _ List.mem_cons_self) with ⟨deep, hpayload⟩
      simp [Message.ofMembers, Message.kind, Message.fields, Draft.ofFields, Record.readMembers,
        Record.field, Record.both, hstring, Record.required, Draft.toValue_ofValue hpayload, bind,
        Except.bind, Except.map, pure, Except.pure]
  | error code message =>
      simp [Message.ofMembers, Message.kind, Message.fields, Draft.ofFields, Record.readMembers,
        Record.field, Record.both, errorCode_ofValue, hstring, Record.required, bind, Except.bind,
        Except.map, pure, Except.pure]
  | invoke target method args =>
      rcases hadmitted ("Args", .array args)
        (List.mem_cons_of_mem _ (List.mem_cons_of_mem _ List.mem_cons_self)) with ⟨deep, hargs⟩
      have htarget : targetOf (Draft.ofValue (.object target.fields)) = .ok target := rfl
      exact Message.ofMembers_call htarget (values_ofValue hargs)
  | ready | imported | importPackage | shutdown => rfl

/-! ## What a message carries -/

/-- Reading a member keeps what holds of the fields read so far. -/
def Keeps {σ : Type} (P : Draft → Prop) (I : σ → Prop) (accept : Record.Accept σ) : Prop :=
  ∀ key draft state next, P draft → I state → accept key draft state = some (.ok next) → I next

theorem keeps_field {α : Type} {P : Draft → Prop} {Q : α → Prop} (name : String)
    (read : Draft → Except Cause α) (h : ∀ draft a, P draft → read draft = .ok a → Q a) :
    Keeps P (fun slot => ∀ a, slot = some a → Q a) (Record.field name read) := by
  intro key draft slot next hdraft hslot haccept
  unfold Record.field at haccept
  split_ifs at haccept
  cases slot with
  | some a => cases haccept
  | none =>
      cases hread : read draft with
      | error cause => simp [hread, Except.map] at haccept
      | ok a =>
          simp only [hread, Except.map, Option.some.injEq, Except.ok.injEq] at haccept
          rw [← haccept]
          intro b hb
          cases hb
          exact h draft a hdraft hread

theorem keeps_any {σ : Type} (P : Draft → Prop) (accept : Record.Accept σ) :
    Keeps P (fun _ => True) accept := fun _ _ _ _ _ _ _ => trivial

theorem Keeps.both {σ τ : Type} {P : Draft → Prop} {I : σ → Prop} {J : τ → Prop}
    {a : Record.Accept σ} {b : Record.Accept τ} (ha : Keeps P I a) (hb : Keeps P J b) :
    Keeps P (fun state => I state.1 ∧ J state.2) (Record.both a b) := by
  rintro key draft ⟨s, t⟩ ⟨s', t'⟩ hdraft ⟨hs, ht⟩ haccept
  unfold Record.both at haccept
  cases hfirst : a key draft s with
  | some outcome =>
      cases outcome with
      | error cause => simp [hfirst, Except.map] at haccept
      | ok state =>
          simp only [hfirst, Except.map, Option.some.injEq, Except.ok.injEq, Prod.mk.injEq]
            at haccept
          obtain ⟨rfl, rfl⟩ := haccept
          exact ⟨ha key draft s state hdraft hs hfirst, ht⟩
  | none =>
      cases hsecond : b key draft t with
      | none => simp [hfirst, hsecond] at haccept
      | some outcome =>
          cases outcome with
          | error cause => simp [hfirst, hsecond, Except.map] at haccept
          | ok state =>
              simp only [hfirst, hsecond, Except.map, Option.map_some, Option.some.injEq,
                Except.ok.injEq, Prod.mk.injEq] at haccept
              obtain ⟨rfl, rfl⟩ := haccept
              exact ⟨hs, hb key draft t state hdraft ht hsecond⟩

theorem Keeps.readMembers {σ : Type} {P : Draft → Prop} {I : σ → Prop}
    {accept : Record.Accept σ} (h : Keeps P I accept) {members : List (String × Draft)}
    (hmembers : ∀ member ∈ members, P member.2) {state last : σ} (hstate : I state)
    (hread : Record.readMembers accept state members = .ok last) : I last := by
  induction members generalizing state with
  | nil =>
      cases hread
      exact hstate
  | cons member rest ih =>
      obtain ⟨key, draft⟩ := member
      rw [List.forall_mem_cons] at hmembers
      rw [Record.readMembers] at hread
      cases haccept : accept key draft state with
      | none =>
          simp only [haccept] at hread
          exact ih hmembers.right hstate hread
      | some outcome =>
          cases outcome with
          | error cause => simp [haccept] at hread
          | ok next =>
              simp only [haccept] at hread
              exact ih hmembers.right (h key draft state next hmembers.left hstate haccept) hread

/-- A text with at most `depth` brackets open at once can stand for what the message carries. -/
def Message.Fits (depth : Nat) : Message → Prop
  | .returnValue value => value.Admitted depth
  | .event told => told.payload.Admitted depth
  | .invoke _ _ args => (Value.array args).Admitted depth
  | .ready _ _ | .imported _ | .error _ _ | .importPackage _ _ | .shutdown => True

theorem admitted_null (depth : Nat) : Value.null.Admitted depth := Scalar.admitted depth .null

theorem admitted_empty (depth : Nat) : (Value.array []).Admitted (depth + 1) :=
  Value.admitted_array.mpr fun _ hitem => absurd hitem List.not_mem_nil

theorem values_admitted {depth : Nat} {draft : Draft} {values : List Value}
    (hdraft : draft.Fits depth) (h : Record.values draft = .ok values) :
    (Value.array values).Admitted depth := by
  cases draft with
  | list items =>
      apply hdraft
      rw [Draft.toValue]
      rw [Record.values] at h
      simp only [h]
  | null | bool | integer | string | object => cases h

theorem Message.fits_of_members {depth : Nat} {members : List (String × Draft)} {kind : Kind}
    {m : Message} (hmembers : ∀ member ∈ members, member.2.Fits (depth + 1))
    (h : Message.ofMembers members kind = .ok m) : m.Fits (depth + 1) := by
  have hempty {α : Type} {Q : α → Prop} : ∀ a, (none : Option α) = some a → Q a := by
    intro a ha
    cases ha
  have hvalue (name : String) := keeps_field name Draft.toValue
    fun draft value (hdraft : draft.Fits (depth + 1)) hread => hdraft value hread
  have hvalues (name : String) := keeps_field name Record.values
    fun draft values (hdraft : draft.Fits (depth + 1)) hread => values_admitted hdraft hread
  cases kind with
  | ready | error | importPackage =>
      simp only [Message.ofMembers, Except.bind_eq_ok_iff, Prod.exists] at h
      rcases h with ⟨_, _, _, _, _, _, _, h⟩
      cases h
      trivial
  | imported =>
      simp only [Message.ofMembers, Except.bind_eq_ok_iff] at h
      rcases h with ⟨_, _, _, _, h⟩
      cases h
      trivial
  | returnValue =>
      simp only [Message.ofMembers, Except.bind_eq_ok_iff] at h
      rcases h with ⟨value, hread, h⟩
      cases h
      have hkept := (hvalue "Value").readMembers hmembers hempty hread
      cases value with
      | none => exact admitted_null _
      | some value => exact hkept value rfl
  | event =>
      simp only [Message.ofMembers, Except.bind_eq_ok_iff, Prod.exists] at h
      rcases h with ⟨name, payload, hread, text, _, h⟩
      cases h
      obtain ⟨_, hkept⟩ := ((keeps_any _ _).both (hvalue "Payload")).readMembers hmembers
        ⟨trivial, hempty⟩ hread
      cases payload with
      | none => exact admitted_null _
      | some payload => exact hkept payload rfl
  | invoke =>
      simp only [Message.ofMembers, Except.bind_eq_ok_iff, Prod.exists] at h
      rcases h with ⟨target, method, args, hread, place, _, text, _, h⟩
      cases h
      obtain ⟨_, _, hkept⟩ := ((keeps_any _ _).both ((keeps_any _ _).both
        (hvalues "Args"))).readMembers hmembers ⟨trivial, trivial, hempty⟩ hread
      cases args with
      | none => exact admitted_empty depth
      | some args => exact hkept args rfl
  | shutdown =>
      cases h
      trivial

theorem nextPart_eq_ok {α : Type} {expected : String} {read : Draft → Except Cause α} {place : Nat}
    {items rest : List Draft} {a : α}
    (h : Record.nextPart expected read place items = .ok (a, rest)) :
    ∃ draft, items = draft :: rest := by
  cases items with
  | nil => cases h
  | cons draft others =>
      rw [Record.nextPart] at h
      cases hread : read draft with
      | error cause => simp [hread, Except.map] at h
      | ok b =>
          simp only [hread, Except.map, Except.ok.injEq, Prod.mk.injEq] at h
          exact ⟨draft, by rw [h.right]⟩

theorem nextPartOr_eq_ok {α : Type} {default a : α} {read : Draft → Except Cause α}
    {items rest : List Draft} (h : Record.nextPartOr default read items = .ok (a, rest)) :
    a = default ∨ ∃ draft ∈ items, read draft = .ok a := by
  cases items with
  | nil =>
      cases h
      exact Or.inl rfl
  | cons draft others =>
      rw [Record.nextPartOr] at h
      cases hread : read draft with
      | error cause => simp [hread, Except.map] at h
      | ok b =>
          simp only [hread, Except.map, Except.ok.injEq, Prod.mk.injEq] at h
          obtain ⟨rfl, _⟩ := h
          exact Or.inr ⟨draft, List.mem_cons_self, hread⟩

theorem Message.fits_of_items {depth : Nat} {items : List Draft} {kind : Kind} {m : Message}
    (hitems : ∀ item ∈ items, item.Fits (depth + 1)) (h : Message.ofItems items kind = .ok m) :
    m.Fits (depth + 1) := by
  cases kind with
  | ready | error | importPackage =>
      simp only [Message.ofItems, Except.bind_eq_ok_iff, Prod.exists] at h
      rcases h with ⟨_, _, _, h⟩
      cases h
      trivial
  | imported =>
      simp only [Message.ofItems, Except.bind_eq_ok_iff, Prod.exists] at h
      rcases h with ⟨_, _, _, _, _, h⟩
      cases h
      trivial
  | returnValue =>
      simp only [Message.ofItems, Except.bind_eq_ok_iff, Prod.exists] at h
      rcases h with ⟨value, _, hpart, _, _, h⟩
      cases h
      rcases nextPartOr_eq_ok hpart with rfl | ⟨draft, hdraft, hread⟩
      · exact admitted_null _
      · exact hitems draft hdraft value hread
  | event => cases h
  | invoke =>
      simp only [Message.ofItems, Except.bind_eq_ok_iff, Prod.exists] at h
      rcases h with ⟨target, _, htarget, method, _, hmethod, args, _, hpart, _, _, h⟩
      cases h
      rcases nextPart_eq_ok htarget with ⟨first, rfl⟩
      rcases nextPart_eq_ok hmethod with ⟨second, rfl⟩
      rcases nextPartOr_eq_ok hpart with rfl | ⟨draft, hdraft, hread⟩
      · exact admitted_empty depth
      · have hmem := List.mem_cons_of_mem first (List.mem_cons_of_mem second hdraft)
        exact values_admitted (hitems draft hmem) hread
  | shutdown =>
      simp only [Message.ofItems, Except.bind_eq_ok_iff] at h
      rcases h with ⟨_, _, h⟩
      cases h
      trivial

theorem Message.fits_of_ofBytes {input : Bytes} {m : Message} (h : Message.ofBytes input = .ok m) :
    m.Fits (nestingLimit - 1) := by
  unfold Message.ofBytes at h
  cases hread : Envelope.read (input.length + 1) input with
  | error stop => simp [hread] at h
  | ok result =>
      obtain ⟨⟨kind, body⟩, rest⟩ := result
      have hfits := Envelope.drafts_fit hread
      cases hmessage : Message.ofEnvelope ⟨kind, body⟩ with
      | error cause => simp [hread, hmessage] at h
      | ok found =>
          cases hend : readEnd rest with
          | error stop => simp [hread, hmessage, hend] at h
          | ok _ =>
              simp only [hread, hmessage, hend] at h
              cases h
              cases body with
              | members members =>
                  refine Message.fits_of_members ?_ hmessage
                  intro member hmember
                  exact hfits member.2 (List.mem_map_of_mem hmember)
              | items items => exact Message.fits_of_items hfits hmessage

theorem target_admitted (depth : Nat) (target : Target) :
    (Value.object target.fields).Admitted (depth + 1) := by
  rw [Value.admitted_object]
  refine ⟨by simp [Target.fields, Mapping.Distinct, Mapping.keys],
    by simp [Target.fields, Mapping.keys, reservedKey], ?_⟩
  intro field hfield
  simp only [Target.fields, List.mem_cons, List.not_mem_nil, or_false] at hfield
  rcases hfield with rfl | rfl
  · exact Scalar.admitted depth (.string _)
  · exact Scalar.admitted depth (.string _)

theorem Message.fields_admitted {depth : Nat} {m : Message} (h : m.Fits (depth + 1)) :
    ∀ field ∈ m.fields, field.2.Admitted (depth + 1) := by
  have hstring (s : String) : (Value.string s).Admitted (depth + 1) := Scalar.admitted _ (.string s)
  have hnumber (n : Numeral) : (Value.number n).Admitted (depth + 1) := Scalar.admitted _ (.number n)
  cases m with
  | returnValue value =>
      have hvalue : value.Admitted (depth + 1) := h
      simp [Message.fields, hvalue]
  | event told =>
      have hpayload : told.payload.Admitted (depth + 1) := h
      simp [Message.fields, hstring, hpayload]
  | invoke target method args =>
      have hargs : (Value.array args).Admitted (depth + 1) := h
      simp [Message.fields, hstring, hargs, target_admitted]
  | ready | imported | error | importPackage | shutdown => simp [Message.fields, hstring, hnumber]

/-! ## Messages -/

/-- How many brackets are open at most at one place of what is written for a message: one for the
message, and one more for the arguments of a call. -/
def Message.levels : Message → Nat
  | .returnValue value => 1 + value.depth
  | .event told => 1 + told.payload.depth
  | .invoke _ _ args => 2 + itemsDepth args
  | .ready _ _ | .imported _ | .error _ _ | .importPackage _ _ | .shutdown => 1

theorem Message.depth_toValue (m : Message) : m.toValue.depth = m.levels := by
  cases m with
  | invoke target method args =>
      simp only [Message.toValue, Message.fields, Target.fields, Message.levels, Value.depth,
        fieldsDepth, Nat.le_refl, Nat.max_eq_right, Nat.add_zero, Nat.zero_le, Nat.max_eq_left,
        Nat.le_add_right]
      omega
  | ready | imported | returnValue | event | error | importPackage | shutdown =>
      simp [Message.toValue, Message.fields, Message.levels, Value.depth, fieldsDepth]

theorem Message.depth_lt_iff (m : Message) :
    m.toValue.depth < nestingLimit + 1 ↔ ∀ field ∈ m.fields, field.2.depth ≤ nestingLimit - 1 := by
  rw [← fieldsDepth_le_iff, Message.toValue, Value.depth, fieldsDepth, Value.depth, nestingLimit]
  omega

theorem Message.ofBytes_bytes {m : Message}
    (hadmitted : ∀ field ∈ m.fields, ∃ deep, field.2.Admitted deep) :
    (m.toValue.depth < nestingLimit + 1 → Message.ofBytes m.bytes = .ok m) ∧
      (¬ m.toValue.depth < nestingLimit + 1 → ∃ fault, Message.ofBytes m.bytes = .error fault) := by
  have hread {result : Envelope × Bytes} :=
    @Envelope.read_bytes_eq_ok_iff _ m hadmitted (Nat.le_succ m.bytes.length) result
  rw [Message.depth_lt_iff]
  constructor
  · intro hdepth
    have hend : readEnd [] = .ok () := rfl
    simp only [Message.ofBytes, hread.mpr ⟨hdepth, rfl⟩, Message.ofEnvelope,
      Message.ofMembers_ofFields hadmitted, hend]
  · intro hdepth
    cases houtcome : Envelope.read (m.bytes.length + 1) m.bytes with
    | error stop => exact ⟨stop.fault m.bytes, by simp only [Message.ofBytes, houtcome]⟩
    | ok result => exact absurd (hread.mp houtcome).left hdepth

def Message.carried : Message → List Value
  | .returnValue value => [value]
  | .event told => [told.payload]
  | .invoke _ _ args => args
  | .ready _ _ | .imported _ | .error _ _ | .importPackage _ _ | .shutdown => []

theorem Message.fits_of_carried {depth : Nat} {m : Message}
    (h : ∀ value ∈ m.carried, value.Admitted depth) : m.Fits (depth + 1) := by
  have hdeeper {value : Value} (hvalue : value.Admitted depth) : value.Admitted (depth + 1) :=
    ⟨hvalue.wellFormed, hvalue.unreserved, Nat.le_succ_of_le hvalue.depth_le⟩
  cases m with
  | returnValue value => exact hdeeper (h value List.mem_cons_self)
  | event told => exact hdeeper (h told.payload List.mem_cons_self)
  | invoke target method args => exact Value.admitted_array.mpr h
  | ready | imported | error | importPackage | shutdown => trivial

theorem Message.ofBytes_of_empty {m : Message} (h : m.carried = []) :
    Message.ofBytes m.bytes = .ok m := by
  have hfits : m.Fits (nestingLimit + 1) := by
    refine Message.fits_of_carried fun value hvalue => ?_
    rw [h] at hvalue
    cases hvalue
  refine (Message.ofBytes_bytes fun field hfield =>
    ⟨_, Message.fields_admitted hfits field hfield⟩).left ?_
  rw [Message.depth_toValue]
  cases m with
  | returnValue | event => cases h
  | invoke target method args =>
      cases h
      exact (by decide : 2 < nestingLimit + 1)
  | ready | imported | error | importPackage | shutdown =>
      exact (by decide : 1 < nestingLimit + 1)

/-- A message whose values come from texts is read back from its bytes, every value field for
field and digit for digit, if fewer than 128 brackets are open at once in them, and is refused
otherwise.  A message that any bytes stand for is always read back from its own. -/
theorem messages_read_back :
    (∀ m : Message, (∀ value ∈ m.carried, ∃ input, Value.ofBytes input = .ok value) →
      m.toValue.depth = m.levels ∧
        (m.levels < 128 → Message.ofBytes m.bytes = .ok m) ∧
        (128 ≤ m.levels → ∃ fault, Message.ofBytes m.bytes = .error fault)) ∧
      ∀ input m, Message.ofBytes input = .ok m → Message.ofBytes m.bytes = .ok m := by
  constructor
  · intro m hcarried
    have hfits : m.Fits (nestingLimit + 1) := by
      refine Message.fits_of_carried fun value hvalue => ?_
      rcases hcarried value hvalue with ⟨input, hinput⟩
      exact Value.admitted_of_ofBytes hinput
    obtain ⟨hread, hrefused⟩ := Message.ofBytes_bytes (m := m)
      fun field hfield => ⟨_, Message.fields_admitted hfits field hfield⟩
    rw [Message.depth_toValue] at hread hrefused
    exact ⟨Message.depth_toValue m, hread, fun hdeep => hrefused (Nat.not_lt.mpr hdeep)⟩
  · intro input m h
    have hadmitted := Message.fields_admitted (Message.fits_of_ofBytes h)
    refine (Message.ofBytes_bytes fun field hfield => ⟨_, hadmitted field hfield⟩).left ?_
    rw [Message.depth_lt_iff]
    exact fun field hfield => (hadmitted field hfield).depth_le

def hugeNumeral : Numeral :=
  ⟨false, .ofNat 1, none, some ⟨false, .ofNat 400⟩, Digits.canonical_ofNat 1⟩

theorem huge_argument_read_back :
    Value.ofBytes (Utf8.encode "[1E400]") = .ok (.array [.number hugeNumeral]) ∧
      let call : Message := .invoke ⟨"cards", "Card"⟩ "cost" [.array [.number hugeNumeral]]
      call.levels = 3 ∧ Message.ofBytes call.bytes = .ok call := by
  have hparsed : Value.ofBytes (Utf8.encode "[1E400]") = .ok (.array [.number hugeNumeral]) := rfl
  refine ⟨hparsed, rfl, ?_⟩
  refine (messages_read_back.left _ ?_).right.left (by decide)
  intro value hvalue
  cases List.mem_singleton.mp hvalue
  exact ⟨_, hparsed⟩

end Engine
end Cardsmith
