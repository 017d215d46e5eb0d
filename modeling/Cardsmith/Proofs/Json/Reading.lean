import Cardsmith.Json.Reader
import Cardsmith.Proofs.Json.Admitted
import Cardsmith.Proofs.Json.Numerals
import Cardsmith.Proofs.Json.Printing

/-!
# Reading written values

Every admitted value is read back from what any layout that only adds blanks writes for it.  The
induction is on how many brackets may be open, as in the reader; inside a container it goes
along the items or the fields.
-/

namespace Cardsmith
namespace Json

open Utf8

/-! ## Blanks -/

def Blank (bs : Bytes) : Prop := ∀ b ∈ bs, isBlankByte b = true

theorem blank_nil : Blank [] := by
  intro b hb
  cases hb

theorem skipBlanks_append {blanks : Bytes} (h : Blank blanks) (bs : Bytes) :
    skipBlanks (blanks ++ bs) = skipBlanks bs :=
  List.dropWhile_append_of_pos h

theorem skipBlanks_cons {b : UInt8} (h : isBlankByte b = false) (rest : Bytes) :
    skipBlanks (b :: rest) = b :: rest := by
  simp [skipBlanks, h]

theorem skipBlanks_append_cons {blanks : Bytes} (h : Blank blanks) {b : UInt8}
    (hb : isBlankByte b = false) (rest : Bytes) :
    skipBlanks (blanks ++ b :: rest) = b :: rest := by
  rw [skipBlanks_append h, skipBlanks_cons hb]

theorem readHead_blanks {budget : Nat} {blanks : Bytes} (h : Blank blanks) (bs : Bytes) :
    readHead budget (blanks ++ bs) = readHead budget bs := by
  unfold readHead
  rw [skipBlanks_append h]

theorem readValue_blanks {budget depth : Nat} {blanks : Bytes} (h : Blank blanks) (bs : Bytes) :
    readValue budget depth (blanks ++ bs) = readValue budget depth bs := by
  cases depth <;> rw [readValue, readValue, readHead_blanks h]

/-! ## Ends of numerals -/

theorem endsNumeral_cons {b : UInt8}
    (h : digit? b = none ∧ b ≠ '.'.toUInt8 ∧ b ≠ 'e'.toUInt8 ∧ b ≠ 'E'.toUInt8) (rest : Bytes) :
    EndsNumeral (b :: rest) := by
  intro d hd
  cases hd
  exact h

theorem endsNumeral_blanks {blanks bs : Bytes} (h : Blank blanks) (hbs : EndsNumeral bs) :
    EndsNumeral (blanks ++ bs) := by
  cases blanks with
  | nil => exact hbs
  | cons b rest =>
      have hb := h b List.mem_cons_self
      simp only [isBlankByte, Bool.or_eq_true, decide_eq_true_eq] at hb
      rw [List.cons_append]
      rcases hb with ((rfl | rfl) | rfl) | rfl <;> exact endsNumeral_cons (by decide) _

/-! ## Layouts that only add blanks -/

/-- What the layout puts between parts is blank, a colon in it apart. -/
structure Layout.Spaced (layout : Layout) : Prop where
  line : ∀ level, Blank (encodeChars (layout.line level))
  colon : ∃ blanks, encodeChars layout.colon = ':'.toUInt8 :: blanks ∧ Blank blanks

theorem Layout.compact_spaced : Layout.compact.Spaced :=
  ⟨fun _ => blank_nil, [], by decide, blank_nil⟩

theorem blank_spaces (count : Nat) : Blank (encodeChars (List.replicate count ' ')) := by
  induction count with
  | zero => exact blank_nil
  | succ count ih =>
      rw [List.replicate_succ, encodeChars_cons_ascii (by decide)]
      intro b hb
      rcases List.mem_cons.mp hb with rfl | hrest
      · decide
      · exact ih b hrest

theorem Layout.indented_spaced : Layout.indented.Spaced := by
  constructor
  · intro level b hb
    have hline : Layout.indented.line level = '\n' :: List.replicate (2 * level) ' ' := rfl
    rw [hline, encodeChars_cons_ascii (by decide)] at hb
    rcases List.mem_cons.mp hb with rfl | hspace
    · decide
    · exact blank_spaces _ b hspace
  · refine ⟨[' '.toUInt8], by decide, ?_⟩
    intro b hb
    rw [List.mem_singleton.mp hb]
    decide

/-! ## Values without parts -/

theorem readHead_numeral {budget : Nat} {b : UInt8} (h : (digit? b).isSome) (rest : Bytes) :
    readHead budget (b :: rest) = (do
      let (n, rest) ← readNumeral false (b :: rest)
      pure (.scalar (.number n), rest)) := by
  have hne : ∀ {c : UInt8}, (digit? c).isSome = false → b ≠ c := by
    rintro c hc rfl
    rw [hc] at h
    cases h
  have hblank : isBlankByte b = false := by
    simp only [isBlankByte, Bool.or_eq_false_iff, decide_eq_false_iff_not]
    exact ⟨⟨⟨hne (by decide), hne (by decide)⟩, hne (by decide)⟩, hne (by decide)⟩
  simp only [readHead, skipBlanks_cons hblank]
  rw [if_neg (hne (by decide)), if_neg (hne (by decide)), if_neg (hne (by decide)),
    if_neg (hne (by decide)), if_pos h]

theorem readHead_minus {budget : Nat} (rest : Bytes) :
    readHead budget ('-'.toUInt8 :: rest) = (do
      let (n, rest) ← readNumeral true rest
      pure (.scalar (.number n), rest)) := rfl

theorem readHead_quote {budget : Nat} (rest : Bytes) :
    readHead budget ('"'.toUInt8 :: rest) = (do
      let (s, rest) ← readString budget rest
      pure (.scalar (.string s), rest)) := rfl

theorem readHead_list (budget : Nat) (rest : Bytes) :
    readHead budget ('['.toUInt8 :: rest) = .ok (.list, rest) := rfl

theorem readHead_object (budget : Nat) (rest : Bytes) :
    readHead budget ('\x7b'.toUInt8 :: rest) = .ok (.object, rest) := rfl

theorem readHead_number {budget : Nat} (spelling : Spelling) (n : Numeral) {rest : Bytes}
    (h : EndsNumeral rest) :
    readHead budget (encodeChars (n.spelled spelling) ++ rest) =
      .ok (.scalar (.number n), rest) := by
  have hread := readNumeral_written spelling n h
  rw [Numeral.spelled]
  cases hnegative : n.negative with
  | true =>
      rw [hnegative] at hread
      rw [if_pos rfl, List.singleton_append, encodeChars_cons_ascii (by decide), List.cons_append,
        readHead_minus, hread]
      rfl
  | false =>
      rw [hnegative] at hread
      rw [if_neg Bool.false_ne_true, List.nil_append]
      have hfirst : (digit? n.whole.head.char.toUInt8).isSome := by
        rw [digit?_char]
        rfl
      rw [Numeral.unsignedChars, encodeChars_append, encodeChars_digits, List.cons_append,
        List.cons_append] at hread ⊢
      rw [readHead_numeral hfirst, hread]
      rfl

theorem readHead_string {budget : Nat} (s : String)
    (hbudget : (encodeChars (stringChars s)).length ≤ budget) (rest : Bytes) :
    readHead budget (encodeChars (stringChars s) ++ rest) = .ok (.scalar (.string s), rest) := by
  rw [encodeChars_stringChars, List.cons_append, readHead_quote, List.append_assoc,
    List.singleton_append, readString_written s hbudget]
  rfl

theorem readHead_scalar {budget level : Nat} {layout : Layout} (s : Scalar)
    (hbudget : (encodeChars (s.value.print layout level)).length ≤ budget) {rest : Bytes}
    (h : EndsNumeral rest) :
    readHead budget (encodeChars (s.value.print layout level) ++ rest) =
      .ok (.scalar s, rest) := by
  cases s with
  | null => rfl
  | bool b => cases b <;> rfl
  | number n =>
      rw [Scalar.value, Value.print, Numeral.chars_eq]
      exact readHead_number .plain n h
  | string s => exact readHead_string s hbudget rest

/-! ## First bytes -/

theorem exists_first (layout : Layout) (level : Nat) (v : Value) :
    ∃ b rest, encodeChars (v.print layout level) = b :: rest ∧ isBlankByte b = false ∧
      b ≠ ']'.toUInt8 := by
  cases v with
  | null => exact ⟨_, _, rfl, by decide, by decide⟩
  | bool b =>
      cases b with
      | true => exact ⟨_, _, rfl, by decide, by decide⟩
      | false => exact ⟨_, _, rfl, by decide, by decide⟩
  | number n =>
      rw [Value.print, Numeral.chars_eq, Numeral.spelled]
      cases n.negative with
      | true =>
          rw [if_pos rfl, List.singleton_append, encodeChars_cons_ascii (by decide)]
          exact ⟨_, _, rfl, by decide, by decide⟩
      | false =>
          have hdigit : ∀ d : Digit, isBlankByte d.char.toUInt8 = false ∧
              d.char.toUInt8 ≠ ']'.toUInt8 := by decide
          rw [if_neg Bool.false_ne_true, List.nil_append, Numeral.unsignedChars,
            encodeChars_append, encodeChars_digits, List.cons_append]
          exact ⟨_, _, rfl, hdigit n.whole.head⟩
  | string s =>
      rw [Value.print, encodeChars_stringChars]
      exact ⟨_, _, rfl, by decide, by decide⟩
  | array items =>
      cases items with
      | nil => exact ⟨_, _, rfl, by decide, by decide⟩
      | cons item rest =>
          rw [encodeChars_array]
          exact ⟨_, _, rfl, by decide, by decide⟩
  | object fields =>
      cases fields with
      | nil => exact ⟨_, _, rfl, by decide, by decide⟩
      | cons field rest =>
          obtain ⟨key, v⟩ := field
          rw [encodeChars_object]
          exact ⟨_, _, rfl, by decide, by decide⟩

/-! ## Lists -/

/-- The reader gives a result on the bytes, whatever blanks stand in front of them and whatever
follows that is no part of a numeral. -/
def Reads {α : Type} (read : Bytes → Except Stop (α × Bytes)) (bytes : Bytes) (a : α) : Prop :=
  ∀ blanks rest, Blank blanks → EndsNumeral rest → read (blanks ++ (bytes ++ rest)) = .ok (a, rest)

theorem nextItem_first (layout : Layout) (level : Nat) (v : Value) {blanks : Bytes}
    (hblanks : Blank blanks) (rest : Bytes) :
    nextItem true (blanks ++ (encodeChars (v.print layout level) ++ rest)) =
      .ok (true, encodeChars (v.print layout level) ++ rest) := by
  rcases exists_first layout level v with ⟨b, tail, hbytes, hblank, hclose⟩
  rw [hbytes, List.cons_append]
  simp only [nextItem, skipBlanks_append_cons hblanks hblank, if_neg hclose, if_true]

theorem nextItem_further (layout : Layout) (level : Nat) (v : Value) {blanks : Bytes}
    (hblanks : Blank blanks) (rest : Bytes) :
    nextItem false (','.toUInt8 :: (blanks ++ (encodeChars (v.print layout level) ++ rest))) =
      .ok (true, encodeChars (v.print layout level) ++ rest) := by
  rcases exists_first layout level v with ⟨b, tail, hbytes, hblank, hclose⟩
  have hcomma : isBlankByte ','.toUInt8 = false := by decide
  have hbracket : (','.toUInt8 : UInt8) ≠ ']'.toUInt8 := by decide
  rw [hbytes, List.cons_append]
  simp only [nextItem, skipBlanks_cons hcomma, skipBlanks_append_cons hblanks hblank,
    if_neg hbracket, if_neg Bool.false_ne_true, if_true, if_neg hclose]

theorem nextItem_last {blanks : Bytes} (hblanks : Blank blanks) (first : Bool) (rest : Bytes) :
    nextItem first (blanks ++ ']'.toUInt8 :: rest) = .ok (false, ']'.toUInt8 :: rest) := by
  have hbracket : isBlankByte ']'.toUInt8 = false := by decide
  simp only [nextItem, skipBlanks_append_cons hblanks hbracket, if_true]

theorem endList_bracket (rest : Bytes) : endList (']'.toUInt8 :: rest) = .ok rest := rfl

theorem endsNumeral_items (layout : Layout) (level : Nat) (items : List Value) {blanks : Bytes}
    (hblanks : Blank blanks) (rest : Bytes) :
    EndsNumeral (encodeChars (printItems layout level items) ++
      (blanks ++ ']'.toUInt8 :: rest)) := by
  cases items with
  | nil =>
      rw [printItems, encodeChars_nil, List.nil_append]
      exact endsNumeral_blanks hblanks (endsNumeral_cons (by decide) rest)
  | cons item items =>
      rw [encodeChars_printItems_cons, List.cons_append]
      exact endsNumeral_cons (by decide) _

theorem readItems_written {layout : Layout} {level : Nat} {α : Type}
    {read : Bytes → Except Stop (α × Bytes)} (result : Value → α) (hlayout : layout.Spaced)
    {items : List Value}
    (hitems : ∀ item ∈ items, Reads read (encodeChars (item.print layout level)) (result item))
    {steps : Nat} (hsteps : items.length < steps) {blanks : Bytes} (hblanks : Blank blanks)
    (done : List α) (rest : Bytes) :
    readItems read steps false done
        (encodeChars (printItems layout level items) ++ (blanks ++ ']'.toUInt8 :: rest)) =
      .ok (done.reverse ++ items.map result, ']'.toUInt8 :: rest) := by
  induction items generalizing steps done with
  | nil =>
      obtain ⟨steps, rfl⟩ := Nat.exists_eq_succ_of_ne_zero (Nat.ne_zero_of_lt hsteps)
      rw [printItems, encodeChars_nil, List.nil_append, readItems, nextItem_last hblanks,
        List.map_nil, List.append_nil]
      rfl
  | cons item items ih =>
      obtain ⟨steps, rfl⟩ := Nat.exists_eq_succ_of_ne_zero (Nat.ne_zero_of_lt hsteps)
      have hitem := hitems item List.mem_cons_self [] _ blank_nil
        (endsNumeral_items layout level items hblanks rest)
      have htail := ih (fun other hother => hitems other (List.mem_cons_of_mem _ hother))
        (Nat.lt_of_succ_lt_succ hsteps) (result item :: done)
      rw [List.nil_append] at hitem
      rw [encodeChars_printItems_cons, List.cons_append, List.append_assoc, List.append_assoc,
        readItems, nextItem_further layout level item (hlayout.line level)]
      simp only [bind, Except.bind, if_true, hitem, htail]
      rw [List.reverse_cons, List.append_assoc, List.singleton_append, List.map_cons]

/-! ## Objects -/

theorem nextKey_first {budget : Nat} (key : String)
    (hbudget : (encodeChars (stringChars key)).length ≤ budget) {blanks : Bytes}
    (hblanks : Blank blanks) (rest : Bytes) :
    nextKey budget true (blanks ++ (encodeChars (stringChars key) ++ rest)) =
      .ok (some key, rest) := by
  have hquote : isBlankByte '"'.toUInt8 = false := by decide
  have hbrace : ('"'.toUInt8 : UInt8) ≠ '\x7d'.toUInt8 := by decide
  rw [encodeChars_stringChars, List.cons_append, List.append_assoc, List.singleton_append]
  simp only [nextKey, skipBlanks_append_cons hblanks hquote, if_neg hbrace, if_true,
    readString_written key hbudget]
  rfl

theorem nextKey_further {budget : Nat} (key : String)
    (hbudget : (encodeChars (stringChars key)).length ≤ budget) {blanks : Bytes}
    (hblanks : Blank blanks) (rest : Bytes) :
    nextKey budget false
        (','.toUInt8 :: (blanks ++ (encodeChars (stringChars key) ++ rest))) =
      .ok (some key, rest) := by
  have hcomma : isBlankByte ','.toUInt8 = false := by decide
  have hquote : isBlankByte '"'.toUInt8 = false := by decide
  have hbrace : (','.toUInt8 : UInt8) ≠ '\x7d'.toUInt8 := by decide
  rw [encodeChars_stringChars, List.cons_append, List.append_assoc, List.singleton_append]
  simp only [nextKey, skipBlanks_cons hcomma, skipBlanks_append_cons hblanks hquote,
    if_neg hbrace, if_neg Bool.false_ne_true, if_true, readString_written key hbudget]
  rfl

theorem nextKey_entry {layout : Layout} (hlayout : layout.Spaced) {budget : Nat} {key : String}
    (hbudget : (encodeChars (stringChars key)).length ≤ budget) (level : Nat) (first : Bool)
    (rest : Bytes) :
    nextKey budget first (encodeChars (if first then [] else [',']) ++
        (encodeChars (layout.line level) ++ (encodeChars (stringChars key) ++ rest))) =
      .ok (some key, rest) := by
  cases first with
  | true => exact nextKey_first key hbudget (hlayout.line level) rest
  | false => exact nextKey_further key hbudget (hlayout.line level) rest

theorem nextKey_last {budget : Nat} {blanks : Bytes} (hblanks : Blank blanks) (first : Bool)
    (rest : Bytes) :
    nextKey budget first (blanks ++ '\x7d'.toUInt8 :: rest) =
      .ok (none, '\x7d'.toUInt8 :: rest) := by
  have hbrace : isBlankByte '\x7d'.toUInt8 = false := by decide
  simp only [nextKey, skipBlanks_append_cons hblanks hbrace, if_true]

theorem readColon_colon (rest : Bytes) : readColon (':'.toUInt8 :: rest) = .ok rest := rfl

theorem endObject_brace (rest : Bytes) : endObject ('\x7d'.toUInt8 :: rest) = .ok rest := rfl

theorem endsNumeral_entries (layout : Layout) (level : Nat) (entries : List (String × List Char))
    {rest : Bytes} (h : EndsNumeral rest) :
    EndsNumeral (encodeChars (printEntries layout level false entries) ++ rest) := by
  cases entries with
  | nil => exact h
  | cons entry entries =>
      rw [encodeChars_printEntries_cons]
      exact endsNumeral_cons (by decide) _

theorem endsNumeral_fields (layout : Layout) (level : Nat) (fields : Mapping) {blanks : Bytes}
    (hblanks : Blank blanks) (rest : Bytes) :
    EndsNumeral (encodeChars (printFields layout level fields) ++
      (blanks ++ '\x7d'.toUInt8 :: rest)) := by
  rw [printFields_eq]
  exact endsNumeral_entries layout level _
    (endsNumeral_blanks hblanks (endsNumeral_cons (by decide) rest))

theorem readMembers_written {layout : Layout} {budget level : Nat} {α : Type}
    {read : Bytes → Except Stop (α × Bytes)} (result : Value → α) (hlayout : layout.Spaced)
    {fields : Mapping}
    (hkeys : ∀ field ∈ fields, (encodeChars (stringChars field.1)).length ≤ budget)
    (hvalues : ∀ field ∈ fields,
      Reads read (encodeChars (field.2.print layout level)) (result field.2))
    {steps : Nat} (hsteps : fields.length < steps) {blanks : Bytes} (hblanks : Blank blanks)
    (done : List (String × α)) (rest : Bytes) :
    readMembers budget read steps false done
        (encodeChars (printFields layout level fields) ++ (blanks ++ '\x7d'.toUInt8 :: rest)) =
      .ok (done.reverse ++ fields.map fun field => (field.1, result field.2),
        '\x7d'.toUInt8 :: rest) := by
  rcases hlayout.colon with ⟨gap, hcolon, hgap⟩
  induction fields generalizing steps done with
  | nil =>
      obtain ⟨steps, rfl⟩ := Nat.exists_eq_succ_of_ne_zero (Nat.ne_zero_of_lt hsteps)
      rw [printFields, encodeChars_nil, List.nil_append, readMembers, nextKey_last hblanks,
        List.map_nil, List.append_nil]
      rfl
  | cons field fields ih =>
      obtain ⟨key, v⟩ := field
      obtain ⟨steps, rfl⟩ := Nat.exists_eq_succ_of_ne_zero (Nat.ne_zero_of_lt hsteps)
      have hkey := hkeys (key, v) List.mem_cons_self
      have hvalue := hvalues (key, v) List.mem_cons_self gap _ hgap
        (endsNumeral_fields layout level fields hblanks rest)
      have htail := ih (fun other hother => hkeys other (List.mem_cons_of_mem _ hother))
        (fun other hother => hvalues other (List.mem_cons_of_mem _ hother))
        (Nat.lt_of_succ_lt_succ hsteps) ((key, result v) :: done)
      rw [encodeChars_printFields_cons, hcolon]
      simp only [List.cons_append, List.append_assoc]
      rw [readMembers, nextKey_further key hkey (hlayout.line level)]
      simp only [bind, Except.bind, readColon_colon, hvalue, htail]
      rw [List.reverse_cons, List.append_assoc, List.singleton_append, List.map_cons]

/-! ## Containers -/

section Containers

variable (layout : Layout) (level : Nat) {items : List Value} {fields : Mapping}

theorem length_item_lt_array {item : Value} (h : item ∈ items) :
    (encodeChars (item.print layout (level + 1))).length <
      (encodeChars ((Value.array items).print layout level)).length := by
  cases items with
  | nil => cases h
  | cons first rest =>
      simp only [encodeChars_array, List.length_cons, List.length_append]
      rcases List.mem_cons.mp h with rfl | hrest
      · omega
      · have hle := length_item_le layout (level + 1) hrest
        omega

theorem length_items_lt_array :
    items.length < (encodeChars ((Value.array items).print layout level)).length := by
  cases items with
  | nil => exact Nat.zero_lt_succ 1
  | cons first rest =>
      have hle := length_items_le layout (level + 1) rest
      simp only [encodeChars_array, List.length_cons, List.length_append]
      omega

theorem length_field_lt_object {field : String × Value} (h : field ∈ fields) :
    (encodeChars (stringChars field.1)).length <
        (encodeChars ((Value.object fields).print layout level)).length ∧
      (encodeChars (field.2.print layout (level + 1))).length <
        (encodeChars ((Value.object fields).print layout level)).length := by
  cases fields with
  | nil => cases h
  | cons first rest =>
      obtain ⟨key, v⟩ := first
      simp only [encodeChars_object, List.length_cons, List.length_append]
      rcases List.mem_cons.mp h with rfl | hrest
      · dsimp only
        omega
      · have hle := length_field_le layout (level + 1) hrest
        omega

theorem length_fields_lt_object :
    fields.length < (encodeChars ((Value.object fields).print layout level)).length := by
  cases fields with
  | nil => exact Nat.zero_lt_succ 1
  | cons first rest =>
      obtain ⟨key, v⟩ := first
      have hle := length_fields_le layout (level + 1) rest
      simp only [encodeChars_object, List.length_cons, List.length_append]
      omega

variable {layout level} {budget depth : Nat}

theorem readItems_opened {α : Type} {read : Bytes → Except Stop (α × Bytes)} (result : Value → α)
    (hlayout : layout.Spaced)
    (hitems : ∀ item ∈ items,
      Reads read (encodeChars (item.print layout (level + 1))) (result item))
    (hbudget : (encodeChars ((Value.array items).print layout level)).length ≤ budget) :
    ∃ body, encodeChars ((Value.array items).print layout level) = '['.toUInt8 :: body ∧
      ∀ rest, readItems read budget true [] (body ++ rest) =
        .ok (items.map result, ']'.toUInt8 :: rest) := by
  have hsteps : items.length < budget :=
    Nat.lt_of_lt_of_le (length_items_lt_array layout level) hbudget
  obtain ⟨steps, rfl⟩ := Nat.exists_eq_succ_of_ne_zero (Nat.ne_zero_of_lt hsteps)
  cases items with
  | nil => exact ⟨[']'.toUInt8], rfl, fun rest => rfl⟩
  | cons item items =>
      refine ⟨_, encodeChars_array layout level item items, ?_⟩
      intro rest
      have hfirst := hitems item List.mem_cons_self [] _ blank_nil
        (endsNumeral_items layout (level + 1) items (hlayout.line level) rest)
      have hfurther := readItems_written result hlayout
        (fun other hother => hitems other (List.mem_cons_of_mem _ hother))
        (Nat.lt_of_succ_lt_succ hsteps) (hlayout.line level) [result item] rest
      rw [List.nil_append] at hfirst
      simp only [List.append_assoc, List.singleton_append]
      simp only [readItems, bind, Except.bind, nextItem_first layout (level + 1) item
        (hlayout.line (level + 1)), if_true, hfirst, hfurther]
      rfl

theorem readValue_array (hlayout : layout.Spaced)
    (hitems : ∀ item ∈ items,
      Reads (readValue budget depth) (encodeChars (item.print layout (level + 1))) item)
    (hbudget : (encodeChars ((Value.array items).print layout level)).length ≤ budget) :
    Reads (readValue budget (depth + 1)) (encodeChars ((Value.array items).print layout level))
      (.array items) := by
  intro blanks rest hblanks hrest
  rcases readItems_opened id hlayout hitems hbudget with ⟨body, hbody, hread⟩
  rw [readValue_blanks hblanks, hbody, List.cons_append, readValue, readHead_list]
  simp only [bind, Except.bind, hread, endList_bracket, List.map_id]
  rfl

theorem readMembers_opened {α : Type} {read : Bytes → Except Stop (α × Bytes)}
    (result : Value → α) (hlayout : layout.Spaced)
    (hvalues : ∀ field ∈ fields,
      Reads read (encodeChars (field.2.print layout (level + 1))) (result field.2))
    (hbudget : (encodeChars ((Value.object fields).print layout level)).length ≤ budget) :
    ∃ body, encodeChars ((Value.object fields).print layout level) = '\x7b'.toUInt8 :: body ∧
      ∀ rest, readMembers budget read budget true [] (body ++ rest) =
        .ok (fields.map fun field => (field.1, result field.2), '\x7d'.toUInt8 :: rest) := by
  have hsteps : fields.length < budget :=
    Nat.lt_of_lt_of_le (length_fields_lt_object layout level) hbudget
  have hkeys : ∀ field ∈ fields, (encodeChars (stringChars field.1)).length ≤ budget := by
    intro field hfield
    have hlt := (length_field_lt_object layout level hfield).left
    omega
  obtain ⟨steps, rfl⟩ := Nat.exists_eq_succ_of_ne_zero (Nat.ne_zero_of_lt hsteps)
  cases fields with
  | nil => exact ⟨['\x7d'.toUInt8], rfl, fun rest => rfl⟩
  | cons field fields =>
      obtain ⟨key, v⟩ := field
      rcases hlayout.colon with ⟨gap, hcolon, hgap⟩
      refine ⟨_, encodeChars_object layout level key v fields, ?_⟩
      intro rest
      have hfirst := hvalues (key, v) List.mem_cons_self gap _ hgap
        (endsNumeral_fields layout (level + 1) fields (hlayout.line level) rest)
      have hfurther := readMembers_written result hlayout
        (fun other hother => hkeys other (List.mem_cons_of_mem _ hother))
        (fun other hother => hvalues other (List.mem_cons_of_mem _ hother))
        (Nat.lt_of_succ_lt_succ hsteps) (hlayout.line level) [(key, result v)] rest
      simp only [hcolon, List.append_assoc, List.cons_append, List.nil_append]
      simp only [readMembers, bind, Except.bind,
        nextKey_first key (hkeys (key, v) List.mem_cons_self) (hlayout.line (level + 1)),
        readColon_colon, hfirst, hfurther]
      rfl

theorem readValue_object (hlayout : layout.Spaced) (hdistinct : Mapping.Distinct fields)
    (hreserved : fields.keys.head? ≠ some reservedKey)
    (hvalues : ∀ field ∈ fields,
      Reads (readValue budget depth) (encodeChars (field.2.print layout (level + 1))) field.2)
    (hbudget : (encodeChars ((Value.object fields).print layout level)).length ≤ budget) :
    Reads (readValue budget (depth + 1)) (encodeChars ((Value.object fields).print layout level))
      (.object fields) := by
  intro blanks rest hblanks hrest
  have hsteps : fields.length < budget :=
    Nat.lt_of_lt_of_le (length_fields_lt_object layout level) hbudget
  have hkeys : ∀ field ∈ fields, (encodeChars (stringChars field.1)).length ≤ budget := by
    intro field hfield
    have hlt := (length_field_lt_object layout level hfield).left
    omega
  rw [readValue_blanks hblanks]
  cases fields with
  | nil => rfl
  | cons field fields =>
      obtain ⟨key, v⟩ := field
      have hkey : key ≠ reservedKey := by simpa [Mapping.keys] using hreserved
      rcases hlayout.colon with ⟨gap, hcolon, hgap⟩
      have hfirst := hvalues (key, v) List.mem_cons_self gap _ hgap
        (endsNumeral_fields layout (level + 1) fields (hlayout.line level) rest)
      have hfurther := readMembers_written id hlayout
        (fun other hother => hkeys other (List.mem_cons_of_mem _ hother))
        (fun other hother => hvalues other (List.mem_cons_of_mem _ hother))
        (Nat.lt_of_succ_lt hsteps) (hlayout.line level) [(key, v)] rest
      have hfields : (fields.map fun field => (field.1, id field.2)) = fields := List.map_id _
      rw [hfields] at hfurther
      have hmembers : Mapping.ofMembers ([(key, v)].reverse ++ fields) = (key, v) :: fields :=
        Mapping.merge_nil_left hdistinct
      rw [encodeChars_object, hcolon]
      simp only [List.cons_append, List.append_assoc, List.nil_append]
      rw [readValue, readHead_object]
      simp only [bind, Except.bind, readObject,
        nextKey_first key (hkeys (key, v) List.mem_cons_self) (hlayout.line (level + 1)),
        readColon_colon, if_neg hkey, hfirst, hfurther, endObject_brace, hmembers]
      rfl

end Containers

/-! ## Values -/

theorem readValue_scalar {layout : Layout} {budget depth level : Nat} (s : Scalar)
    (hbudget : (encodeChars (s.value.print layout level)).length ≤ budget) :
    Reads (readValue budget depth) (encodeChars (s.value.print layout level)) s.value := by
  intro blanks rest hblanks hrest
  rw [readValue_blanks hblanks]
  cases depth <;> rw [readValue, readHead_scalar s hbudget hrest] <;> rfl

/-- An admitted value is read back from what is written for it. -/
theorem readValue_written {layout : Layout} (hlayout : layout.Spaced) {budget depth : Nat}
    (level : Nat) {v : Value} (h : v.Admitted depth)
    (hbudget : (encodeChars (v.print layout level)).length ≤ budget) :
    Reads (readValue budget depth) (encodeChars (v.print layout level)) v := by
  induction depth generalizing v level with
  | zero =>
      cases v with
      | null => exact readValue_scalar .null hbudget
      | bool b => exact readValue_scalar (.bool b) hbudget
      | number n => exact readValue_scalar (.number n) hbudget
      | string s => exact readValue_scalar (.string s) hbudget
      | array items => exact absurd h (Value.not_admitted_array_zero items)
      | object fields => exact absurd h (Value.not_admitted_object_zero fields)
  | succ depth ih =>
      cases v with
      | null => exact readValue_scalar .null hbudget
      | bool b => exact readValue_scalar (.bool b) hbudget
      | number n => exact readValue_scalar (.number n) hbudget
      | string s => exact readValue_scalar (.string s) hbudget
      | array items =>
          refine readValue_array hlayout ?_ hbudget
          intro item hitem
          have hlt := length_item_lt_array layout level hitem
          exact ih (level + 1) (Value.admitted_array.mp h item hitem) (by omega)
      | object fields =>
          rcases Value.admitted_object.mp h with ⟨hdistinct, hreserved, hfields⟩
          refine readValue_object hlayout hdistinct hreserved ?_ hbudget
          intro field hfield
          have hlt := (length_field_lt_object layout level hfield).right
          exact ih (level + 1) (hfields field hfield) (by omega)

theorem Value.ofBytes_print {layout : Layout} (hlayout : layout.Spaced) {v : Value}
    (h : v.Admitted nestingLimit) : Value.ofBytes (encodeChars (v.print layout 0)) = .ok v := by
  have hread := readValue_written hlayout 0 h (Nat.le_succ _) [] [] blank_nil endsNumeral_nil
  rw [List.nil_append, List.append_nil] at hread
  simp only [Value.ofBytes, readAll, hread, bind, Except.bind]
  rfl

end Json
end Cardsmith
