import Cardsmith.Proofs.Card.Children
import Cardsmith.Proofs.Json.Pointer

/-!
# Paths as pointers

The text of a path is a JSON Pointer to the mapping that the path resolves to.  Two paths may have
one text, for a number may be a key as well as an index; but what is in a mapping under the key
tells which of the two is meant, so paths that resolve in one card are told apart by their texts.
-/

namespace Cardsmith
namespace Card

open Json

/-! ## Escaped keys -/

theorem escapeKey_cons (c : Char) (rest : List Char) :
    escapeKey (String.ofList (c :: rest)) =
      (if c = '~' then ['~', '0'] else if c = '/' then ['~', '1'] else [c]) ++
        escapeKey (String.ofList rest) := by
  simp [escapeKey]

theorem unescapeSlashes_escapeKey (chars : List Char) :
    Pointer.unescapeSlashes (escapeKey (String.ofList chars)) =
      chars.flatMap fun c => if c = '~' then ['~', '0'] else [c] := by
  induction chars with
  | nil => rfl
  | cons c rest ih =>
      rw [escapeKey_cons, List.flatMap_cons, ← ih]
      by_cases htilde : c = '~'
      · simp [htilde, Pointer.unescapeSlashes]
      · by_cases hslash : c = '/'
        · simp [hslash, Pointer.unescapeSlashes]
        · simp [htilde, hslash, Pointer.unescapeSlashes_cons]

theorem unescapeTildes_escaped (chars : List Char) :
    Pointer.unescapeTildes (chars.flatMap fun c => if c = '~' then ['~', '0'] else [c]) =
      chars := by
  induction chars with
  | nil => rfl
  | cons c rest ih =>
      rw [List.flatMap_cons]
      by_cases htilde : c = '~'
      · simp [htilde, Pointer.unescapeTildes, ih]
      · simp [htilde, Pointer.unescapeTildes_cons, ih]

theorem unescape_escapeKey (key : String) : Pointer.unescape (escapeKey key) = key.toList := by
  have hslashes := unescapeSlashes_escapeKey key.toList
  rw [String.ofList_toList] at hslashes
  rw [Pointer.unescape, hslashes, unescapeTildes_escaped]

theorem isToken_escapeKey (chars : List Char) :
    Pointer.isToken (escapeKey (String.ofList chars)) = true := by
  induction chars with
  | nil => rfl
  | cons c rest ih =>
      rw [escapeKey_cons]
      by_cases htilde : c = '~'
      · simpa [htilde, Pointer.isToken] using ih
      · by_cases hslash : c = '/'
        · simpa [hslash, Pointer.isToken] using ih
        · simpa [htilde, hslash, Pointer.isToken_cons] using ih

theorem slash_not_mem_escapeKey (key : String) : '/' ∉ escapeKey key := by
  intro hmem
  rcases List.mem_flatMap.mp hmem with ⟨c, _, hc⟩
  split_ifs at hc with htilde hslash
  · simp at hc
  · simp at hc
  · rw [List.mem_singleton] at hc
    exact hslash hc.symm

theorem escapeKey_toDigits (n : Nat) :
    escapeKey (String.ofList (Nat.toDigits 10 n)) = Nat.toDigits 10 n := by
  have hplain : ∀ c ∈ Nat.toDigits 10 n, c ≠ '~' ∧ c ≠ '/' := by
    intro c hc
    have hdigit := Nat.isDigit_of_mem_toDigits (by decide) (by decide) hc
    constructor <;> rintro rfl <;> simp at hdigit
  rw [escapeKey, String.toList_ofList]
  calc (Nat.toDigits 10 n).flatMap _
      = (Nat.toDigits 10 n).flatMap fun c => [c] := by
        apply List.flatMap_congr
        intro c hc
        rw [if_neg (hplain c hc).left, if_neg (hplain c hc).right]
    _ = Nat.toDigits 10 n := List.flatMap_singleton' _

/-! ## Tokens -/

def tokenChars (tokens : List String) : List Char :=
  tokens.flatMap fun token => '/' :: escapeKey token

theorem splitOn_tokenChars (token : String) (rest : List String) :
    (escapeKey token ++ tokenChars rest).splitOn '/' =
      escapeKey token :: rest.map escapeKey := by
  induction rest generalizing token with
  | nil =>
      rw [tokenChars, List.flatMap_nil, List.append_nil]
      exact List.splitOn_eq_singleton (slash_not_mem_escapeKey token)
  | cons next rest ih =>
      have hchars : tokenChars (next :: rest) = '/' :: (escapeKey next ++ tokenChars rest) := rfl
      rw [hchars, List.splitOn_append_cons_self, ih,
        List.splitOn_eq_singleton (slash_not_mem_escapeKey token)]
      rfl

theorem tokens?_written (tokens : List String) :
    Pointer.tokens? (String.ofList (tokenChars tokens)) = some tokens := by
  cases tokens with
  | nil => rfl
  | cons token rest =>
      have hall : ((token :: rest).map escapeKey).all Pointer.isToken = true := by
        rw [List.all_map, List.all_eq_true]
        intro t _
        have htoken := isToken_escapeKey t.toList
        rwa [String.ofList_toList] at htoken
      have hback : ∀ t, String.ofList (Pointer.unescape (escapeKey t)) = t := by
        intro t
        rw [unescape_escapeKey, String.ofList_toList]
      have hchars : tokenChars (token :: rest) = '/' :: (escapeKey token ++ tokenChars rest) := rfl
      rw [Pointer.tokens?, String.toList_ofList, hchars]
      simp only [splitOn_tokenChars]
      rw [← List.map_cons, if_pos hall, List.map_map]
      simp [Function.comp_def, hback]

/-- The tokens of a step: its key, and for an element its number in decimal. -/
def Step.tokens : Step → List String
  | .field key => [key]
  | .element key index => [key, String.ofList (Nat.toDigits 10 index)]

def Path.tokens (path : Path) : List String := path.flatMap Step.tokens

theorem Step.chars_eq (step : Step) : step.chars = tokenChars step.tokens := by
  cases step with
  | field key => simp [Step.chars, Step.tokens, tokenChars]
  | element key index => simp [Step.chars, Step.tokens, tokenChars, escapeKey_toDigits]

theorem Path.pointer_eq (path : Path) :
    Path.pointer path = String.ofList (tokenChars (Path.tokens path)) := by
  rw [Path.pointer, tokenChars, Path.tokens, List.flatMap_assoc]
  congr 2
  funext step
  exact step.chars_eq

theorem Path.tokens?_pointer (path : Path) :
    Pointer.tokens? (Path.pointer path) = some (Path.tokens path) := by
  rw [Path.pointer_eq, tokens?_written]

/-! ## Following a path -/

theorem Step.follow?_tokens {node child : Mapping} {step : Step}
    (h : step.resolve? node = some child) :
    Pointer.follow? (.object node) step.tokens = some (.object child) := by
  cases step with
  | field key =>
      have hget := Step.resolve?_field_eq_some.mp h
      simp [Step.tokens, Pointer.follow?, Pointer.part?, hget]
  | element key index =>
      rcases Step.resolve?_element_eq_some.mp h with ⟨items, hget, hitem⟩
      simp [Step.tokens, Pointer.follow?, Pointer.part?, hget, hitem, Pointer.index?_toDigits]

theorem follow?_tokens {node found : Mapping} {path : Path}
    (h : resolve? node path = some found) :
    Pointer.follow? (.object node) (Path.tokens path) = some (.object found) := by
  induction path generalizing node with
  | nil =>
      cases h
      rfl
  | cons step rest ih =>
      rw [resolve?_cons, Option.bind_eq_some_iff] at h
      rcases h with ⟨child, hchild, hrest⟩
      rw [Path.tokens, List.flatMap_cons, Pointer.follow?_append, Step.follow?_tokens hchild,
        Option.bind_some]
      exact ih hrest

/-! ## Telling paths apart -/

theorem toDigits_injective {m n : Nat}
    (h : String.ofList (Nat.toDigits 10 m) = String.ofList (Nat.toDigits 10 n)) : m = n := by
  have hindex : some m = some n := by
    rw [← Pointer.index?_toDigits m, h, Pointer.index?_toDigits]
  exact Option.some.inj hindex

/-- What is under a key is a mapping or an array, so only one kind of step leads through it. -/
theorem element_ne_of_field {node left : Mapping} {key : String}
    (h : (Step.field key).resolve? node = some left) (index : Nat) (right : Mapping) :
    (Step.element key index).resolve? node ≠ some right := by
  intro helement
  rcases Step.resolve?_element_eq_some.mp helement with ⟨items, hitems, _⟩
  rw [Step.resolve?_field_eq_some.mp h] at hitems
  cases hitems

/-- Steps that begin with the same tokens and resolve in one mapping are the same. -/
theorem Step.eq_of_tokens_append_eq {node left right : Mapping} {s t : Step}
    (hs : s.resolve? node = some left) (ht : t.resolve? node = some right)
    {before after : List String} (h : s.tokens ++ before = t.tokens ++ after) :
    s = t ∧ before = after := by
  cases s with
  | field k =>
      cases t with
      | field l =>
          simp only [Step.tokens, List.singleton_append, List.cons.injEq] at h
          exact ⟨congrArg Step.field h.left, h.right⟩
      | element l i =>
          simp only [Step.tokens, List.cons_append, List.nil_append, List.cons.injEq] at h
          rw [h.left] at hs
          exact absurd ht (element_ne_of_field hs i right)
  | element k i =>
      cases t with
      | field l =>
          simp only [Step.tokens, List.cons_append, List.nil_append, List.cons.injEq] at h
          rw [← h.left] at ht
          exact absurd hs (element_ne_of_field ht i left)
      | element l j =>
          simp only [Step.tokens, List.cons_append, List.nil_append, List.cons.injEq] at h
          rcases h with ⟨hkey, hindex, hrest⟩
          rw [hkey, toDigits_injective hindex]
          exact ⟨rfl, hrest⟩

theorem eq_of_tokens_eq {node left right : Mapping} {p q : Path}
    (hp : resolve? node p = some left) (hq : resolve? node q = some right)
    (h : Path.tokens p = Path.tokens q) : p = q := by
  have hnonempty : ∀ (step : Step) (rest : Path), Path.tokens (step :: rest) ≠ [] := by
    intro step rest
    cases step <;> simp [Path.tokens, Step.tokens]
  induction p generalizing node q with
  | nil =>
      cases q with
      | nil => rfl
      | cons t q => exact absurd h.symm (hnonempty t q)
  | cons s p ih =>
      cases q with
      | nil => exact absurd h (hnonempty s p)
      | cons t q =>
          rw [resolve?_cons, Option.bind_eq_some_iff] at hp hq
          rcases hp with ⟨child, hs, hp⟩
          rcases hq with ⟨other, ht, hq⟩
          rw [Path.tokens, Path.tokens, List.flatMap_cons, List.flatMap_cons] at h
          rcases Step.eq_of_tokens_append_eq hs ht h with ⟨hstep, hrest⟩
          rw [hstep] at hs
          rw [hs] at ht
          cases ht
          rw [hstep, ih hp hq hrest]

/-! ## Main result -/

/-- The text of a path that resolves in a card is a pointer to the mapping it resolves to, and
different paths that resolve in the card have different texts.  Paths that resolve in different
cards may have one text: that of an element is the text of the field below a field whose key is
the number of the element. -/
theorem pointer_leads_to_its_mapping (card : Card) :
    (∀ path found, resolve? card path = some found →
        Pointer.evaluate? (Path.pointer path) (.object card) = some (.object found)) ∧
      (∀ p q, (resolve? card p).isSome → (resolve? card q).isSome →
        Path.pointer p = Path.pointer q → p = q) ∧
      ∀ key index, ∃ number,
        Path.pointer [.element key index] = Path.pointer [.field key, .field number] ∧
          ∃ here there : Card, (resolve? here [.element key index]).isSome ∧
            (resolve? there [.field key, .field number]).isSome := by
  refine ⟨?_, ?_, ?_⟩
  · intro path found hfound
    rw [Pointer.evaluate?, Path.tokens?_pointer, Option.bind_some]
    exact follow?_tokens hfound
  · intro p q hp hq hpointer
    rcases Option.isSome_iff_exists.mp hp with ⟨left, hleft⟩
    rcases Option.isSome_iff_exists.mp hq with ⟨right, hright⟩
    refine eq_of_tokens_eq hleft hright (Option.some.inj ?_)
    rw [← Path.tokens?_pointer, hpointer, Path.tokens?_pointer]
  · intro key index
    refine ⟨String.ofList (Nat.toDigits 10 index), ?_,
      [(key, .array (List.replicate index .null ++ [.object []]))],
      [(key, .object [(String.ofList (Nat.toDigits 10 index), .object [])])], ?_, ?_⟩
    · simp [Path.pointer_eq, Path.tokens, Step.tokens]
    · simp [resolve?_cons, Step.resolve?, Mapping.get?_cons]
    · simp [resolve?_cons, Step.resolve?, Mapping.get?_cons]

/-- A card with keys that have to be escaped, an empty key, and keys that are numbers. -/
def pointed : Card :=
  [("~1/", .object [("", .array [.null, .object [("0", .object [])]])]),
    ("~01", .object [("0", .object [])])]

theorem pointed_paths_lead_there :
    resolve? pointed [.field "~1/", .element "" 1, .field "0"] = some [] ∧
      Path.pointer [.field "~1/", .element "" 1, .field "0"] = "/~01~1//1/0" ∧
      Pointer.evaluate? "/~01~1//1/0" (.object pointed) = some (.object []) ∧
      Path.pointer [.field "~1/", .element "" 1] ≠ Path.pointer [.field "~01", .field "0"] := by
  have hfound : resolve? pointed [.field "~1/", .element "" 1, .field "0"] = some [] := by decide
  have htext : Path.pointer [.field "~1/", .element "" 1, .field "0"] = "/~01~1//1/0" := by
    decide
  have hmain := pointer_leads_to_its_mapping pointed
  have hreach := hmain.left _ _ hfound
  rw [htext] at hreach
  refine ⟨hfound, htext, hreach, ?_⟩
  intro hsame
  have hpaths := hmain.right.left _ _ (by decide) (by decide) hsame
  exact absurd hpaths (by decide)

end Card
end Cardsmith
