import Cardsmith.Text.CasePair
import Cardsmith.Text.Cased

/-!
# Lower case

Full lower-casing of a text.  Every character goes to its lower-case partner, with two rules on
top of the simple mapping: a capital I with a dot becomes an i and a combining dot, and a
capital sigma at the end of a word takes its final form.
-/

namespace Cardsmith
namespace Text

def startsCased (chars : List Char) : Bool :=
  match chars.dropWhile isCaseIgnorable with
  | c :: _ => isCased c
  | [] => false

/-- The form of a capital sigma between the text before it, nearest first, and the text after it. -/
def lowerSigma (before after : List Char) : Char :=
  if startsCased before && !startsCased after then 'ς' else 'σ'

def lowerChar (c : Char) : List Char :=
  if c.toNat < 0x80 then [c.toLower]
  else if c = 'İ' then ['i', '\u0307']
  else [Char.ofNat (lowerCode c.toNat)]

/-- Lower-case the second text, the first one being what stands before it, nearest first. -/
def lowerAfter (before : List Char) : List Char → List Char
  | [] => []
  | c :: rest =>
      (if c = 'Σ' then [lowerSigma before rest] else lowerChar c) ++ lowerAfter (c :: before) rest

def lowercase (text : String) : String := String.ofList (lowerAfter [] text.toList)

theorem lowerAfter_cons (before : List Char) (c : Char) (rest : List Char) :
    lowerAfter before (c :: rest) =
      (if c = 'Σ' then [lowerSigma before rest] else lowerChar c) ++
        lowerAfter (c :: before) rest :=
  rfl

end Text
end Cardsmith
