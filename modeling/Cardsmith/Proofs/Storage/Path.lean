import Mathlib.Data.List.Basic
import Cardsmith.Storage.Path
import Cardsmith.Proofs.Storage.Tree

/-!
# Names of joined paths

A name joined to a path is followed after everything that the path goes through.  Only a slash at
the end of the path gets lost, which asked for a directory there; the name asks for one as well.
-/

namespace Cardsmith
namespace Storage
namespace Path

open Entry

/-! ## Pieces -/

theorem pieces_ne_nil (text : List Char) : pieces text ≠ [] := by
  cases text with
  | nil => simp [pieces]
  | cons c rest =>
      rw [pieces]
      by_cases hslash : c = '/'
      · simp [hslash]
      · rw [if_neg hslash]
        cases pieces rest <;> simp

theorem pieces_append_slash (a b : List Char) :
    pieces (a ++ '/' :: b) = pieces a ++ pieces b := by
  induction a with
  | nil => simp [pieces]
  | cons c rest ih =>
      rw [List.cons_append, pieces, pieces, ih]
      by_cases hslash : c = '/'
      · simp [hslash]
      · rw [if_neg hslash, if_neg hslash]
        cases hrest : pieces rest with
        | nil => exact absurd hrest (pieces_ne_nil rest)
        | cons piece more => rfl

theorem pieces_of_noSlash {text : List Char} (h : '/' ∉ text) : pieces text = [text] := by
  induction text with
  | nil => rfl
  | cons c rest ih =>
      rw [List.mem_cons, not_or] at h
      rw [pieces, if_neg (Ne.symm h.left), ih h.right]

theorem exists_pieces_concat {text : List Char} (hnonempty : text ≠ [])
    (hclosed : text.getLast? ≠ some '/') :
    ∃ before last, pieces text = before ++ [last] ∧ last ≠ [] := by
  induction text with
  | nil => exact absurd rfl hnonempty
  | cons c rest ih =>
      rw [pieces]
      cases rest with
      | nil =>
          have hslash : c ≠ '/' := by
            rintro rfl
            exact hclosed rfl
          rw [if_neg hslash]
          exact ⟨[], [c], rfl, by simp⟩
      | cons d more =>
          rw [List.getLast?_cons_cons] at hclosed
          rcases ih (by simp) hclosed with ⟨before, last, hpieces, hlast⟩
          rw [hpieces]
          by_cases hslash : c = '/'
          · rw [if_pos hslash]
            exact ⟨[] :: before, last, rfl, hlast⟩
          · rw [if_neg hslash]
            cases before with
            | nil => exact ⟨[], c :: last, rfl, by simp⟩
            | cons piece others => exact ⟨(c :: piece) :: others, last, rfl, hlast⟩

theorem keepLast_concat (before : List String) (last : String) :
    keepLast (before ++ [last]) = before.filter (fun name => name ≠ "") ++ [last] := by
  induction before with
  | nil => rfl
  | cons name rest ih =>
      have hnonempty : rest ++ [last] ≠ [] := by simp
      rw [List.cons_append, keepLast.eq_3 name _ hnonempty, ih]
      by_cases hname : name = ""
      · simp [hname]
      · simp [hname]

/-! ## Joining a name -/

theorem isAbsolute_name {name : String} (h : IsName name) : isAbsolute name = false := by
  rw [isAbsolute, decide_eq_false_iff_not]
  intro hslash
  exact h.noSlash (List.mem_of_mem_head? hslash)

theorem toList_join {path name : String} (hpath : path ≠ "") (hname : IsName name) :
    (join path name).toList =
      if endsOpen path then path.toList ++ name.toList
      else path.toList ++ '/' :: name.toList := by
  rw [join, isAbsolute_name hname]
  by_cases hopen : endsOpen path = true
  · simp [hopen, hpath, String.toList_append]
  · simp [hopen, hpath, String.toList_append]

theorem isAbsolute_join {path name : String} (hpath : path ≠ "") (hname : IsName name) :
    isAbsolute (join path name) = isAbsolute path := by
  have hnonempty : path.toList ≠ [] := by
    intro h
    exact hpath (String.toList_eq_nil_iff.mp h)
  rw [isAbsolute, isAbsolute, toList_join hpath hname]
  cases hchars : path.toList with
  | nil => exact absurd hchars hnonempty
  | cons c rest => split_ifs <;> rfl

theorem names_join {path name : String} (hpath : path ≠ "") (hname : IsName name) :
    ∃ steps, (names path = steps ∨ names path = steps ++ [""]) ∧
      names (join path name) = steps ++ [name] := by
  have hpiece : pieces name.toList = [name.toList] := pieces_of_noSlash hname.noSlash
  by_cases hopen : endsOpen path = true
  · have hlast : path.toList.getLast? = some '/' := of_decide_eq_true hopen
    rcases List.getLast?_eq_some_iff.mp hlast with ⟨front, hfront⟩
    have hjoined : (join path name).toList = front ++ '/' :: name.toList := by
      rw [toList_join hpath hname, if_pos hopen, hfront, List.append_assoc]
      rfl
    refine ⟨((pieces front).map String.ofList).filter fun n => n ≠ "", Or.inr ?_, ?_⟩
    · rw [names, hfront, pieces_append_slash, List.map_append]
      exact keepLast_concat _ _
    · rw [names, hjoined, pieces_append_slash, hpiece, List.map_append, List.map_singleton,
        String.ofList_toList]
      exact keepLast_concat _ _
  · have hclosed : path.toList.getLast? ≠ some '/' := by
      intro h
      exact hopen (decide_eq_true h)
    have hnonempty : path.toList ≠ [] := by
      intro h
      exact hpath (String.toList_eq_nil_iff.mp h)
    rcases exists_pieces_concat hnonempty hclosed with ⟨before, last, hpieces, hlast⟩
    have hjoined : (join path name).toList = path.toList ++ '/' :: name.toList := by
      rw [toList_join hpath hname, if_neg hopen]
    refine ⟨((pieces path.toList).map String.ofList).filter fun n => n ≠ "", Or.inl ?_, ?_⟩
    · have hkept : String.ofList last ≠ "" := by
        intro h
        apply hlast
        rw [← String.toList_ofList (l := last), h]
        rfl
      rw [names, hpieces, List.map_append, List.map_singleton, keepLast_concat,
        List.filter_append]
      simp [hkept]
    · rw [names, hjoined, pieces_append_slash, hpiece, List.map_append, List.map_singleton,
        String.ofList_toList]
      exact keepLast_concat _ _

end Path
end Storage
end Cardsmith
