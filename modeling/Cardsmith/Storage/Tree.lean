import Cardsmith.Bytes.Utf8

/-!
# Trees of files

Files, symbolic links and directories, and entries that may not be opened.  A location is the list
of names that lead to an entry from the root.  Who may open an entry is not told apart any further:
there are no files that may only be read, no directories that may be entered and not listed or
listed and not changed, and no names that are no text.
-/

namespace Cardsmith
namespace Storage

inductive Entry where
  | file (contents : Bytes)
  | link (target : String)
  | directory (entries : List (String × Entry))
  /-- A directory that may not be listed or entered, or a file that may not be read or written. -/
  | locked (isDirectory : Bool)
  deriving Repr

/-- Names from the root to an entry. -/
abbrev Location := List String

namespace Entry

/-! ## Finding -/

def child? : Entry → String → Option Entry
  | .directory entries, name => entries.lookup name
  | .file _, _ => none
  | .link _, _ => none
  | .locked _, _ => none

def at? (tree : Entry) : Location → Option Entry
  | [] => some tree
  | name :: rest => (tree.child? name).bind fun entry => at? entry rest

theorem at?_cons (tree : Entry) (name : String) (rest : Location) :
    tree.at? (name :: rest) = (tree.child? name).bind fun entry => entry.at? rest := rfl

theorem at?_append (tree : Entry) (a b : Location) :
    tree.at? (a ++ b) = (tree.at? a).bind fun entry => entry.at? b := by
  induction a generalizing tree with
  | nil => rfl
  | cons name rest ih =>
      simp only [List.cons_append, at?_cons, Option.bind_assoc]
      congr 1
      funext entry
      exact ih entry

/-! ## Changing -/

/-- Change the entry of a name among others, which keep their places; a new one comes last. -/
def changeNamed (name : String) (change : Option Entry → Entry) :
    List (String × Entry) → List (String × Entry)
  | [] => [(name, change none)]
  | (n, entry) :: rest =>
      if n = name then (n, change (some entry)) :: rest
      else (n, entry) :: changeNamed name change rest

/-- Put an entry at a location, with the directories that lead there.  Where something else than
a directory is in the way, nothing changes. -/
def put (new : Entry) : Location → Option Entry → Entry
  | [], _ => new
  | name :: rest, none => .directory [(name, put new rest none)]
  | name :: rest, some (.directory entries) =>
      .directory (changeNamed name (put new rest) entries)
  | _ :: _, some other => other

def remove : Location → Entry → Entry
  | [name], .directory entries => .directory (entries.filter fun entry => entry.1 ≠ name)
  | name :: rest, .directory entries =>
      .directory (entries.map fun (n, entry) =>
        (n, if n = name then remove rest entry else entry))
  | _, other => other

/-! ## Everything below -/

mutual

def count : Entry → Nat
  | .directory entries => countAll entries
  | .file _ | .link _ | .locked _ => 0
termination_by structural entry => entry

def countAll : List (String × Entry) → Nat
  | [] => 0
  | (_, entry) :: rest => 1 + count entry + countAll rest
termination_by structural entries => entries

end

mutual

def files (here : Location) : Entry → List (Location × Bytes)
  | .file contents => [(here, contents)]
  | .link _ | .locked _ => []
  | .directory entries => filesAll here entries
termination_by structural entry => entry

def filesAll (here : Location) : List (String × Entry) → List (Location × Bytes)
  | [] => []
  | (name, entry) :: rest => files (here ++ [name]) entry ++ filesAll here rest
termination_by structural entries => entries

end

end Entry

end Storage
end Cardsmith
