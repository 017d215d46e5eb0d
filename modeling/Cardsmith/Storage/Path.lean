/-!
# Path texts

Paths as programs write them: names with slashes between them.  Repeated slashes count once, and
a slash at the end asks for a directory.
-/

namespace Cardsmith
namespace Storage
namespace Path

/-! ## Names -/

def pieces : List Char → List (List Char)
  | [] => [[]]
  | c :: rest =>
      if c = '/' then [] :: pieces rest
      else
        match pieces rest with
        | [] => [[c]]
        | piece :: more => (c :: piece) :: more

def keepLast : List String → List String
  | [] => []
  | [name] => [name]
  | name :: rest => if name = "" then keepLast rest else name :: keepLast rest

/-- The names that a path goes through; a slash at the end leaves an empty last name. -/
def names (path : String) : List String := keepLast ((pieces path.toList).map String.ofList)

def isAbsolute (path : String) : Bool := path.toList.head? = some '/'

def endsOpen (path : String) : Bool := path.toList.getLast? = some '/'

/-! ## Joining -/

/-- A path seen from another: an absolute one stands for itself, any other goes on from there. -/
def join (base path : String) : String :=
  if isAbsolute path then path
  else if base = "" || endsOpen base then base ++ path
  else base ++ "/" ++ path

def ofNames (location : List String) : String := location.foldl join "/"

/-- Where an absolute path begins.  Two slashes, and no more, are a beginning of their own. -/
def beginning (path : String) : String :=
  match path.toList with
  | '/' :: '/' :: '/' :: _ => "/"
  | '/' :: '/' :: _ => "//"
  | _ => "/"

/-- A path as an absolute one, without repeated slashes and names that stay where they are; the
empty path has none. -/
def absolute? (here path : String) : Option String :=
  if path = "" then none
  else
    let base := if isAbsolute path then beginning path else here
    let steps := (names path).filter fun name => name ≠ "" && name ≠ "."
    let text := steps.foldl join base
    some (if endsOpen path then join text "" else text)

end Path
end Storage
end Cardsmith
