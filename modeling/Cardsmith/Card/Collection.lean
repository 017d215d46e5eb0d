import Cardsmith.Card.File

/-!
# Collections of cards

The cards below a directory, one at a time.  A directory is listed when it is its turn and a file
is read when its card is asked for, so changes in between are seen.  The files of a directory
come before its subdirectories, each in the order of names.  What cannot be listed or loaded is
passed over with a warning.
-/

namespace Cardsmith
namespace Card

open Storage

inductive Warning where
  | unlisted (path : String) (reason : Storage.Fault)
  | unloaded (path : String) (fault : Fault)
  deriving Repr, DecidableEq

def Warning.message : Warning → String
  | .unlisted path reason => s!"Cannot read directory {path}: {reason.message}"
  | .unloaded path fault => s!"Parsing error in {path}: {fault.message}"

structure Collection where
  directories : List String
  files : List String
  /-- The files that were passed over, in order. -/
  skipped : List String
  deriving Repr, DecidableEq

/-! ## Names -/

def occursIn (part : List Char) : List Char → Bool
  | [] => part.isEmpty
  | c :: rest => part.isPrefixOf (c :: rest) || occursIn part rest

def isCandidate (name : String) : Bool := occursIn ".json".toList name.toList

/-- Whether an entry is a directory of its own, and not a link to one. -/
def isDirectory : Entry → Bool
  | .directory _ => true
  | .locked directory => directory
  | .file _ | .link _ => false

namespace Collection

def start (disk : Disk) (path : String) : Collection :=
  ⟨[(Path.absolute? (Path.ofNames disk.here) path).getD path], [], []⟩

/-! ## Steps -/

def candidates (path : String) (entries : List (String × Entry)) : List String :=
  (entries.filter fun (name, entry) => !isDirectory entry && isCandidate name).map
    fun (name, _) => Path.join path name

def subdirectories (path : String) (entries : List (String × Entry)) : List String :=
  (entries.filter fun (_, entry) => isDirectory entry).map fun (name, _) => Path.join path name

inductive Step where
  | finished
  | listed (warning : Option Warning) (next : Collection)
  | skipped (warning : Warning) (next : Collection)
  | loaded (path : String) (card : Card) (next : Collection)

/-- Load the next file or, if none waits, list the next directory. -/
def step (disk : Disk) (c : Collection) : Step :=
  match c.files with
  | path :: files =>
      match load disk path with
      | .ok card => .loaded path card { c with files := files }
      | .error fault =>
          .skipped (.unloaded path fault) { c with files := files, skipped := c.skipped ++ [path] }
  | [] =>
      match c.directories with
      | [] => .finished
      | path :: directories =>
          match disk.list path with
          | .error reason =>
              .listed (some (.unlisted path reason)) { c with directories := directories }
          | .ok entries =>
              .listed none
                { c with
                  directories := subdirectories path entries ++ directories
                  files := candidates path entries }

/-! ## Cards -/

/-- What asking for a card gives: the warnings on the way, the card with its path if there is
one, and the collection after it. -/
structure Answer where
  warnings : List Warning
  card : Option (String × Card)
  rest : Collection
  deriving Repr

def nextWithin (disk : Disk) : Nat → Collection → Answer
  | 0, c => ⟨[], none, c⟩
  | limit + 1, c =>
      match step disk c with
      | .finished => ⟨[], none, c⟩
      | .listed warning c =>
          let answer := nextWithin disk limit c
          { answer with warnings := warning.toList ++ answer.warnings }
      | .skipped warning c =>
          let answer := nextWithin disk limit c
          { answer with warnings := warning :: answer.warnings }
      | .loaded path card c => ⟨[], some (path, card), c⟩

/-- More steps than a collection can take on a disk. -/
def extent (disk : Disk) (c : Collection) : Nat :=
  c.files.length + (c.directories.map disk.extent).foldr (· + ·) 0

def next (disk : Disk) (c : Collection) : Answer := nextWithin disk (extent disk c + 1) c

def drainWithin (disk : Disk) : Nat → Collection → List Warning × List (String × Card) × Collection
  | 0, c => ([], [], c)
  | limit + 1, c =>
      let answer := next disk c
      match answer.card with
      | none => (answer.warnings, [], answer.rest)
      | some card =>
          let (warnings, cards, rest) := drainWithin disk limit answer.rest
          (answer.warnings ++ warnings, card :: cards, rest)

def drain (disk : Disk) (c : Collection) : List Warning × List (String × Card) × Collection :=
  drainWithin disk (extent disk c + 1) c

end Collection

end Card
end Cardsmith
