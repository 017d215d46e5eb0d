import Cardsmith.Card.Collection
import Cardsmith.Card.HeroClass
import Cardsmith.Card.Identifier
import Cardsmith.Card.Walk
import Cardsmith.Engine.Launch
import Cardsmith.Program.Command

/-!
# Running commands

What each command prints, reports and changes on the host it runs on.
-/

namespace Cardsmith
namespace Program

open Card

/-! ## Outcomes -/

/-- Why a command fails: what it was about, if that is said, and the cause. -/
structure Failure where
  context : Option String
  cause : String
  deriving Repr, DecidableEq

def indentLines (text : String) : String :=
  "\n".intercalate ((text.splitOn "\n").map fun line => "    " ++ line)

def Failure.text (failure : Failure) : String :=
  match failure.context with
  | none => "Error: " ++ failure.cause
  | some context => s!"Error: {context}\n\nCaused by:\n{indentLines failure.cause}"

structure Outcome where
  printed : String
  log : List LogLine
  failure : Option Failure
  disk : Storage.Disk
  requests : List Bytes
  /-- Whether it ends at all. -/
  ends : Bool

namespace Outcome

def exit (outcome : Outcome) : Nat := if outcome.failure.isSome then 1 else 0

def errors (outcome : Outcome) : List String :=
  outcome.log.map LogLine.text ++ (outcome.failure.map Failure.text).toList

/-- The outcome of a command that leaves the disk as it is. -/
def done (host : Host) (printed : String) : Outcome := ⟨printed, [], none, host.disk, [], true⟩

def failed (host : Host) (context : Option String) (cause : String) : Outcome :=
  ⟨"", [], some ⟨context, cause⟩, host.disk, [], true⟩

end Outcome

def line (fields : List String) : String := "\t".intercalate fields ++ "\n"

def warningLines (warnings : List Warning) : List LogLine :=
  warnings.map fun warning => ⟨.warn, warning.message⟩

/-! ## Cards -/

def list (host : Host) (directory : String) : Outcome :=
  let (warnings, cards, rest) := (Collection.start host.disk directory).drain host.disk
  let printed := cards.map fun (path, card) => line [(identifier? card).getD "-", path]
  let log := [⟨.info, "Listing cards under " ++ directory⟩] ++ warningLines warnings ++
    [⟨.info, s!"{cards.length} cards, {rest.skipped.length} skipped"⟩]
  ⟨String.join printed, log, none, host.disk, [], true⟩

def walk (host : Host) (file : String) : Outcome :=
  match load host.disk file with
  | .error fault => .failed host (some ("loading " ++ file)) fault.message
  | .ok card =>
      let printed := (Card.walk card).map fun n =>
        line [toString n.depth, Path.pointer n.path, n.key.getD "-", compact n.view]
      .done host (String.join printed)

def classes (host : Host) : Outcome :=
  .done host (String.join (HeroClass.all.map fun c => line [c.name, c.color]))

/-! ## Rewriting -/

structure Rewriting where
  disk : Storage.Disk
  collection : Collection
  rewritten : Nat
  unchanged : Nat
  log : List LogLine
  failure : Option Failure

namespace Rewriting

def treat (r : Rewriting) (path : String) (card : Card) : Rewriting :=
  match r.disk.read path with
  | .error reason => { r with failure := some ⟨some ("reading " ++ path), reason.message⟩ }
  | .ok contents =>
      if Sha256.hexDigest contents = digest card then { r with unchanged := r.unchanged + 1 }
      else
        match save r.disk path card with
        | .error fault => { r with failure := some ⟨none, fault.message⟩ }
        | .ok disk => { r with disk := disk, rewritten := r.rewritten + 1 }

/-- Treat at most the number of cards given, up to a failure. -/
def run : Nat → Rewriting → Rewriting
  | 0, r => r
  | limit + 1, r =>
      let answer := r.collection.next r.disk
      let r := { r with collection := answer.rest, log := r.log ++ warningLines answer.warnings }
      match answer.card with
      | none => r
      | some (path, card) =>
          let r := r.treat path card
          if r.failure.isSome then r else run limit r

def below (disk : Storage.Disk) (directory : String) : Rewriting :=
  let start := Collection.start disk directory
  run (start.extent disk + 1) ⟨disk, start, 0, 0, [], none⟩

def summary (r : Rewriting) : LogLine :=
  ⟨.info,
    s!"{r.rewritten} rewritten, {r.unchanged} unchanged, {r.collection.skipped.length} skipped"⟩

end Rewriting

def rewrite (host : Host) (directory : String) : Outcome :=
  let r := Rewriting.below host.disk directory
  let log := [⟨.info, "Rewriting cards under " ++ directory⟩] ++ r.log ++
    if r.failure.isSome then [] else [r.summary]
  ⟨"", log, r.failure, r.disk, [], true⟩

/-! ## Engines -/

def engineText (s : Engine.Session Nat) : String :=
  s!"{s.engine.1} v{s.engine.2}\n" ++
    String.join (Engine.references.map fun reference =>
      line [reference.name, reference.target.text])

def engine (host : Host) (settings : Engine.Settings) : Outcome :=
  let launch := Engine.launch host settings
  match launch.session with
  | .error fault => ⟨"", launch.log, some ⟨none, fault.message⟩, host.disk, [], true⟩
  | .ok s =>
      match s.begin with
      | (none, s) => ⟨"", launch.log ++ s.log, none, host.disk, s.received, false⟩
      | (some (.error fault), s) =>
          ⟨"", launch.log ++ s.log, some ⟨none, fault.message⟩, host.disk, s.received, true⟩
      | (some (.ok ()), s) =>
          let s := s.close
          let log := launch.log ++ s.log ++
            [⟨.info, "Engine exited with exit status: 0"⟩, ⟨.info, "Engine context closed"⟩]
          ⟨engineText s, log, none, host.disk, s.received, true⟩

/-! ## Commands -/

def Command.run (host : Host) : Command → Outcome
  | .list directory => Program.list host (directory.getD host.cardsDirectory)
  | .walk file => Program.walk host file
  | .identifier name type => .done host (Card.identifier name type ++ "\n")
  | .classes => Program.classes host
  | .rewrite directory => Program.rewrite host (directory.getD host.cardsDirectory)
  | .engine none => Program.engine host (.ofHost host)
  | .engine (some jar) => Program.engine host (.withJar host jar)

/-! ## What commands see -/

structure Sight where
  paths : List String
  /-- Whether it looks into the files of a name. -/
  wanted : String → Bool

/-- The part of a disk that a command looks at; an engine's archives only have to be there. -/
def Command.sight (host : Host) : Command → Sight
  | .list directory | .rewrite directory =>
      ⟨[directory.getD host.cardsDirectory], isCandidate⟩
  | .walk file => ⟨[file], fun _ => true⟩
  | .engine _ =>
      ⟨Engine.archivePaths host Engine.engineArchive ++
        Engine.archivePaths host Engine.agentArchive, fun _ => false⟩
  | .identifier _ _ | .classes => ⟨[], fun _ => false⟩

def sight (host : Host) (arguments : List String) : Sight :=
  match Command.ofArguments? arguments with
  | some command => command.sight host
  | none => ⟨[], fun _ => false⟩

/-! ## Arguments -/

def run (host : Host) (arguments : List String) : Outcome :=
  match Command.ofArguments? arguments with
  | some command => command.run host
  | none => .failed host none usage

end Program
end Cardsmith
