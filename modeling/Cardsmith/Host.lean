import Cardsmith.Engine.Fault
import Cardsmith.Engine.Peer
import Cardsmith.Storage.Disk

/-!
# Hosts

What a program finds around it: a disk, environment variables, programs that can be started, and
engines that can be reached.
-/

namespace Cardsmith

/-- A program that was started, as the one who started it sees it. -/
structure ProgramRun where
  printed : Bytes
  /-- How many milliseconds it goes on without a word before it exits. -/
  silence : Nat
  deriving Repr, DecidableEq

structure Host where
  disk : Storage.Disk
  environment : List (String × String)
  home : Option String
  /-- The programs that can be started, by their paths or, without a slash, by their names. -/
  programs : List (String × ProgramRun)
  network : Nat → Except Engine.NetFault Engine.Script

namespace Host

open Storage

def value? (host : Host) (name : String) : Option String := host.environment.lookup name

def start (host : Host) (program : String) (arguments : List String) :
    Except Storage.Fault ProgramRun :=
  if (program :: arguments).any fun text => text.toList.contains '\x00' then
    .error .nulInCommand
  else
    match host.programs.lookup program with
    | some run => .ok run
    | none =>
        if program.toList.contains '/' then
          match host.disk.entry program with
          | .error fault => .error fault
          | .ok _ => .error .denied
        else .error .absent

def cardsVariable : String := "CARDKIT_CARDS_DIR"

def cardsDirectory (host : Host) : String :=
  match host.value? cardsVariable with
  | some directory => directory
  | none => Path.join (host.home.getD "") "src/main/resources/cards"

end Host
end Cardsmith
