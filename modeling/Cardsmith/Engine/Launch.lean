import Cardsmith.Engine.Session
import Cardsmith.Engine.Settings
import Cardsmith.Text.Blank

/-!
# Launching engines

An engine is a program that prints the port it listens on as its first line.
-/

namespace Cardsmith
namespace Engine

/-! ## Ports -/

def decimal? (chars : List Char) : Option Nat :=
  if chars.isEmpty then none
  else
    chars.foldl
      (fun n? c => n?.bind fun n =>
        if '0' ≤ c ∧ c ≤ '9' then some (n * 10 + (c.toNat - '0'.toNat)) else none)
      (some 0)

def port? (chars : List Char) : Option Nat :=
  let digits := match chars with
    | '+' :: rest => rest
    | chars => chars
  (decimal? digits).filter (· < 65536)

/-! ## The first line -/

/-- The bytes up to the first line break, that one included, and whether there is one. -/
def spanLine : Bytes → Bytes × Bool
  | [] => ([], false)
  | b :: rest =>
      if b = 0x0A then ([b], true)
      else
        let (line, ended) := spanLine rest
        (b :: line, ended)

def chopLine (chars : List Char) : List Char :=
  match chars.reverse with
  | '\n' :: '\r' :: rest => rest.reverse
  | '\n' :: rest => rest.reverse
  | _ => chars

def firstLine (run : ProgramRun) (timeout : Nat) : Except Fault String :=
  let (line, ended) := spanLine run.printed
  if !ended && timeout ≤ run.silence then .error (.timeout .port)
  else if line.isEmpty then .error (.launch .exited)
  else
    match Utf8.decodeChars line with
    | .ok chars => .ok (String.ofList (chopLine chars))
    | .error fault => .error (.launch (.output fault))

def reportedPort (run : ProgramRun) (timeout : Nat) : Except Fault Nat :=
  match firstLine run timeout with
  | .error fault => .error fault
  | .ok line =>
      match port? (Text.trimBlanks line.toList) with
      | some port => .ok port
      | none => .error (.protocol (.notPort line))

/-! ## Launching -/

/-- What launching comes to: the reports on the way, whether the program was started, and a
session that has not begun yet. -/
structure Launch where
  log : List LogLine
  started : Bool
  session : Except Fault (Session Nat)

def launch (host : Host) (settings : Settings) : Launch :=
  let missing : List LogLine :=
    if settings.engineJar.isNone then
      [⟨.warn, "Engine jar not found, relying on the default classpath"⟩]
    else []
  let command := " ".intercalate (settings.java :: settings.arguments)
  let log := missing ++ [⟨.info, "Launching engine: " ++ command⟩]
  match host.start settings.java settings.arguments with
  | .error reason => ⟨log, false, .error (.launch (.spawn settings.java reason))⟩
  | .ok run =>
      match reportedPort run settings.startupTimeout with
      | .error fault => ⟨log, true, .error fault⟩
      | .ok port =>
          let address := s!"{settings.host}:{port}"
          let found := (host.network port).map fun script => (script.peer, 0)
          ⟨log ++ [⟨.info, "Connecting to engine at " ++ address⟩], true,
            Session.dial .tcp address found⟩

end Engine
end Cardsmith
