import Cardsmith.Engine.Diagnostic
import Cardsmith.Engine.Frame
import Cardsmith.Json.Fault
import Cardsmith.Storage.Fault

/-!
# Faults of engines

Why an engine cannot be started, reached or asked.
-/

namespace Cardsmith
namespace Engine

/-! ## Causes -/

inductive NetFault where
  | unreachable
  | refused
  | absent
  deriving Repr, DecidableEq

def NetFault.message : NetFault → String
  | .unreachable => "Network is unreachable (os error 101)"
  | .refused => "Connection refused (os error 111)"
  | .absent => "No such file or directory (os error 2)"

inductive LaunchFault where
  | spawn (program : String) (reason : Storage.Fault)
  | output (fault : Utf8.Fault)
  | exited
  deriving Repr, DecidableEq

def LaunchFault.message : LaunchFault → String
  | .spawn program reason => s!"Failed to spawn {program}: {reason.message}"
  | .output fault => "Failed to read engine output: " ++ fault.message
  | .exited => "Engine exited before reporting a port"

inductive ConnectionFault where
  | dial (address : String) (reason : NetFault)
  | dialSocket (reason : NetFault)
  | frame (fault : FrameFault)
  | notConnected
  | notListening
  /-- Whoever listened to the engine left without an answer. -/
  | abandoned
  | lost
  deriving Repr, DecidableEq

def ConnectionFault.message : ConnectionFault → String
  | .dial address reason => s!"Failed to connect to {address}: {reason.message}"
  | .dialSocket reason => "Failed to connect: " ++ reason.message
  | .frame fault => fault.message
  | .notConnected => "Not connected"
  | .notListening => "Reader task not running"
  | .abandoned => "Reader task died waiting for response"
  | .lost => "Connection lost"

inductive ProtocolFault where
  | notReady (reply : Message)
  | notImported (reply : Message)
  | notReturned (target : Target) (method : String) (reply : Message)
  | notPort (line : String)
  deriving Repr, DecidableEq

def ProtocolFault.message : ProtocolFault → String
  | .notReady reply => "Expected Ready message, got " ++ reply.diagnostic
  | .notImported reply => "Unexpected response to ImportPackage: " ++ reply.diagnostic
  | .notReturned target method reply =>
      s!"Unexpected response to {target.text}.{method}: {reply.diagnostic}"
  | .notPort line => "Expected gateway port, got " ++ Text.quoted line

inductive TimeoutFault where
  | ready
  | port
  deriving Repr, DecidableEq

def TimeoutFault.message : TimeoutFault → String
  | .ready => "Engine never sent Ready"
  | .port => "Engine did not report its gateway port"

/-! ## Faults -/

inductive Fault where
  | launch (cause : LaunchFault)
  | connection (cause : ConnectionFault)
  | malformed (fault : Json.Fault)
  | protocol (cause : ProtocolFault)
  | remote (code : Int32) (message : String)
  | timeout (cause : TimeoutFault)
  | closed
  deriving Repr, DecidableEq

inductive FaultKind where
  | launch
  | connection
  | malformed
  | protocol
  | remote
  | timeout
  | closed
  deriving Repr, DecidableEq

def FaultKind.describe (kind : FaultKind) (cause : String) : String :=
  match kind with
  | .launch => "Launch error: " ++ cause
  | .connection => "IPC error: " ++ cause
  | .malformed => "Serialization error: " ++ cause
  | .protocol => "Protocol error: " ++ cause
  | .remote => "Engine error " ++ cause
  | .timeout => "Timed out: " ++ cause
  | .closed => "Engine context is closed"

def Fault.kind : Fault → FaultKind
  | .launch _ => .launch
  | .connection _ => .connection
  | .malformed _ => .malformed
  | .protocol _ => .protocol
  | .remote _ _ => .remote
  | .timeout _ => .timeout
  | .closed => .closed

def Fault.causeText : Fault → String
  | .launch cause => cause.message
  | .connection cause => cause.message
  | .malformed fault => fault.message
  | .protocol cause => cause.message
  | .remote code message => s!"{code.toInt}: {message}"
  | .timeout cause => cause.message
  | .closed => ""

def Fault.message (fault : Fault) : String := fault.kind.describe fault.causeText

end Engine
end Cardsmith
