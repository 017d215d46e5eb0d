import Cardsmith.Host

/-!
# Settings

How an engine is started and reached.
-/

namespace Cardsmith
namespace Engine

open Storage

def engineArchive : String := "net-1.3.0-all.jar"

def agentArchive : String := "quasar-core-0.7.9-jdk8.jar"

def engineApplication : String := "com.hiddenswitch.spellsource.applications.PythonBridge"

/-- How an engine is started and reached; times are in milliseconds. -/
structure Settings where
  java : String
  engineJar : Option String
  agentJar : Option String
  maxHeap : String
  application : String
  host : String
  startupTimeout : Nat
  connectTimeout : Nat
  deriving Repr, DecidableEq

/-! ## Archives -/

def archivePaths (host : Host) (archive : String) : List String :=
  let below := fun (base path : String) => Path.join (Path.join base path) archive
  let fromHome := fun (path : String) =>
    match host.home with
    | some home => [below home path]
    | none => []
  let shared := (host.value? "PREFIX").getD "/usr/local"
  [archive] ++ fromHome "../net/build/libs" ++ fromHome "../net/lib" ++
    fromHome "../share/spellsource" ++ [below shared "share/spellsource"] ++
    fromHome "../../../../share/spellsource"

def findArchive? (host : Host) (archive : String) : Option String :=
  (archivePaths host archive).find? host.disk.has

namespace Settings

def ofHost (host : Host) : Settings where
  java :=
    match host.value? "JAVA_HOME" with
    | some home => Path.join (Path.join home "bin") "java"
    | none => "java"
  engineJar := (host.value? "CARDKIT_ENGINE_JAR").or (findArchive? host engineArchive)
  agentJar := (host.value? "CARDKIT_AGENT_JAR").or (findArchive? host agentArchive)
  maxHeap := "2048m"
  application := engineApplication
  host := "127.0.0.1"
  startupTimeout := 60000
  connectTimeout := 30000

def withJar (host : Host) (jar : String) : Settings := { ofHost host with engineJar := some jar }

/-- The arguments that the engine is started with.  The last one has it choose a port. -/
def arguments (settings : Settings) : List String :=
  (match settings.agentJar with
    | some jar => [s!"-javaagent:{jar}=mb"]
    | none => []) ++
    [s!"-Xmx{settings.maxHeap}"] ++
    (match settings.engineJar with
      | some jar => ["-cp", jar]
      | none => []) ++
    [settings.application, "0"]

end Settings

end Engine
end Cardsmith
