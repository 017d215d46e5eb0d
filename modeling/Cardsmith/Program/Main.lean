import Cardsmith.Program.Run

/-!
# Command line

Runs the command that the arguments stand for.  What the command looks at is read before it runs,
and the files that it changes are written after it.  Programs cannot be started from here and no
engine can be reached, so a command that needs one says that there is none.
-/

namespace Cardsmith
namespace Program

open Storage

/-! ## Reading what is there -/

def addNew (disk : Disk) (location : Location) (entry : Entry) : Disk :=
  if (disk.root.at? location).isSome then disk else disk.put location entry

def readFile (wanted : String → Bool) (disk : Disk) (location : Location) : IO Disk := do
  if wanted (location.getLast?.getD "") then
    match ← (IO.FS.readBinFile (Path.ofNames location)).toBaseIO with
    | .ok bytes => return disk.put location (.file bytes.toList)
    | .error _ => return disk.put location (.locked false)
  else return addNew disk location (.file [])

def nowhere : String := "/\x00"

/-- What the link at a location leads to in the end: a path, and whether something is there. -/
def readLink (location : Location) : IO (String × Bool) := do
  match ← (IO.FS.realPath (Path.ofNames location)).toBaseIO with
  | .ok target => return (target.toString, true)
  | .error _ => return (nowhere, false)

/-- What is at a location and below it.  What a link leads to is read if it is no directory; its
contents are wanted if those of a file of the link's name are. -/
partial def readBelow (wanted : String → Bool) (disk : Disk) (location : Location) :
    IO Disk := do
  let path := (← IO.currentDir) / Path.ofNames location
  let .ok data ← path.symlinkMetadata.toBaseIO | return disk
  match data.type with
  | .file => readFile wanted disk location
  | .symlink =>
      let (target, found) ← readLink location
      let disk := disk.put location (.link target)
      if !found || (← path.isDir) then return disk
      else
        let name := location.getLast?.getD ""
        readBelow (fun _ => wanted name) disk (Path.names target)
  | .dir =>
      let .ok entries ← path.readDir.toBaseIO | return addNew disk location (.locked true)
      let mut disk := addNew disk location (.directory [])
      for entry in entries do
        disk ← readBelow wanted disk (location ++ [entry.fileName])
      return disk
  | .other => return disk

/-- What a path leads to, with everything on the way, from a location on. -/
partial def readPath (wanted : String → Bool) (disk : Disk) :
    Location → List String → IO Disk
  | here, [] => readBelow wanted disk here
  | here, name :: rest => do
      if name = "" || name = "." then readPath wanted disk here rest
      else if name = ".." then readPath wanted disk here.dropLast rest
      else
        let location := here ++ [name]
        let path := (← IO.currentDir) / Path.ofNames location
        let .ok data ← path.symlinkMetadata.toBaseIO | return disk
        match data.type with
        | .symlink =>
            let (target, found) ← readLink location
            let disk := disk.put location (.link target)
            if found then readPath wanted disk [] (Path.names target ++ rest) else return disk
        | .dir => readPath wanted (addNew disk location (.directory [])) location rest
        | .file | .other => readBelow wanted disk location

def readDisk (disk : Disk) (sight : Sight) : IO Disk :=
  sight.paths.foldlM
    (fun disk path =>
      readPath sight.wanted disk (if Path.isAbsolute path then [] else disk.here)
        (Path.names path))
    disk

/-! ## Surroundings -/

def variableNames : List String :=
  [Host.cardsVariable, "CARDKIT_ENGINE_JAR", "CARDKIT_AGENT_JAR", "JAVA_HOME", "PREFIX"]

def readHost : IO Host := do
  let here := Path.names (← IO.currentDir).toString
  let here := here.filter (· ≠ "")
  let values ← variableNames.filterMapM fun name => do
    return (← IO.getEnv name).map fun value => (name, value)
  let root := Entry.put (.directory []) here (some (.directory []))
  return ⟨⟨root, here⟩, values, none, [], fun _ => .error .refused⟩

/-! ## Writing what has changed -/

def writeChanges (before after : Disk) : IO Unit :=
  for (location, contents) in after.root.files [] do
    let same : Bool := match before.root.at? location with
      | some (.file old) => old == contents
      | _ => false
    unless same do
      IO.FS.writeBinFile (Path.ofNames location) ⟨contents.toArray⟩

def runHere (arguments : List String) : IO UInt32 := do
  let host ← readHost
  let host := { host with disk := ← readDisk host.disk (sight host arguments) }
  let outcome := run host arguments
  writeChanges host.disk outcome.disk
  IO.print outcome.printed
  for line in outcome.errors do
    IO.eprintln line
  return outcome.exit.toUInt32

end Program
end Cardsmith

def main (arguments : List String) : IO UInt32 := Cardsmith.Program.runHere arguments
