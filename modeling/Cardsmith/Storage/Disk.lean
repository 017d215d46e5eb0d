import Cardsmith.Storage.Fault
import Cardsmith.Storage.Path
import Cardsmith.Storage.Tree

/-!
# Disks

A tree of files as programs use it: by path texts, seen from a working directory.  A path is
followed name by name and through the links on its way, of which there may be forty.  Nothing leads
into a directory that may not be opened.
-/

namespace Cardsmith
namespace Storage

structure Disk where
  root : Entry
  here : Location
  deriving Repr

inductive Place where
  | taken (location : Location)
  /-- A name that is still free in a directory. -/
  | free (directory : Location) (name : String)
  deriving Repr, DecidableEq

namespace Disk

/-! ## Following paths -/

def maxName : Nat := 255

def maxPath : Nat := 4095

def maxLinks : Nat := 40

/-- Follow names from a location; `jump` follows the names of a link and those after it.  To
create a file, the last name must not ask for a directory. -/
def followNames (root : Entry) (creating : Bool)
    (jump : List String → Location → Except Fault Place) :
    List String → Location → Except Fault Place
  | [], here => .ok (.taken here)
  | name :: rest, here =>
      match root.at? here with
      | some (.directory entries) =>
          if name = "" || name = "." then followNames root creating jump rest here
          else if name = ".." then followNames root creating jump rest here.dropLast
          else if creating && rest = [""] then .error .isDirectory
          else if maxName < name.utf8ByteSize then .error .nameTooLong
          else
            match entries.lookup name with
            | none => if rest = [] then .ok (.free here name) else .error .absent
            | some (.link target) =>
                jump (Path.names target ++ rest) (if Path.isAbsolute target then [] else here)
            | some _ => followNames root creating jump rest (here ++ [name])
      | some (.locked true) =>
          if name = "" then followNames root creating jump rest here else .error .denied
      | _ => .error .notDirectory

def follow (root : Entry) (creating : Bool) :
    Nat → List String → Location → Except Fault Place
  | 0 => followNames root creating fun _ _ => .error .linkLoop
  | links + 1 => followNames root creating (follow root creating links)

def find (disk : Disk) (creating : Bool) (path : String) : Except Fault Place :=
  if path.toList.contains '\x00' then .error .nulInPath
  else if path = "" then .error .absent
  else if maxPath < path.utf8ByteSize then .error .nameTooLong
  else
    follow disk.root creating maxLinks (Path.names path)
      (if Path.isAbsolute path then [] else disk.here)

def entry (disk : Disk) (path : String) : Except Fault Entry :=
  match disk.find false path with
  | .error fault => .error fault
  | .ok (.free _ _) => .error .absent
  | .ok (.taken location) =>
      match disk.root.at? location with
      | some entry => .ok entry
      | none => .error .absent

/-! ## Reading -/

def has (disk : Disk) (path : String) : Bool := (disk.entry path).isOk

def read (disk : Disk) (path : String) : Except Fault Bytes :=
  match disk.entry path with
  | .error fault => .error fault
  | .ok (.file contents) => .ok contents
  | .ok (.locked _) => .error .denied
  | .ok _ => .error .isDirectory

def readText (disk : Disk) (path : String) : Except Fault String :=
  match disk.read path with
  | .error fault => .error fault
  | .ok bytes =>
      match Utf8.decode? bytes with
      | some text => .ok text
      | none => .error .notText

def list (disk : Disk) (path : String) : Except Fault (List (String × Entry)) :=
  match disk.entry path with
  | .error fault => .error fault
  | .ok (.directory entries) => .ok (entries.mergeSort fun a b => decide (a.1 ≤ b.1))
  | .ok (.locked true) => .error .denied
  | .ok _ => .error .notDirectory

/-- How many entries there are below the directory at a path, itself included. -/
def extent (disk : Disk) (path : String) : Nat :=
  match disk.entry path with
  | .ok entry => 1 + entry.count
  | .error _ => 1

/-! ## Writing -/

def put (disk : Disk) (location : Location) (entry : Entry) : Disk :=
  { disk with root := entry.put location (some disk.root) }

def write (disk : Disk) (path : String) (contents : Bytes) : Except Fault Disk :=
  match disk.find true path with
  | .error fault => .error fault
  | .ok (.free directory name) => .ok (disk.put (directory ++ [name]) (.file contents))
  | .ok (.taken location) =>
      match disk.root.at? location with
      | some (.file _) => .ok (disk.put location (.file contents))
      | some (.locked false) => .error .denied
      | _ => .error .isDirectory

/-! ## Other changes -/

/-- The directory that a path's last name is in, and that name; a link of that name is not
followed. -/
def locate (disk : Disk) (path : String) : Except Fault (Location × String) :=
  let names := (Path.names path).filter (· ≠ "")
  match names.getLast? with
  | none => .error .isDirectory
  | some name =>
      let start := if Path.isAbsolute path then [] else disk.here
      match follow disk.root false maxLinks names.dropLast start with
      | .ok (.taken location) => .ok (location, name)
      | .ok (.free _ _) => .error .absent
      | .error fault => .error fault

def makeFrom (disk : Disk) (base : String) : List String → Except Fault Disk
  | [] => .ok disk
  | name :: rest =>
      let path := Path.join base name
      match disk.find false path with
      | .ok (.taken _) => makeFrom disk path rest
      | .ok (.free directory name) =>
          makeFrom (disk.put (directory ++ [name]) (.directory [])) path rest
      | .error fault => .error fault

def makeDirectories (disk : Disk) (path : String) : Except Fault Disk :=
  makeFrom disk (if Path.isAbsolute path then "/" else "")
    ((Path.names path).filter (· ≠ ""))

def makeLink (disk : Disk) (path target : String) : Except Fault Disk :=
  match disk.locate path with
  | .ok (directory, name) => .ok (disk.put (directory ++ [name]) (.link target))
  | .error fault => .error fault

def remove (disk : Disk) (path : String) : Except Fault Disk :=
  match disk.locate path with
  | .ok (directory, name) => .ok { disk with root := disk.root.remove (directory ++ [name]) }
  | .error fault => .error fault

end Disk

end Storage
end Cardsmith
