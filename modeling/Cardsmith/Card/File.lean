import Cardsmith.Card.Basic
import Cardsmith.Storage.Disk

/-!
# Card files

Cards on a disk, one to a file.
-/

namespace Cardsmith
namespace Card

def load (disk : Storage.Disk) (path : String) : Except Fault Card :=
  match disk.readText path with
  | .ok text => ofText text
  | .error reason => .error (.storage path reason)

/-- Write a card to the file at a path, in place of what it held. -/
def save (disk : Storage.Disk) (path : String) (card : Card) : Except Fault Storage.Disk :=
  match disk.write path (Utf8.encode (text card)) with
  | .ok disk => .ok disk
  | .error reason => .error (.storage path reason)

end Card
end Cardsmith
