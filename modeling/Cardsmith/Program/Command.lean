/-!
# Commands

What the program can be asked to do on its command line.
-/

namespace Cardsmith
namespace Program

inductive Command where
  | list (directory : Option String)
  | walk (file : String)
  | identifier (name type : String)
  | classes
  | rewrite (directory : Option String)
  | engine (jar : Option String)
  deriving Repr, DecidableEq

def usage : String :=
  "usage: cardkit <list [DIR] | walk FILE | id NAME TYPE | classes | rewrite [DIR] | engine [JAR]>"

def Command.ofArguments? : List String → Option Command
  | ["list"] => some (.list none)
  | ["list", directory] => some (.list (some directory))
  | ["walk", file] => some (.walk file)
  | ["id", name, type] => some (.identifier name type)
  | ["classes"] => some .classes
  | ["rewrite"] => some (.rewrite none)
  | ["rewrite", directory] => some (.rewrite (some directory))
  | ["engine"] => some (.engine none)
  | ["engine", jar] => some (.engine (some jar))
  | _ => none

end Program
end Cardsmith
