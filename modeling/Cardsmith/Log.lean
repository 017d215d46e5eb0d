/-!
# Log lines

What a program reports beside its output, one line each.
-/

namespace Cardsmith

inductive LogLevel where
  | info
  | warn
  | error
  deriving Repr, DecidableEq

def LogLevel.name : LogLevel → String
  | .info => "INFO"
  | .warn => "WARN"
  | .error => "ERROR"

structure LogLine where
  level : LogLevel
  message : String
  deriving Repr, DecidableEq

def LogLine.text (line : LogLine) : String := line.level.name ++ " " ++ line.message

end Cardsmith
