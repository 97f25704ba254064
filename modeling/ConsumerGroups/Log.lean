-- Lines of the log: a level and a text.

set_option autoImplicit false

namespace ConsumerGroups

/-- How much a line matters. -/
inductive Level where
  | debug
  | info
  | warn
  | error
deriving DecidableEq, Repr

def Level.name : Level → String
  | .debug => "DEBUG"
  | .info => "INFO"
  | .warn => "WARN"
  | .error => "ERROR"

structure LogLine where
  level : Level
  text : String
deriving DecidableEq, Repr

/-- Whether a line stands before another when lines are sorted by level name, then by text. -/
def LogLine.before (a b : LogLine) : Bool :=
  a.level.name < b.level.name || (a.level.name == b.level.name && a.text ≤ b.text)

end ConsumerGroups
