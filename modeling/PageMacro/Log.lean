/-!
# Diagnostic records

What happens while a page runs is reported as records: a level, a message and named attributes in
order.
-/

namespace PageMacro

/-- How much a record matters. -/
inductive Level where
  | debug | info | warn | error
  deriving BEq, DecidableEq, Repr

/-- The name of a level. -/
def Level.name : Level → String
  | .debug => "DEBUG"
  | .info => "INFO"
  | .warn => "WARN"
  | .error => "ERROR"

/-- How levels compare: a log shows the records at or above its threshold, which may lie between
two levels. -/
def Level.severity : Level → Int
  | .debug => -4
  | .info => 0
  | .warn => 4
  | .error => 8

/-- The value of an attribute. -/
inductive LogValue where
  | text (s : String)
  | list (items : List String)
  deriving BEq, DecidableEq, Repr

/-- The attributes of a record, in order. -/
abbrev LogAttrs := List (String × LogValue)

/-- One record. -/
structure Record where
  level : Level
  message : String
  attrs : LogAttrs := []
  deriving BEq, DecidableEq, Repr

end PageMacro
