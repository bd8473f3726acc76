import PlanService.Text.UpperCase

/-! # Log levels

How much is logged.  A level is named in any case; an unknown name stands for `INFO`.
-/

namespace PlanService

inductive LogLevel where
  | trace
  | debug
  | info
  | warn
  | error
  deriving Repr, DecidableEq, Inhabited

namespace LogLevel

def text : LogLevel → String
  | trace => "TRACE"
  | debug => "DEBUG"
  | info => "INFO"
  | warn => "WARN"
  | error => "ERROR"

/-- All levels under their names in capitals; one has two. -/
def named : List (String × LogLevel) :=
  ("WARNING", warn) :: [trace, debug, info, warn, error].map fun l => (l.text, l)

def ofName? (name : String) : Option LogLevel :=
  named.lookup (Text.upper name)

/-- The level of a program that was told this name, if any. -/
def ofChoice (name : Option String) : LogLevel :=
  (name.bind ofName?).getD info

def warning? (name : Option String) : Option String :=
  match name with
  | some name =>
    if (ofName? name).isNone then some s!"Warning: Unknown log-level '{name}', defaulting to INFO"
    else none
  | none => none

end LogLevel

end PlanService
