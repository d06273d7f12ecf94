namespace HtmlConformance

/-! Warnings to the operator about inputs for which there is no rule. Faults of a
document do not go here; they are diagnostics. Each distinct text is written once until
the log is cleared. -/

structure Warning where
  component : String
  message : String
  deriving DecidableEq

namespace Warning

def key (warning : Warning) : String :=
  "[" ++ warning.component ++ "] " ++ warning.message

end Warning

/-- The texts already given, and the warnings written since the log was made. -/
structure WarningLog where
  given : List String := []
  written : List Warning := []
  deriving DecidableEq

namespace WarningLog

def isNew (log : WarningLog) (warning : Warning) : Bool := !log.given.contains warning.key

def warn (log : WarningLog) (warning : Warning) : WarningLog :=
  if log.isNew warning then
    { given := warning.key :: log.given, written := log.written ++ [warning] }
  else
    log

def warnAll (log : WarningLog) (warnings : List Warning) : WarningLog :=
  warnings.foldl warn log

/-- Forget which texts have been given; what is written stays written. -/
def clear (log : WarningLog) : WarningLog := { log with given := [] }

end WarningLog

end HtmlConformance
