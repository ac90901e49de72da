/-!
# The warning log

Warnings are recorded once. The first time one is recorded it is also shown, unless the log is quiet
at that moment.
-/

namespace MediaSheets

/-- A remark to an author about rules that are kept as they are. -/
structure Warning where
  area : String
  message : String
  deriving DecidableEq, Repr

/-- The text under which a warning is recorded. -/
def Warning.key (w : Warning) : String := "[" ++ w.area ++ "] " ++ w.message

/-- The keys recorded since the log was last cleared, in order, and every warning shown so far. -/
structure WarningLog where
  recorded : List String := []
  quiet : Bool := false
  shown : List Warning := []
  deriving DecidableEq, Repr

namespace WarningLog

def contains (log : WarningLog) (w : Warning) : Bool := log.recorded.contains w.key

def count (log : WarningLog) : Nat := log.recorded.length

/-- Records a warning without showing it, and says whether it is new. -/
def record (log : WarningLog) (w : Warning) : Bool × WarningLog :=
  if log.contains w then (false, log)
  else (true, { log with recorded := log.recorded ++ [w.key] })

/-- Records a warning, and shows it if it is new and the log is not quiet. -/
def warn (log : WarningLog) (w : Warning) : WarningLog :=
  let (isNew, log) := log.record w
  if isNew && !log.quiet then { log with shown := log.shown ++ [w] } else log

/-- Stops showing warnings, or starts again. -/
def setQuiet (log : WarningLog) (quiet : Bool) : WarningLog := { log with quiet }

def clear (log : WarningLog) : WarningLog := { log with recorded := [] }

end WarningLog

end MediaSheets
