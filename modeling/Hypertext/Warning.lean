/-!
# Warnings that are shown once

A warning is shown the first time only. The memory of shown warnings holds their displayed texts, so
two warnings that read the same count as one.
-/

namespace Hypertext

structure Warning where
  component : String
  message : String
deriving DecidableEq

/-- The line that shows a warning. -/
def Warning.display (w : Warning) : String := s!"[{w.component}] {w.message}"

/-- The displayed texts of the warnings shown so far. -/
structure WarningLog where
  shown : List String := []

namespace WarningLog

/-- Forgets every warning. -/
def empty : WarningLog := {}

/-- Records a warning, and says whether its text is new. -/
def warn (log : WarningLog) (w : Warning) : Bool × WarningLog :=
  if w.display ∈ log.shown then (false, log)
  else (true, ⟨w.display :: log.shown⟩)

end WarningLog

end Hypertext
