/-!
The trace of a simulated script: what was observed, entry by entry.
-/

namespace PageRefresh.Script

/-- Something observed while a script ran. -/
structure TraceEntry where
  /-- The step that was under way, counted from 1. -/
  step : Nat
  action : String
  target : Option String
  detail : String
deriving DecidableEq, Repr

end PageRefresh.Script
