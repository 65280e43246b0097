/-!
What a broadcast asks of every refresher, and what it does when one of them fails.

Both have fixed names, which are what reports, log events and configuration files show.
-/

namespace PageRefresh

/-- What a broadcast asks of every registered refresher. -/
inductive BroadcastKind where
  | stop
  | restart
deriving DecidableEq, Repr

/-- The name reports and log events show. -/
def BroadcastKind.name : BroadcastKind → String
  | .stop => "stop"
  | .restart => "restart"

/-- The kind with exactly this name. -/
def BroadcastKind.ofName? : String → Option BroadcastKind
  | "stop" => some .stop
  | "restart" => some .restart
  | _ => none

/-- What a broadcast does when one refresher fails. -/
inductive BroadcastPolicy where
  /-- Note the failure and go on with the remaining refreshers. -/
  | isolate
  /-- End at the first failure, so that later refreshers are not called. -/
  | abort
deriving DecidableEq, Repr, Inhabited

/-- The name configuration files use and reports show. -/
def BroadcastPolicy.name : BroadcastPolicy → String
  | .isolate => "isolate"
  | .abort => "abort"

/-- The policy with exactly this name. -/
def BroadcastPolicy.ofName? : String → Option BroadcastPolicy
  | "isolate" => some .isolate
  | "abort" => some .abort
  | _ => none

@[simp]
theorem BroadcastKind.ofName?_name (k : BroadcastKind) : ofName? k.name = some k := by
  cases k <;> rfl

@[simp]
theorem BroadcastPolicy.ofName?_name (p : BroadcastPolicy) : ofName? p.name = some p := by
  cases p <;> rfl

end PageRefresh
