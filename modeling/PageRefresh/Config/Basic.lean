import PageRefresh.Error
import PageRefresh.Time

/-!
The configuration: how often fragments are refreshed and what a broadcast does about failures.

A configuration may leave either open. Configurations are merged field by field, the later one
first; what is open in the end has a default. `validate` bounds the interval of what is merged, so
that a source which is overridden does no harm.
-/

namespace PageRefresh

/-- What one source, or several merged, say. -/
structure Config where
  intervalSecs : Option UInt64
  policy : Option BroadcastPolicy
deriving DecidableEq, Repr

namespace Config

/-- A configuration that leaves everything open. -/
def empty : Config :=
  ⟨none, none⟩

/-- The interval of a configuration that leaves it open, in seconds. -/
def defaultIntervalSecs : UInt64 := 10

/-- The policy of a configuration that leaves it open. -/
def defaultPolicy : BroadcastPolicy := .isolate

def effectiveSecs (c : Config) : UInt64 :=
  c.intervalSecs.getD defaultIntervalSecs

def effectiveInterval (c : Config) : Duration :=
  .ofSecs c.effectiveSecs.toNat

def effectivePolicy (c : Config) : BroadcastPolicy :=
  c.policy.getD defaultPolicy

/-- Field by field what `later` says, and where it says nothing what `base` says. -/
def merge (base later : Config) : Config where
  intervalSecs := later.intervalSecs.or base.intervalSecs
  policy := later.policy.or base.policy

/-- Check that an interval, if one is set, is at least a second and at most a day. -/
def validate (c : Config) : Except ConfigError Unit :=
  match c.intervalSecs with
  | none => .ok ()
  | some secs =>
      if secs = 0 then .error (.invalid .intervalTooShort)
      else if maxIntervalSecs < secs.toNat then .error (.invalid (.intervalTooLong secs.toNat))
      else .ok ()

end Config

end PageRefresh
