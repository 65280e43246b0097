/-!
Lengths of time and the clock that deadlines are read against.

The clock counts seconds in a signed 64-bit word, so a long enough interval has no deadline:
`Instant.after?` is the one place where that shows.
-/

namespace PageRefresh

def nanosPerSec : Nat := 1000000000

/-- A length of time in whole nanoseconds. -/
structure Duration where
  nanos : Nat
deriving DecidableEq, Repr

/-- So many seconds and, beyond them, so many nanoseconds. -/
def Duration.of (secs nanos : Nat) : Duration :=
  ⟨secs * nanosPerSec + nanos⟩

def Duration.ofSecs (secs : Nat) : Duration :=
  .of secs 0

def Duration.secs (d : Duration) : Nat :=
  d.nanos / nanosPerSec

/-- The nanoseconds beyond the whole seconds. -/
def Duration.subsecNanos (d : Duration) : Nat :=
  d.nanos % nanosPerSec

@[simp]
theorem Duration.secs_ofSecs (secs : Nat) : (Duration.ofSecs secs).secs = secs := by
  simp [Duration.ofSecs, Duration.of, Duration.secs, nanosPerSec]

/-- A reading of the clock, in nanoseconds since it was started. -/
structure Instant where
  nanos : Nat
deriving DecidableEq, Repr

instance : LE Instant := ⟨fun s t => s.nanos ≤ t.nanos⟩

instance (s t : Instant) : Decidable (s ≤ t) :=
  inferInstanceAs (Decidable (s.nanos ≤ t.nanos))

/-- The first reading the clock cannot hold: it counts seconds in a signed word. -/
def Instant.limit : Nat :=
  Int64.size / 2 * nanosPerSec

/-- The instant a duration after `t`, if the clock can hold it. -/
def Instant.after? (t : Instant) (d : Duration) : Option Instant :=
  if t.nanos + d.nanos < Instant.limit then some ⟨t.nanos + d.nanos⟩ else none

/-- `t` moved by a number of milliseconds, backwards when it is negative. -/
def Instant.shift (t : Instant) (millis : Int) : Instant :=
  ⟨(t.nanos + millis * 1000000).toNat⟩

theorem Instant.after?_eq_none_iff {t : Instant} {d : Duration} :
    t.after? d = none ↔ Instant.limit ≤ t.nanos + d.nanos := by
  simp [Instant.after?]

end PageRefresh
