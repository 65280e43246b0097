import PageRefresh.Event

/-!
A broadcast, one refresher after the other.

A `Report` says what has happened so far, and `Report.settle` takes in the outcome of the next
call. `broadcast` is the whole of it over any kind of refresher `ρ` and any state `σ` that the calls
share, so a call may change what later calls do.
-/

namespace PageRefresh

/-- A refresher that failed during a broadcast that went on. -/
structure Failure where
  /-- Its position in registration order. -/
  index : Nat
  fragment : Option String
  error : RefreshError
deriving DecidableEq, Repr

structure Report where
  kind : BroadcastKind
  /-- How many refreshers were called, those that failed included. -/
  invoked : Nat
  failures : List Failure
deriving DecidableEq, Repr

namespace Report

/-- A broadcast that has called nobody yet. -/
def start (kind : BroadcastKind) : Report :=
  ⟨kind, 0, []⟩

def isClean (r : Report) : Bool :=
  r.failures.isEmpty

def succeeded (r : Report) : Nat :=
  r.invoked - r.failures.length

/-- Take in the outcome of the next call, made to the refresher named `fragment`. -/
def settle (r : Report) (policy : BroadcastPolicy) (fragment : Option String) :
    Except RefreshError Unit → Except RefreshError Report
  | .ok () => .ok { r with invoked := r.invoked + 1 }
  | .error e =>
      match policy with
      | .isolate =>
          .ok { r with
            invoked := r.invoked + 1
            failures := r.failures ++ [⟨r.invoked, fragment, e⟩] }
      | .abort => .error (.broadcastAborted r.kind r.invoked e)

/-- What is logged about the outcome of the next call. -/
def settleEvents (r : Report) (policy : BroadcastPolicy) (fragment : Option String) :
    Except RefreshError Unit → List Event
  | .ok () => []
  | .error e =>
      match policy with
      | .isolate => [.refresherFailed r.kind r.invoked fragment e]
      | .abort => [.broadcastAborted r.kind r.invoked fragment e]

/-- The event that opens a broadcast to `count` refreshers. -/
def startedEvent (r : Report) (policy : BroadcastPolicy) (count : Nat) : Event :=
  .broadcastStarted r.kind count policy

/-- The event that closes a broadcast in which everybody was called. -/
def completedEvent (r : Report) : Event :=
  .broadcastCompleted r.kind r.invoked r.failures.length

end Report

/-- How a kind of refresher answers the calls of a broadcast, and how events are logged. -/
structure Calls (ρ σ : Type) where
  call : BroadcastKind → ρ → σ → Except RefreshError Unit × σ
  /-- The name reports give to a refresher. -/
  fragment : ρ → σ → Option String
  log : Event → σ → σ

namespace Calls

variable {ρ σ : Type}

def logAll (c : Calls ρ σ) (events : List Event) (s : σ) : σ :=
  events.foldl (fun s e => c.log e s) s

/-- Call the refreshers that are left, in order, on top of a report so far. -/
def broadcastRest (c : Calls ρ σ) (policy : BroadcastPolicy) (r : Report) :
    List ρ → σ → Except RefreshError Report × σ
  | [], s => (.ok r, c.log r.completedEvent s)
  | x :: rest, s =>
      let (outcome, s) := c.call r.kind x s
      let fragment := c.fragment x s
      let s := c.logAll (r.settleEvents policy fragment outcome) s
      match r.settle policy fragment outcome with
      | .ok r => broadcastRest c policy r rest s
      | .error e => (.error e, s)

def broadcast (c : Calls ρ σ) (policy : BroadcastPolicy) (kind : BroadcastKind)
    (refreshers : List ρ) (s : σ) : Except RefreshError Report × σ :=
  let r := Report.start kind
  c.broadcastRest policy r refreshers (c.log (r.startedEvent policy refreshers.length) s)

end Calls

end PageRefresh
