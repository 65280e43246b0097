import PageRefresh.Poller
import PageRefresh.Shell
import PageRefresh.Broadcast.Report
import PageRefresh.Script.Step
import PageRefresh.Script.Trace

/-!
Running a script against a page shell.

Every step acts on a shell whose refreshers are pollers of one fragment each and faulty refreshers
that fail whatever is asked of them. Each call a refresher receives is traced. A step that fails
leaves an error entry, and the script goes on.
-/

namespace PageRefresh.Script

/-- A refresher of a simulation. -/
inductive Participant where
  /-- The poller made so many pollers after the first. -/
  | poller (index : Nat)
  /-- Every call to it fails. -/
  | faulty (name : String)
deriving DecidableEq, Repr

/-- A poller of the one fragment it is named after. A waiting callback is the fragment it was
queued for. -/
structure NamedPoller where
  name : String
  poller : Poller String

/-- The state of a simulation. -/
structure Simulation where
  shell : Shell Participant
  /-- The pollers, in the order they were made. -/
  pollers : List NamedPoller
  /-- The pollers registered since the last page change or clearing, in order. -/
  current : List Nat
  interval : Duration
  /-- The clock, which stands still while a script runs. -/
  now : Instant
  /-- The step under way, counted from 1. -/
  step : Nat
  trace : List TraceEntry
  events : List Event

namespace Simulation

/-- A simulation in which nothing has happened. -/
def start (policy : BroadcastPolicy) (interval : Duration) (now : Instant) : Simulation where
  shell := .empty policy
  pollers := []
  current := []
  interval := interval
  now := now
  step := 0
  trace := []
  events := []

def policy (s : Simulation) : BroadcastPolicy :=
  s.shell.registry.policy

def record (s : Simulation) (action : String) (target : Option String) (detail : String) :
    Simulation :=
  { s with trace := s.trace ++ [⟨s.step, action, target, detail⟩] }

def log (s : Simulation) (e : Event) : Simulation :=
  { s with events := s.events ++ [e] }

def logAll (s : Simulation) (events : List Event) : Simulation :=
  { s with events := s.events ++ events }

/-- Put a poller in the place of the one with this index, under the same name. -/
def setPoller (s : Simulation) (i : Nat) (p : Poller String) : Simulation :=
  { s with pollers := s.pollers.modify i fun named => { named with poller := p } }

def nameOf (s : Simulation) : Participant → Option String
  | .poller i => (s.pollers[i]?).map NamedPoller.name
  | .faulty name => some name

def call (kind : BroadcastKind) (x : Participant) (s : Simulation) :
    Except RefreshError Unit × Simulation :=
  match x, kind with
  | .poller i, kind =>
      match s.pollers[i]?, kind with
      | none, _ => (.ok (), s)
      | some ⟨name, p⟩, .stop =>
          (.ok (), ((s.setPoller i p.stop).log p.stoppedEvent).record "stop" (some name) "stopped")
      | some ⟨name, p⟩, .restart =>
          (.ok (), ((s.setPoller i (p.restart s.now)).log p.restartedEvent).record "restart"
            (some name) ("polling every " ++ Nat.repr p.interval.secs ++ "s"))
  | .faulty name, .stop =>
      (.error (.stopFailed name "refresher is faulty"), s.record "stop" (some name) "failed")
  | .faulty name, .restart =>
      (.error (.restartFailed name "refresher is faulty"), s.record "restart" (some name) "failed")

/-- How the refreshers of a simulation answer a broadcast. -/
def calls : Calls Participant Simulation where
  call := call
  fragment := fun x s => s.nameOf x
  log := fun e s => s.log e

def broadcast (s : Simulation) (kind : BroadcastKind) : Except RefreshError Report × Simulation :=
  calls.broadcast s.policy kind s.shell.registry.entries s

/-- The summary of a broadcast that was carried through. -/
def recordReport (s : Simulation) (r : Report) : Simulation :=
  s.record "broadcast" none
    (r.kind.name ++ ": " ++ Nat.repr r.invoked ++ " invoked, " ++ Nat.repr r.failures.length ++
      " failed")

/-- Run the callback that was queued for a fragment. -/
def runCallback (s : Simulation) (fragment : String) : Simulation :=
  s.record "callback" (some fragment) "ran"

def makePoller (s : Simulation) (name : String) : Simulation :=
  { s with
    pollers := s.pollers ++ [⟨name, .start [name] s.interval s.now⟩]
    current := s.current ++ [s.pollers.length] }

def enterPage (s : Simulation) (name : String) : Simulation :=
  let entered := { s with shell := s.shell.enterPage name, current := [] }
  (entered.logAll (s.shell.enterPageEvents name)).record "page" (some name) "entered"

def add (s : Simulation) (name : String) : Simulation :=
  let logged := s.log (s.shell.registry.addedEvent (some name) false)
  ({ logged with
      shell := s.shell.mapRegistry (·.add (.poller s.pollers.length)) }.makePoller name).record
    "register" (some name) "registered"

def addMain (s : Simulation) (name : String) : Simulation :=
  let logged := s.log (s.shell.registry.addedEvent (some name) true)
  ({ logged with
      shell := s.shell.mapRegistry (·.addMain (.poller s.pollers.length)) }.makePoller name).record
    "register" (some name) "registered as main"

def addFaulty (s : Simulation) (name : String) : Simulation :=
  let logged := s.log (s.shell.registry.addedEvent (some name) false)
  { logged with shell := s.shell.mapRegistry (·.add (.faulty name)) }.record "register" (some name)
    "registered (faulty)"

/-- Stop or restart every registered refresher, as a step of its own. -/
def broadcastStep (s : Simulation) (kind : BroadcastKind) : Except ShellError Unit × Simulation :=
  match s.broadcast kind with
  | (.ok r, s) => (.ok (), s.recordReport r)
  | (.error e, s) => (.error (.refresh e), s)

/-- What opening or closing a modal comes to once its depth is counted: a broadcast if it calls for
one, and in any case an entry with the depth. -/
def modalStep (s : Simulation) (action : String) (cause : Option BroadcastKind) :
    Except ShellError Unit × Simulation :=
  let depth := "depth " ++ Nat.repr s.shell.modalDepth
  match cause with
  | none => (.ok (), s.record action none (depth ++ ", nested"))
  | some kind =>
      match s.broadcast kind with
      | (.ok r, s) => (.ok (), (s.record action none depth).recordReport r)
      | (.error e, s) => (.error (.refresh e), s)

def openModal (s : Simulation) : Except ShellError Unit × Simulation :=
  let shell := s.shell.openModal
  ({ s with shell }.log shell.openedEvent).modalStep "modal-open" s.shell.opensWith

def closeModal (s : Simulation) : Except ShellError Unit × Simulation :=
  match s.shell.closesWith with
  | .error e => (.error e, s)
  | .ok cause =>
      let shell := s.shell.closeModal
      ({ s with shell }.log shell.closedEvent).modalStep "modal-close" cause

/-- The main refresher, if it is a poller. -/
def mainPoller? (s : Simulation) : Option (Nat × NamedPoller) :=
  match s.shell.registry.main with
  | some (.poller i) => (s.pollers[i]?).map (i, ·)
  | _ => none

/-- Queue a callback for a fragment on the main refresher, which runs it at once unless it owns
the fragment. -/
def after (s : Simulation) (fragment : String) : Simulation :=
  match s.mainPoller? with
  | none =>
      ((s.record "after" (some fragment) "main refresher: none").log
        (.afterRefreshImmediate fragment)).runCallback fragment
  | some (i, ⟨name, p⟩) =>
      let queued := (s.record "after" (some fragment) ("main refresher: " ++ name)).record "queue"
        (some fragment) ("callback queued on " ++ name)
      if p.owns fragment then queued.setPoller i (p.enqueue fragment fragment)
      else (queued.log (.afterRefreshUnowned fragment)).runCallback fragment

/-- The newest of the current pollers with this name. -/
def newest? (s : Simulation) (name : String) : Option (Nat × NamedPoller) :=
  s.current.reverse.findSome? fun i =>
    match s.pollers[i]? with
    | some named => if named.name = name then some (i, named) else none
    | none => none

/-- Complete a cycle of the newest poller of a fragment. -/
def cycle (s : Simulation) (fragment : String) : Except ShellError Unit × Simulation :=
  match s.newest? fragment with
  | none => (.error (.refresh (.unknownFragment fragment)), s)
  | some (i, ⟨name, p⟩) =>
      match p.complete name s.now with
      | .error e => (.error (.refresh e), s)
      | .ok (p, batch) =>
          let count := batch.callbacks.length
          let ran := batch.callbacks.foldl runCallback (s.setPoller i p)
          (.ok (), (ran.log (.cycleCompleted name batch.cycle count)).record "cycle" (some name)
            ("cycle " ++ Nat.repr (p.cycles name) ++ " done, " ++ Nat.repr count ++
              " callback(s) ran"))

def clear (s : Simulation) : Simulation :=
  let removed := s.shell.registry.size
  ({ s with shell := s.shell.mapRegistry Registry.clear, current := [] }.log
    s.shell.registry.clearedEvent).record "clear" none (Nat.repr removed ++ " refresher(s) removed")

def apply (s : Simulation) : Step → Except ShellError Unit × Simulation
  | .named .page name => (.ok (), s.enterPage name)
  | .named .add name => (.ok (), s.add name)
  | .named .main name => (.ok (), s.addMain name)
  | .named .fail name => (.ok (), s.addFaulty name)
  | .named .after fragment => (.ok (), s.after fragment)
  | .named .cycle fragment => s.cycle fragment
  | .bare .disable => s.broadcastStep .stop
  | .bare .enable => s.broadcastStep .restart
  | .bare .modalOpen => s.openModal
  | .bare .modalClose => s.closeModal
  | .bare .clear => (.ok (), s.clear)

/-- Carry out the next step of a script; a failure becomes an entry of the trace. -/
def next (s : Simulation) (step : Step) : Simulation :=
  match apply { s with step := s.step + 1 } step with
  | (.ok (), s) => s
  | (.error e, s) => (s.log (.simulateStepFailed s.step e)).record "error" none e.message

def run (s : Simulation) (script : List Step) : Simulation :=
  script.foldl next s

end Simulation

/-- What a simulation comes to. -/
structure Outcome where
  policy : BroadcastPolicy
  intervalSecs : Nat
  steps : Nat
  /-- How many refreshers were registered in the end. -/
  registered : Nat
  page : Option String
  trace : List TraceEntry
deriving DecidableEq, Repr

/-- What a simulation of a script of `steps` steps comes to. -/
def Simulation.outcome (s : Simulation) (steps : Nat) : Outcome where
  policy := s.policy
  intervalSecs := s.interval.secs
  steps := steps
  registered := s.shell.registry.size
  page := s.shell.page
  trace := s.trace

def simulate (policy : BroadcastPolicy) (interval : Duration) (now : Instant)
    (script : List Step) : Simulation :=
  (Simulation.start policy interval now).run script

end PageRefresh.Script
