import PageRefresh.Poller
import PageRefresh.Shell
import PageRefresh.Session.Command

/-!
The state of a session: the page shell, the pollers made so far, the names given to refreshers, and
the journal of what happened.

Refreshers are shared: a name and any number of registrations may stand for the same poller, which
is why pollers are kept in one place and meant by their index.
-/

namespace PageRefresh.Session

/-- Everything the operations of a session act on. -/
structure World where
  shell : Shell Refresher
  /-- The pollers, in the order they were made. -/
  pollers : List (Poller Callback)
  names : List (String × Refresher)
  journal : List Record
  /-- What the operation that the session itself asked for has answered. -/
  reply : Option Reply

namespace World

def empty (policy : BroadcastPolicy) : World :=
  ⟨.empty policy, [], [], [], none⟩

def log (w : World) (e : Event) : World :=
  { w with journal := w.journal ++ [.event e] }

def logAll (w : World) (events : List Event) : World :=
  { w with journal := w.journal ++ events.map .event }

def note (w : World) (c : Call) : World :=
  { w with journal := w.journal ++ [.call c] }

def policy (w : World) : BroadcastPolicy :=
  w.shell.registry.policy

def mapRegistry (w : World) (f : Registry Refresher → Registry Refresher) : World :=
  { w with shell := w.shell.mapRegistry f }

/-- Let a name stand for a refresher, whatever it stood for before. -/
def bind (w : World) (id : String) (r : Refresher) : World :=
  { w with names := w.names.filter (·.1 != id) ++ [(id, r)] }

def find? (w : World) (id : String) : Option Refresher :=
  w.names.lookup id

/-- The index of the poller that a name stands for. -/
def pollerIndex? (w : World) (id : String) : Option Nat :=
  match w.find? id with
  | some (.poller i) => some i
  | _ => none

/-- The poller that a name stands for, with its index. -/
def findPoller? (w : World) (id : String) : Option (Nat × Poller Callback) :=
  match w.pollerIndex? id with
  | some i => (w.pollers[i]?).map (i, ·)
  | none => none

/-- Put a poller in the place of the one with this index. -/
def setPoller (w : World) (i : Nat) (p : Poller Callback) : World :=
  { w with pollers := w.pollers.set i p }

def addPoller (w : World) (p : Poller Callback) : World :=
  { w with pollers := w.pollers ++ [p] }

/-- The main refresher; without one, a refresher that does nothing. -/
def main (w : World) : Refresher :=
  w.shell.registry.main.getD .noop

/-- The fragment that reports and log events know a refresher by. -/
def fragmentOf (w : World) : Refresher → Option String
  | .noop => none
  | .poller i => (w.pollers[i]?).bind Poller.fragmentId?
  | .scripted script => script.fragment

def register (w : World) (r : Refresher) : World :=
  (w.log (w.shell.registry.addedEvent (w.fragmentOf r) false)).mapRegistry (·.add r)

def registerMain (w : World) (r : Refresher) : World :=
  (w.log (w.shell.registry.addedEvent (w.fragmentOf r) true)).mapRegistry (·.addMain r)

def clear (w : World) : World :=
  (w.log w.shell.registry.clearedEvent).mapRegistry Registry.clear

end World

end PageRefresh.Session
