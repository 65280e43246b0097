import PageRefresh.Session.Agenda

/-!
A session, operation by operation, and what shows after each.

An operation is carried out to its end. What shows is its reply, the journal entries it left, and a
view of the state. The view names page visits by small numbers, in the order in which views came to
show them, so that it does not depend on visits that nobody saw.
-/

namespace PageRefresh.Session

/-- A poller as a view shows it, with the cycles and the waiting callbacks of each fragment. -/
structure PollerView where
  state : RunState
  scheduled : Bool
  fragments : List (String × Nat × Nat)

/-- What of the state shows. -/
structure StateView where
  policy : BroadcastPolicy
  size : Nat
  isEmpty : Bool
  main : Option String
  page : Option String
  visit : Option Nat
  modalDepth : Nat
  pollers : List (String × PollerView)

structure StepView where
  reply : Reply
  calls : List Call
  events : List Event
  state : StateView

/-- A session between two operations. -/
structure State where
  world : World
  /-- The visits that views have shown, first to last. -/
  shown : List Nat

namespace State

def start (policy : BroadcastPolicy) : State :=
  ⟨.empty policy, []⟩

end State

/-- A poller as a view shows it. -/
def PollerView.of (p : Poller Callback) : PollerView where
  state := p.state
  scheduled := p.deadline.isSome
  fragments := p.fragments.map fun f => (f, p.cycles f, p.pending f)

/-- The pollers that names stand for. -/
def World.namedPollers (w : World) : List (String × PollerView) :=
  w.names.filterMap fun (id, r) =>
    match r with
    | .poller i => (w.pollers[i]?).map fun p => (id, .of p)
    | _ => none

/-- The visits shown once this one has been: a visit goes by its place among them. -/
def showVisit (shown : List Nat) : Option Nat → List Nat
  | none => shown
  | some visit => if shown.contains visit then shown else shown ++ [visit]

/-- What of a world shows, when these visits have been shown. -/
def World.view (w : World) (shown : List Nat) : StateView where
  policy := w.policy
  size := w.shell.registry.size
  isEmpty := w.shell.registry.isEmpty
  main := w.fragmentOf w.main
  page := w.shell.page
  visit := w.shell.visit.map (shown.idxOf ·)
  modalDepth := w.shell.modalDepth
  pollers := w.namedPollers

def calls (journal : List Record) : List Call :=
  journal.filterMap fun
    | .call c => some c
    | .event _ => none

def events (journal : List Record) : List Event :=
  journal.filterMap fun
    | .event e => some e
    | .call _ => none

/-- Carry out an operation at `now`, within a number of steps, and say what shows after it. -/
def State.perform (s : State) (now : Instant) (limit : Nat) (c : Command) :
    Option (StepView × State) :=
  let start : World := { s.world with journal := [], reply := none }
  match Machine.run now limit ⟨start, [.command none c]⟩ with
  | none => none
  | some w =>
      let shown := showVisit s.shown w.shell.visit
      some (⟨w.reply.getD .done, calls w.journal, events w.journal, w.view shown⟩, ⟨w, shown⟩)

/-- Carry out operations in order; `none` as soon as one takes more than `limit` steps. -/
def State.performAll (s : State) (now : Instant) (limit : Nat) :
    List Command → Option (List StepView)
  | [] => some []
  | c :: rest =>
      match s.perform now limit c with
      | none => none
      | some (view, s) => (performAll s now limit rest).map (view :: ·)

end PageRefresh.Session
