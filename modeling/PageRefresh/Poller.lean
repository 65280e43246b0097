import PageRefresh.Time
import PageRefresh.Event

/-!
A poller: the owner of the refresh cycle of one or more page fragments.

A poller fetches nothing itself. Whoever does reports each finished cycle (`complete`), which
counts it, sets the next deadline and hands over the callbacks that were waiting for it; running
them is the caller's part, so a callback may use the poller again. What a callback is, is left open
(`κ`).

The state of a poller moves in four ways, `stop`, `restart`, `complete` and `enqueue`, and only a
running poller has a deadline.
-/

namespace PageRefresh

inductive RunState where
  | running
  | stopped
deriving DecidableEq, Repr

def RunState.name : RunState → String
  | running => "running"
  | stopped => "stopped"

def RunState.ofName? : String → Option RunState
  | "running" => some .running
  | "stopped" => some .stopped
  | _ => none

/-- A poller over fragments, in the order given, with the callbacks waiting for each. -/
structure Poller (κ : Type) where
  fragments : List String
  interval : Duration
  state : RunState
  /-- When the next refresh is due. -/
  deadline : Option Instant
  /-- How many cycles of a fragment were completed. -/
  cycles : String → Nat
  /-- The callbacks waiting for the next cycle of a fragment, first come first. -/
  queue : String → List κ

namespace Poller

variable {κ : Type}

def start (fragments : List String) (interval : Duration) (now : Instant) : Poller κ where
  fragments := fragments
  interval := interval
  state := .running
  deadline := now.after? interval
  cycles := fun _ => 0
  queue := fun _ => []

/-- The name a poller goes by in logs and reports: its first fragment. -/
def fragmentId? (p : Poller κ) : Option String :=
  p.fragments.head?

def owns (p : Poller κ) (fragment : String) : Bool :=
  p.fragments.contains fragment

def isRunning (p : Poller κ) : Bool :=
  p.state == .running

/-- Whether the poller is at work and `t` is not before its deadline. -/
def isDue (p : Poller κ) (t : Instant) : Bool :=
  p.isRunning && p.deadline.any (fun due => decide (due ≤ t))

def pending (p : Poller κ) (fragment : String) : Nat :=
  (p.queue fragment).length

/-- Pause: no deadline until the next `restart`. -/
def stop (p : Poller κ) : Poller κ :=
  { p with state := .stopped, deadline := none }

/-- Resume, with the first deadline an interval from `now`. -/
def restart (p : Poller κ) (now : Instant) : Poller κ :=
  { p with state := .running, deadline := now.after? p.interval }

/-- Let a callback wait for the next cycle of a fragment. -/
def enqueue (p : Poller κ) (fragment : String) (callback : κ) : Poller κ :=
  { p with
    queue := fun f => if f = fragment then p.queue f ++ [callback] else p.queue f }

/-- What a completed cycle hands over: its number, and the callbacks that waited for it. -/
structure Batch (κ : Type) where
  cycle : Nat
  callbacks : List κ

/-- Complete a cycle of a fragment at `now`. Callbacks queued from here on wait for the next. -/
def complete (p : Poller κ) (fragment : String) (now : Instant) :
    Except RefreshError (Poller κ × Batch κ) :=
  if p.owns fragment then
    if p.isRunning then
      let cycle := p.cycles fragment + 1
      .ok ({ p with
              deadline := now.after? p.interval
              cycles := fun f => if f = fragment then cycle else p.cycles f
              queue := fun f => if f = fragment then [] else p.queue f },
            ⟨cycle, p.queue fragment⟩)
    else .error (.notRunning fragment)
  else .error (.unknownFragment fragment)

def stoppedEvent (p : Poller κ) : Event :=
  .pollerStopped p.fragmentId?

def restartedEvent (p : Poller κ) : Event :=
  .pollerRestarted p.fragmentId? p.interval.secs

theorem owns_iff {p : Poller κ} {fragment : String} :
    p.owns fragment = true ↔ fragment ∈ p.fragments := by
  simp [owns]

theorem complete_eq_ok {p : Poller κ} {fragment : String} {now : Instant}
    (ho : p.owns fragment = true) (hr : p.isRunning = true) :
    p.complete fragment now =
      .ok ({ p with
              deadline := now.after? p.interval
              cycles := fun f => if f = fragment then p.cycles fragment + 1 else p.cycles f
              queue := fun f => if f = fragment then [] else p.queue f },
            ⟨p.cycles fragment + 1, p.queue fragment⟩) := by
  simp [complete, ho, hr]

end Poller

end PageRefresh
