import PageRefresh.Time
import PageRefresh.Broadcast.Report

/-!
The operations of a session, as data.

A callback is a finite program of operations, and so is what a scripted refresher does when it is
called. Both may use every operation there is, whatever is under way when they run.
-/

namespace PageRefresh.Session

mutual

/-- An operation on the page shell, its registry or a refresher. Refreshers go by the names the
session gave them. -/
inductive Command where
  /-- Make a poller that runs, and name it. -/
  | poller (id : String) (fragments : List String) (interval : Duration)
  | scripted (id : String) (script : Script)
  /-- Name a scripted refresher that reports know by no fragment, whatever its script says. -/
  | anonymous (id : String) (script : Script)
  | noop (id : String)
  | add (id : String)
  | addMain (id : String)
  /-- Register the current main refresher as the main one once more. -/
  | readdMain
  | broadcast (kind : BroadcastKind)
  | clear
  | openModal
  | closeModal
  | enterPage (name : String)
  | leave
  /-- Have the main refresher run a callback after the next cycle of a fragment. -/
  | afterMain (fragment : String) (callback : Callback)
  | callMain (kind : BroadcastKind)
  | after (id : String) (fragment : String) (callback : Callback)
  | call (kind : BroadcastKind) (id : String)
  /-- Report a finished cycle of a fragment to a poller. -/
  | cycle (id : String) (fragment : String)
  /-- Ask a poller what it knows of a fragment. -/
  | query (id : String) (fragment : String)
  /-- Ask a poller whether it is due so many milliseconds after its deadline. -/
  | due (id : String) (offset : Int)

/-- A program that runs once, when a cycle completes or at once. -/
inductive Callback where
  | mk (label : String) (body : List Command)

/-- What a scripted refresher does when it is stopped or restarted: it runs a program, then fails
with the error if there is one. -/
inductive Reaction where
  | mk (body : List Command) (error : Option RefreshError)

/-- A refresher that does as it is told: its label in the call log, the fragment it goes by, its
reactions, and whether it runs the callbacks it is given or drops them. -/
inductive Script where
  | mk (label : String) (fragment : Option String) (onStop onRestart : Reaction)
    (runsCallbacks : Bool)

end

namespace Callback

def label : Callback → String
  | mk label _ => label

def body : Callback → List Command
  | mk _ body => body

end Callback

namespace Reaction

def body : Reaction → List Command
  | mk body _ => body

def outcome : Reaction → Except RefreshError Unit
  | mk _ none => .ok ()
  | mk _ (some e) => .error e

end Reaction

namespace Script

def label : Script → String
  | mk label .. => label

def fragment : Script → Option String
  | mk _ fragment .. => fragment

def reaction : Script → BroadcastKind → Reaction
  | mk _ _ onStop _ _, .stop => onStop
  | mk _ _ _ onRestart _, .restart => onRestart

def runsCallbacks : Script → Bool
  | mk _ _ _ _ runs => runs

/-- The same script under no fragment's name. -/
def anonymous : Script → Script
  | mk label _ onStop onRestart runs => mk label none onStop onRestart runs

end Script

/-- What a name of the session stands for, and what the registry holds. -/
inductive Refresher where
  /-- Stopping and restarting it does nothing, and it runs every callback at once. -/
  | noop
  /-- The poller made so many pollers after the first. -/
  | poller (index : Nat)
  | scripted (script : Script)

/-- What an operation answers. -/
inductive Reply where
  | done
  /-- A modal was opened or closed among others, so nobody was called. -/
  | nested
  | report (r : Report)
  | refreshError (e : RefreshError)
  | shellError (e : ShellError)
  /-- A poller was made. -/
  | made (fragments : List String) (interval : Duration)
  /-- How many callbacks a cycle ran. -/
  | ran (callbacks : Nat)
  | knows (owned : Bool) (cycles pending : Nat)
  | isDue (due : Bool)
  /-- The name stands for no refresher that has the operation. -/
  | unbound (id : String)

/-- A call that a session takes note of, besides the event log. -/
inductive Call where
  | stop (label : String)
  | restart (label : String)
  | after (label : String) (fragment : String)
  | callback (label : String)
  /-- An operation of a program was carried out. -/
  | nested (command : Command) (reply : Reply)

/-- The call of a scripted refresher that a broadcast of this kind makes. -/
def Call.ofKind : BroadcastKind → String → Call
  | .stop => .stop
  | .restart => .restart

/-- One entry of a session's journal. -/
inductive Record where
  | event (e : Event)
  | call (c : Call)

end PageRefresh.Session
