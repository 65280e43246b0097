import PageRefresh.Session.World

/-!
How operations are carried out, one step at a time.

What is still to be done is an agenda of tasks, innermost first. Performing the first task changes
the world and may put further tasks in front of the rest, so an operation that a callback makes in
the middle of a cycle or a broadcast is performed before the cycle or broadcast goes on, and sees
the world as it is at that moment. A cycle that still has callbacks to run and a broadcast that
still has refreshers to call are tasks like any other: what they have taken and not yet done is in
the agenda.
-/

namespace PageRefresh.Session

/-- Who asked for an operation, and so gets its reply: the session itself (`none`), or the program
that the operation is part of. -/
abbrev Asker := Option Command

inductive Cause where
  | command
  /-- The first modal was opened or the last one closed. -/
  | modal
deriving DecidableEq, Repr

/-- The reply of a broadcast that ended so. -/
def Cause.reply : Cause → Except RefreshError Report → Reply
  | _, .ok r => .report r
  | .command, .error e => .refreshError e
  | .modal, .error e => .shellError (.refresh e)

/-- Something that is still to be done. -/
inductive Task where
  | command (asker : Asker) (c : Command)
  /-- Run a callback that did not have to wait. -/
  | start (callback : Callback)
  /-- Run the callbacks that waited for a cycle, in order, then answer how many there were. -/
  | cycling (asker : Asker) (poller : Nat) (fragment : String) (cycle count : Nat)
      (waiting : List Callback)
  /-- Call the refreshers that are left, on top of a report so far. -/
  | broadcasting (asker : Asker) (cause : Cause) (report : Report) (rest : List Refresher)
  /-- Take in the outcome of a call, then go on with the refreshers that are left. -/
  | settling (asker : Asker) (cause : Cause) (report : Report) (called : Refresher)
      (outcome : Except RefreshError Unit) (rest : List Refresher)
  | answer (asker : Asker) (reply : Reply)

def program (body : List Command) : List Task :=
  body.map fun c => .command (some c) c

/-- The reply of a call that ended so. -/
def outcomeReply : Except RefreshError Unit → Reply
  | .ok () => .done
  | .error e => .refreshError e

namespace World

def answer (w : World) : Asker → Reply → World
  | none, reply => { w with reply := some reply }
  | some c, reply => w.note (.nested c reply)

/-- Stop or restart a refresher at `now`: the world, the program that runs before the call returns,
and what it returns. -/
def call (w : World) (now : Instant) (kind : BroadcastKind) :
    Refresher → World × List Task × Except RefreshError Unit
  | .noop => (w, [], .ok ())
  | .poller i =>
      match w.pollers[i]? with
      | none => (w, [], .ok ())
      | some p =>
          match kind with
          | .stop => ((w.setPoller i p.stop).log p.stoppedEvent, [], .ok ())
          | .restart => ((w.setPoller i (p.restart now)).log p.restartedEvent, [], .ok ())
  | .scripted script =>
      (w.note (.ofKind kind script.label), program (script.reaction kind).body,
        (script.reaction kind).outcome)

/-- Ask a refresher to run a callback after the next cycle of a fragment. Only a poller that owns
the fragment lets it wait. -/
def after (w : World) (fragment : String) (callback : Callback) : Refresher → World × List Task
  | .noop => (w.log (.afterRefreshImmediate fragment), [.start callback])
  | .poller i =>
      match w.pollers[i]? with
      | none => (w, [])
      | some p =>
          if p.owns fragment then (w.setPoller i (p.enqueue fragment callback), [])
          else (w.log (.afterRefreshUnowned fragment), [.start callback])
  | .scripted script =>
      (w.note (.after script.label fragment),
        if script.runsCallbacks then [.start callback] else [])

/-- Begin a broadcast to the refreshers registered at this moment. -/
def beginBroadcast (w : World) (asker : Asker) (cause : Cause) (kind : BroadcastKind) :
    World × List Task :=
  let report := Report.start kind
  let entries := w.shell.registry.entries
  (w.log (report.startedEvent w.policy entries.length), [.broadcasting asker cause report entries])

/-- Open a modal. It counts as open even if the broadcast that it causes fails. -/
def openModal (w : World) (asker : Asker) : World × List Task :=
  let shell := w.shell.openModal
  let opened := { w with shell }.log shell.openedEvent
  match w.shell.opensWith with
  | some kind => opened.beginBroadcast asker .modal kind
  | none => (opened.answer asker .nested, [])

/-- Close a modal. It counts as closed even if the broadcast that it causes fails. -/
def closeModal (w : World) (asker : Asker) : World × List Task :=
  match w.shell.closesWith with
  | .error e => (w.answer asker (.shellError e), [])
  | .ok cause =>
      let shell := w.shell.closeModal
      let closed := { w with shell }.log shell.closedEvent
      match cause with
      | some kind => closed.beginBroadcast asker .modal kind
      | none => (closed.answer asker .nested, [])

/-- Carry out a command that needs the refresher with this name. -/
def withRefresher (w : World) (asker : Asker) (id : String) (f : Refresher → World × List Task) :
    World × List Task :=
  match w.find? id with
  | some r => f r
  | none => (w.answer asker (.unbound id), [])

/-- Carry out a command that needs the poller with this name. -/
def withPoller (w : World) (asker : Asker) (id : String)
    (f : Nat → Poller Callback → World × List Task) : World × List Task :=
  match w.findPoller? id with
  | some (i, p) => f i p
  | none => (w.answer asker (.unbound id), [])

def callAlone (w : World) (now : Instant) (asker : Asker) (kind : BroadcastKind) (r : Refresher) :
    World × List Task :=
  let (w, body, outcome) := w.call now kind r
  (w, body ++ [.answer asker (outcomeReply outcome)])

def handOver (w : World) (asker : Asker) (fragment : String) (callback : Callback) (r : Refresher) :
    World × List Task :=
  let (w, started) := w.after fragment callback r
  (w, started ++ [.answer asker .done])

/-- Begin to carry out an operation at `now`. -/
def begin (w : World) (now : Instant) (asker : Asker) : Command → World × List Task
  | .poller id fragments interval =>
      let made := (w.addPoller (.start fragments interval now)).bind id (.poller w.pollers.length)
      (made.answer asker (.made fragments interval), [])
  | .scripted id script => ((w.bind id (.scripted script)).answer asker .done, [])
  | .anonymous id script => ((w.bind id (.scripted script.anonymous)).answer asker .done, [])
  | .noop id => ((w.bind id .noop).answer asker .done, [])
  | .add id => w.withRefresher asker id fun r => ((w.register r).answer asker .done, [])
  | .addMain id => w.withRefresher asker id fun r => ((w.registerMain r).answer asker .done, [])
  | .readdMain => ((w.registerMain w.main).answer asker .done, [])
  | .broadcast kind => w.beginBroadcast asker .command kind
  | .clear => (w.clear.answer asker .done, [])
  | .openModal => w.openModal asker
  | .closeModal => w.closeModal asker
  | .enterPage name =>
      let events := w.shell.enterPageEvents name
      (({ w with shell := w.shell.enterPage name }.logAll events).answer asker .done, [])
  | .leave =>
      let events := w.shell.leaveEvents
      (({ w with shell := w.shell.leave }.logAll events).answer asker .done, [])
  | .afterMain fragment callback => w.handOver asker fragment callback w.main
  | .callMain kind => w.callAlone now asker kind w.main
  | .after id fragment callback => w.withRefresher asker id (w.handOver asker fragment callback)
  | .call kind id => w.withRefresher asker id (w.callAlone now asker kind)
  | .cycle id fragment =>
      w.withPoller asker id fun i p =>
        match p.complete fragment now with
        | .error e => (w.answer asker (.refreshError e), [])
        | .ok (p, batch) =>
            (w.setPoller i p,
              [.cycling asker i fragment batch.cycle batch.callbacks.length batch.callbacks])
  | .query id fragment =>
      w.withPoller asker id fun _ p =>
        (w.answer asker (.knows (p.owns fragment) (p.cycles fragment) (p.pending fragment)), [])
  | .due id offset =>
      w.withPoller asker id fun _ p =>
        let t := (p.deadline.map (·.shift offset)).getD now
        (w.answer asker (.isDue (p.isDue t)), [])

/-- Start a callback: what it is made of is to be done next. -/
def startCallback (w : World) (callback : Callback) : World × List Task :=
  (w.note (.callback callback.label), program callback.body)

/-- Perform a task at `now`: the world after it, and the tasks that come before all others. -/
def perform (w : World) (now : Instant) : Task → World × List Task
  | .command asker c => w.begin now asker c
  | .start callback => w.startCallback callback
  | .cycling asker _ fragment cycle count [] =>
      ((w.log (.cycleCompleted fragment cycle count)).answer asker (.ran count), [])
  | .cycling asker poller fragment cycle count (callback :: waiting) =>
      let (w, body) := w.startCallback callback
      (w, body ++ [.cycling asker poller fragment cycle count waiting])
  | .broadcasting asker cause report [] =>
      ((w.log report.completedEvent).answer asker (cause.reply (.ok report)), [])
  | .broadcasting asker cause report (r :: rest) =>
      let (w, body, outcome) := w.call now report.kind r
      (w, body ++ [.settling asker cause report r outcome rest])
  | .settling asker cause report called outcome rest =>
      let fragment := w.fragmentOf called
      let logged := w.logAll (report.settleEvents w.policy fragment outcome)
      match report.settle w.policy fragment outcome with
      | .ok report => (logged, [.broadcasting asker cause report rest])
      | .error e => (logged.answer asker (cause.reply (.error e)), [])
  | .answer asker reply => (w.answer asker reply, [])

end World

/-- A session in the middle of its work. -/
structure Machine where
  world : World
  agenda : List Task

/-- Perform the first task of the agenda at `now`; `none` when nothing is left to be done. -/
def Machine.step (m : Machine) (now : Instant) : Option Machine :=
  match m.agenda with
  | [] => none
  | task :: rest =>
      let (world, tasks) := m.world.perform now task
      some ⟨world, tasks ++ rest⟩

/-- Perform tasks at `now` until nothing is left to be done, but no more than `limit` of them;
`none` when the limit is too low. -/
def Machine.run (now : Instant) : Nat → Machine → Option World
  | 0, m => if m.agenda.isEmpty then some m.world else none
  | limit + 1, m =>
      match m.step now with
      | none => some m.world
      | some m => run now limit m

end PageRefresh.Session
