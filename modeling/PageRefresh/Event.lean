import PageRefresh.Error

/-!
The event log.

An event is one typed record per thing that can be logged. Its name, level and named fields, which
are what a log shows, are functions of it; a field that has no value is left out.
-/

namespace PageRefresh

/-- How much an event matters. -/
inductive Level where
  | debug
  | info
  | warn
  | error
deriving DecidableEq, Repr

def Level.name : Level → String
  | debug => "DEBUG"
  | info => "INFO"
  | warn => "WARN"
  | error => "ERROR"

/-- Whether events of this level are shown: those below an error only on request, and debugging
events not at all. -/
def Level.isShown (verbose : Bool) : Level → Bool
  | error => true
  | warn => verbose
  | info => verbose
  | debug => false

/-- The value of an event's field. -/
inductive FieldValue where
  | text (s : String)
  | number (n : Nat)
  | flag (b : Bool)
  /-- The identifier of a page visit. -/
  | visit (n : Nat)
deriving DecidableEq, Repr

def FieldValue.render : FieldValue → String
  | text s => s
  | number n => Nat.repr n
  | flag true => "true"
  | flag false => "false"
  | visit n => "visit-" ++ Nat.repr n

/-- Something worth logging. -/
inductive Event where
  | startupCompleted
  | shutdownStarted
  /-- What is logged of an error is its text; the name of its type is left out. -/
  | errorOccurred (error : ConfigError)
  | refresherAdded (fragment : Option String) (isMain : Bool) (position : Nat)
  | registryCleared (removed : Nat)
  | broadcastStarted (kind : BroadcastKind) (count : Nat) (policy : BroadcastPolicy)
  | refresherFailed (kind : BroadcastKind) (index : Nat) (fragment : Option String)
      (error : RefreshError)
  | broadcastAborted (kind : BroadcastKind) (index : Nat) (fragment : Option String)
      (error : RefreshError)
  | broadcastCompleted (kind : BroadcastKind) (invoked failed : Nat)
  /-- A callback was run at once, because no main refresher was registered. -/
  | afterRefreshImmediate (fragment : String)
  /-- A callback was run at once, because the poller does not own the fragment. -/
  | afterRefreshUnowned (fragment : String)
  | cycleCompleted (fragment : String) (cycle callbacksRun : Nat)
  | pollerStopped (fragment : Option String)
  | pollerRestarted (fragment : Option String) (intervalSecs : Nat)
  | pageEntered (page : String) (visit : Nat)
  | pageLeft (page : String) (refreshers : Nat)
  | pageLeftWithOpenModal (depth : Nat)
  | modalOpened (depth : Nat)
  | modalClosed (depth : Nat)
  | configLoaded (path : String)
  | simulateStarted (steps : Nat) (json : Bool)
  | simulateStepInvalid (input : String)
  | simulateConfigFailed (error : ConfigError)
  | simulateStepFailed (step : Nat) (error : ShellError)
  | simulateCompleted (steps traceEntries : Nat)
  | configStarted (json : Bool)
  | configFailed (error : ConfigError)
  | configCompleted
deriving DecidableEq, Repr

/-- The version the startup event announces. -/
def version : String := "0.1.0"

namespace Event

def name : Event → String
  | startupCompleted => "core.app.startup_completed"
  | shutdownStarted => "core.app.shutdown_started"
  | errorOccurred _ => "core.app.error_occurred"
  | refresherAdded .. => "core.refresh.refresher_added"
  | registryCleared _ => "core.refresh.registry_cleared"
  | broadcastStarted .. => "core.refresh.broadcast_started"
  | refresherFailed .. => "core.refresh.broadcast_refresher_failed"
  | broadcastAborted .. => "core.refresh.broadcast_aborted"
  | broadcastCompleted .. => "core.refresh.broadcast_completed"
  | afterRefreshImmediate _ => "core.refresh.after_refresh_immediate"
  | afterRefreshUnowned _ => "core.poller.after_refresh_unowned"
  | cycleCompleted .. => "core.poller.cycle_completed"
  | pollerStopped _ => "core.poller.stopped"
  | pollerRestarted .. => "core.poller.restarted"
  | pageEntered .. => "core.shell.page_entered"
  | pageLeft .. => "core.shell.page_left"
  | pageLeftWithOpenModal _ => "core.shell.page_left_with_open_modal"
  | modalOpened _ => "core.shell.modal_opened"
  | modalClosed _ => "core.shell.modal_closed"
  | configLoaded _ => "core.config.file_loaded"
  | simulateStarted .. => "cli.simulate_started"
  | simulateStepInvalid _ => "cli.simulate_step_invalid"
  | simulateConfigFailed _ => "cli.simulate_config_failed"
  | simulateStepFailed .. => "cli.simulate_step_failed"
  | simulateCompleted .. => "cli.simulate_completed"
  | configStarted _ => "cli.config_started"
  | configFailed _ => "cli.config_failed"
  | configCompleted => "cli.config_completed"

def level : Event → Level
  | refresherAdded .. | afterRefreshImmediate _ | afterRefreshUnowned _ | cycleCompleted ..
  | configLoaded _ => .debug
  | refresherFailed .. | pageLeftWithOpenModal _ | simulateStepFailed .. => .warn
  | errorOccurred _ | broadcastAborted .. | simulateStepInvalid _ | simulateConfigFailed _
  | configFailed _ => .error
  | _ => .info

/-- The fragment's field, when there is a fragment to name. -/
def fragmentField (fragment : Option String) : List (String × FieldValue) :=
  (fragment.map fun f => ("fragment_id", .text f)).toList

def fields : Event → List (String × FieldValue)
  | startupCompleted => [("version", .text version)]
  | shutdownStarted => []
  | errorOccurred error => [("error", .text error.message)]
  | refresherAdded fragment isMain position =>
      fragmentField fragment ++ [("is_main", .flag isMain), ("position", .number position)]
  | registryCleared removed => [("removed", .number removed)]
  | broadcastStarted kind count policy =>
      [("kind", .text kind.name), ("count", .number count), ("policy", .text policy.name)]
  | refresherFailed kind index fragment error =>
      [("kind", .text kind.name), ("index", .number index)] ++ fragmentField fragment ++
        [("error", .text error.message)]
  | broadcastAborted kind index fragment error =>
      [("kind", .text kind.name), ("index", .number index)] ++ fragmentField fragment ++
        [("error", .text error.message)]
  | broadcastCompleted kind invoked failed =>
      [("kind", .text kind.name), ("invoked", .number invoked), ("failed", .number failed)]
  | afterRefreshImmediate fragment => [("fragment_id", .text fragment)]
  | afterRefreshUnowned fragment => [("fragment_id", .text fragment)]
  | cycleCompleted fragment cycle callbacksRun =>
      [("fragment_id", .text fragment), ("cycle", .number cycle),
        ("callbacks_run", .number callbacksRun)]
  | pollerStopped fragment => fragmentField fragment
  | pollerRestarted fragment intervalSecs =>
      fragmentField fragment ++ [("interval_secs", .number intervalSecs)]
  | pageEntered page visit => [("page", .text page), ("page_session_id", .visit visit)]
  | pageLeft page refreshers => [("page", .text page), ("refreshers", .number refreshers)]
  | pageLeftWithOpenModal depth => [("modal_depth", .number depth)]
  | modalOpened depth => [("modal_depth", .number depth)]
  | modalClosed depth => [("modal_depth", .number depth)]
  | configLoaded path => [("path", .text path)]
  | simulateStarted steps json => [("steps", .number steps), ("json_output", .flag json)]
  | simulateStepInvalid input => [("input", .text input)]
  | simulateConfigFailed error => [("error", .text error.message)]
  | simulateStepFailed step error =>
      [("step", .number step), ("error_code", .text error.code), ("error", .text error.message)]
  | simulateCompleted steps traceEntries =>
      [("steps", .number steps), ("trace_entries", .number traceEntries)]
  | configStarted json => [("json_output", .flag json)]
  | configFailed error => [("error", .text error.message)]
  | configCompleted => []

/-- The event on one line: its level, its name and its fields. -/
def render (e : Event) : String :=
  String.intercalate " "
    (e.level.name :: e.name :: e.fields.map fun (name, value) => name ++ "=" ++ value.render)

end Event

end PageRefresh
