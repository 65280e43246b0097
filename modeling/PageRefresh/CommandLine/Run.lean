import PageRefresh.CommandLine.Grammar
import PageRefresh.Config.Json
import PageRefresh.Config.Source
import PageRefresh.Json.Printer
import PageRefresh.Script.Simulation
import PageRefresh.Script.Table

/-!
What the commands do, as a function of what they find.

A command reads everything it needs before it prints anything, so it either prints all of its
output or an error alone. The log of a run begins with the program's start and ends with its end.
-/

namespace PageRefresh.CommandLine

open PageRefresh.Script

/-- What a command finds when it is run. -/
structure Environment where
  /-- The user's home directory, if there is one. -/
  home : Option String
  directory : String
  /-- What there is in the place of the user's configuration file. -/
  user : Source
  /-- What there is in the place of the project's configuration file. -/
  project : Source
  now : Instant
  /-- The time of day, as it is printed. -/
  time : String

structure Output where
  exitCode : Nat
  /-- The texts printed, each to be followed by a line feed. -/
  printed : List String
  /-- The texts that the command itself prints as errors. -/
  errors : List String
  events : List Event

/-- The lines of the log that are shown. -/
def Output.logLines (verbose : Bool) (o : Output) : List String :=
  (o.events.filter (·.level.isShown verbose)).map Event.render

/-- All that goes to the error stream: what the command itself has to say, and the log. -/
def Output.stderr (verbose : Bool) (o : Output) : List String :=
  o.errors ++ o.logLines verbose

/-- The place of a configuration file below a directory. -/
def configPath (directory : String) : String :=
  (if directory.endsWith "/" then directory else directory ++ "/") ++ ".pagepulse/config.toml"

def Environment.userFile (env : Environment) : Option ConfigFile :=
  env.home.map fun home => ⟨configPath home, env.user⟩

def Environment.projectFile (env : Environment) : ConfigFile :=
  ⟨configPath env.directory, env.project⟩

/-- The configuration that is found, and what is logged on the way. -/
def Environment.config (env : Environment) : Except ConfigError Config × List Event :=
  loadHierarchy env.userFile (some env.projectFile)

def Output.success (printed : List String) (events : List Event) : Output :=
  ⟨0, printed, [], events⟩

def Output.failure (message : String) (events : List Event) : Output :=
  ⟨1, [], [message], events⟩

/-- What a user is told when the configuration cannot be had. -/
def configFailure (e : ConfigError) : String :=
  "Failed to load config: " ++ e.message

/-- An entry of the trace as JSON, with the time of day it was made at. -/
def entryJson (time : String) (e : TraceEntry) : Json :=
  .ofMembers
    ([("step", Json.nat e.step), ("action", .text e.action)] ++
      (e.target.map fun target => ("target", Json.text target)).toList ++
      [("detail", .text e.detail), ("at", .text time)])

def textOrNull : Option String → Json
  | some s => .text s
  | none => .null

def outcomeJson (time : String) (o : Outcome) : Json :=
  .ofMembers
    [("policy", .text o.policy.name), ("interval_secs", .nat o.intervalSecs),
      ("steps", .nat o.steps), ("registered", .nat o.registered), ("page", textOrNull o.page),
      ("trace", .array (o.trace.map (entryJson time)))]

/-- What a simulation comes to, as a table and a summary. -/
def outcomeRows (o : Outcome) : List String :=
  tableRows o.trace ++
    [Nat.repr o.steps ++ " step(s), " ++ Nat.repr o.registered ++
      " refresher(s) registered, policy: " ++ o.policy.name]

def runSimulate (env : Environment) (json : Bool) (policy : Option BroadcastPolicy)
    (interval : Option Nat) (inputs : List String) : Output :=
  let started := Event.simulateStarted inputs.length json
  match readSteps inputs with
  | .error e => .failure e.message [started, .simulateStepInvalid e.input]
  | .ok steps =>
      match env.config with
      | (.error e, events) =>
          .failure (configFailure e)
            (started :: events ++ [.simulateConfigFailed e, .errorOccurred e])
      | (.ok config, events) =>
          let s := simulate (policy.getD config.effectivePolicy)
            ((interval.map Duration.ofSecs).getD config.effectiveInterval) env.now steps
          let o := s.outcome steps.length
          .success (if json then [(outcomeJson env.time o).print] else outcomeRows o)
            (started :: events ++ s.events ++ [.simulateCompleted o.steps o.trace.length])

def effectiveJson (config : Config) (userPath : Option String) : Json :=
  .ofMembers
    [("interval_secs", .nat config.effectiveSecs.toNat),
      ("broadcast_policy", .text config.effectivePolicy.name),
      ("user_config", textOrNull userPath)]

/-- The configuration in force as the text of a configuration file. -/
def effectiveRows (config : Config) (userPath : Option String) : List String :=
  ["[refresh]", "interval_secs = " ++ Nat.repr config.effectiveSecs.toNat,
      "broadcast_policy = \"" ++ config.effectivePolicy.name ++ "\""] ++
    match userPath with
    | some path => ["", "# user config: " ++ path]
    | none => []

def runConfig (env : Environment) (json : Bool) : Output :=
  let started := Event.configStarted json
  match env.config with
  | (.error e, events) =>
      .failure (configFailure e) (started :: events ++ [.configFailed e, .errorOccurred e])
  | (.ok config, events) =>
      let userPath := env.userFile.map ConfigFile.path
      .success
        (if json then [(effectiveJson config userPath).print] else effectiveRows config userPath)
        (started :: events ++ [.configCompleted])

def runCommand (env : Environment) : Command → Output
  | .simulate json policy interval steps => runSimulate env json policy interval steps
  | .config json => runConfig env json

/-- Carry out a command as the program does, from its start to its end. -/
def run (env : Environment) (command : Command) : Output :=
  let output := runCommand env command
  { output with events := .startupCompleted :: output.events ++ [.shutdownStarted] }

end PageRefresh.CommandLine
