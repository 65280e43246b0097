import PageRefresh.CommandLine.Run
import PageRefresh.Proofs.Broadcast.Policy
import PageRefresh.Proofs.Script.Logged
import PageRefresh.Proofs.Script.Spelling

/-!
How commands end.

A command reads its steps, then looks for its configuration, and then does its work.  Only the first
two can fail (`run_invalid`, `run_unconfigured`, `run_done`).  What happens to the steps of a
simulation is a matter of its trace and fails no command.
-/

namespace PageRefresh

open Script

/-! ## Reading steps -/

namespace Script

/-- The first text that cannot be read is the error. -/
theorem readSteps_eq_error_iff {inputs : List String} {e : StepError} :
    readSteps inputs = .error e ↔
      ∃ before input later, inputs = before ++ input :: later ∧
        (∀ s ∈ before, ∃ step, Step.read s = .ok step) ∧ Step.read input = .error e := by
  induction inputs with
  | nil => simp [readSteps]
  | cons s inputs ih =>
      rw [readSteps]
      constructor
      · intro herror
        cases hs : Step.read s with
        | error e' =>
            rw [hs] at herror
            obtain rfl := Except.error.inj herror
            exact ⟨[], s, inputs, rfl, by simp, hs⟩
        | ok step =>
            rw [hs] at herror
            cases hrest : readSteps inputs with
            | ok steps => simp [hrest] at herror
            | error e' =>
                obtain rfl : e' = e := by simpa [hrest] using herror
                obtain ⟨before, input, later, rfl, hbefore, hinput⟩ := ih.mp hrest
                refine ⟨s :: before, input, later, rfl, ?_, hinput⟩
                exact List.forall_mem_cons.mpr ⟨⟨step, hs⟩, hbefore⟩
      · rintro ⟨before, input, later, hinputs, hbefore, hinput⟩
        rcases before with _ | ⟨first, before⟩
        · obtain ⟨rfl, rfl⟩ := List.cons.inj hinputs
          rw [hinput]
        · obtain ⟨rfl, hrest⟩ := List.cons.inj hinputs
          obtain ⟨⟨step, hstep⟩, hbefore⟩ := List.forall_mem_cons.mp hbefore
          rw [hstep, ih.mpr ⟨before, input, later, hrest, hbefore, hinput⟩]

theorem readable_of_readSteps {inputs : List String} {steps : List Step}
    (hsteps : readSteps inputs = .ok steps) : ∀ s ∈ inputs, ∃ step, Step.read s = .ok step := by
  induction inputs generalizing steps with
  | nil => simp
  | cons s inputs ih =>
      rw [readSteps] at hsteps
      split at hsteps
      · contradiction
      · rename_i step hs
        split at hsteps
        · contradiction
        · rename_i rest hrest
          exact List.forall_mem_cons.mpr ⟨⟨step, hs⟩, ih hrest⟩

end Script

namespace CommandLine

/-! ## The parts of a command -/

namespace Command

/-- The texts that are to be read as steps. -/
def inputs : Command → List String
  | simulate _ _ _ inputs => inputs
  | config _ => []

def startedEvent : Command → Event
  | simulate json _ _ inputs => .simulateStarted inputs.length json
  | config json => .configStarted json

/-- The event of a command that cannot have its configuration. -/
def failedEvent (e : ConfigError) : Command → Event
  | simulate .. => .simulateConfigFailed e
  | config _ => .configFailed e

variable (env : Environment) (c : Config) (steps : List Step)

/-- The simulation of the steps, with what the configuration says where no option says otherwise. -/
def simulation (policy : Option BroadcastPolicy) (interval : Option Nat) : Simulation :=
  Script.simulate (policy.getD c.effectivePolicy)
    ((interval.map Duration.ofSecs).getD c.effectiveInterval) env.now steps

/-- All that a command logs about its work. -/
def workEvents : Command → List Event
  | simulate _ policy interval _ =>
      let s := simulation env c steps policy interval
      s.events ++ [.simulateCompleted steps.length s.trace.length]
  | config _ => [.configCompleted]

end Command

variable {env : Environment} {command : Command} {steps : List Step} {loaded : List Event}

theorem run_invalid {e : StepError} (env : Environment)
    (hsteps : readSteps command.inputs = .error e) :
    run env command =
      ⟨1, [], [e.message], [.startupCompleted, command.startedEvent, .simulateStepInvalid e.input,
        .shutdownStarted]⟩ := by
  cases command with
  | config json => contradiction
  | simulate json policy interval inputs =>
      rw [Command.inputs] at hsteps
      simp only [run, runCommand, runSimulate, hsteps]
      rfl

theorem run_unconfigured {e : ConfigError} (hsteps : readSteps command.inputs = .ok steps)
    (hconfig : env.config = (.error e, loaded)) :
    run env command =
      ⟨1, [], [configFailure e], .startupCompleted :: command.startedEvent :: loaded ++
        [command.failedEvent e, .errorOccurred e, .shutdownStarted]⟩ := by
  cases command with
  | config json =>
      simp only [run, runCommand, runConfig, hconfig]
      simp [Output.failure, Command.startedEvent, Command.failedEvent]
  | simulate json policy interval inputs =>
      rw [Command.inputs] at hsteps
      simp only [run, runCommand, runSimulate, hsteps, hconfig]
      simp [Output.failure, Command.startedEvent, Command.failedEvent]

theorem run_done {c : Config} (hsteps : readSteps command.inputs = .ok steps)
    (hconfig : env.config = (.ok c, loaded)) :
    run env command =
      ⟨0, (runCommand env command).printed, [], .startupCompleted :: command.startedEvent ::
        loaded ++ command.workEvents env c steps ++ [.shutdownStarted]⟩ := by
  cases command with
  | config json =>
      simp only [run, runCommand, runConfig, hconfig]
      rfl
  | simulate json policy interval inputs =>
      rw [Command.inputs] at hsteps
      simp only [run, runCommand, runSimulate, hsteps, hconfig]
      simp [Output.success, Command.startedEvent, Command.workEvents, Command.simulation,
        Simulation.outcome]

section Printed

variable {c : Config} {inputs : List String}

theorem run_simulate_printed (hsteps : readSteps inputs = .ok steps)
    (hconfig : env.config.1 = .ok c) (json : Bool) (policy : Option BroadcastPolicy) (interval : Option Nat) :
    let o := (Command.simulation env c steps policy interval).outcome steps.length
    (run env (.simulate json policy interval inputs)).printed =
      if json then [(outcomeJson env.time o).print] else outcomeRows o := by
  rcases hloaded : env.config with ⟨result, loaded⟩
  obtain rfl : result = .ok c := by simpa [hloaded] using hconfig
  simp only [run, runCommand, runSimulate, hsteps, hloaded]
  rfl

theorem run_config_printed (hconfig : env.config.1 = .ok c) (json : Bool) :
    let userPath := env.userFile.map ConfigFile.path
    (run env (.config json)).printed =
      if json then [(effectiveJson c userPath).print] else effectiveRows c userPath := by
  rcases hloaded : env.config with ⟨result, loaded⟩
  obtain rfl : result = .ok c := by simpa [hloaded] using hconfig
  simp only [run, runCommand, runConfig, hloaded]
  rfl

end Printed

/-! ## What is logged on the way -/

theorem loadOptional_ordinary (f : ConfigFile) :
    ∀ e ∈ f.loadOptional.2, e.isOrdinary = true := by
  rw [ConfigFile.loadOptional]
  split <;> simp [Event.isOrdinary, Event.isFrame, Event.level]

theorem loadMerged_ordinary (base : Config) (files : List ConfigFile) :
    ∀ e ∈ (loadMerged base files).2, e.isOrdinary = true := by
  induction files generalizing base with
  | nil => simp [loadMerged]
  | cons f files ih =>
      have hfirst := loadOptional_ordinary f
      rw [loadMerged]
      split
      · rename_i e events hload
        rw [hload] at hfirst
        exact hfirst
      · rename_i c events hload
        rw [hload] at hfirst
        exact List.forall_mem_append.mpr ⟨hfirst, ih (base.merge c)⟩

theorem Environment.config_ordinary (env : Environment) :
    ∀ e ∈ env.config.2, e.isOrdinary = true := by
  have hmerged := loadMerged_ordinary .empty (env.userFile.toList ++ [env.projectFile])
  rw [config, loadHierarchy, Option.toList_some]
  split
  · rename_i e events hload
    rw [hload] at hmerged
    exact hmerged
  · rename_i c events hload
    rw [hload] at hmerged
    split <;> exact hmerged

namespace Command

theorem startedEvent_isOrdinary (command : Command) : command.startedEvent.isOrdinary = true := by
  cases command <;> rfl

theorem failedEvent_isFrame (e : ConfigError) (command : Command) :
    (command.failedEvent e).isFrame = false := by
  cases command <;> rfl

/-- A step of the command had a broadcast that was aborted so, and failed with it. -/
def Aborts (env : Environment) (c : Config) (steps : List Step) : Command → RefreshError → Prop
  | simulate _ policy interval _, error =>
      policy.getD c.effectivePolicy = .abort ∧
        (simulation env c steps policy interval).HasFailed error
  | config _, _ => False

theorem workEvents_logged (env : Environment) (c : Config) (steps : List Step)
    (command : Command) :
    ∀ e ∈ command.workEvents env c steps, e.isOrdinary = true ∨
      ∃ kind index fragment error, e = .broadcastAborted kind index fragment error ∧
        command.Aborts env c steps (.broadcastAborted kind index error) := by
  cases command with
  | config json => simp [workEvents, Event.isOrdinary, Event.isFrame, Event.level]
  | simulate json policy interval inputs =>
      intro e he
      rcases List.mem_append.mp he with hstep | hend
      · cases simulate_logs _ _ _ steps e hstep with
        | ordinary he => exact .inl he
        | aborted hpolicy hfailed => exact .inr ⟨_, _, _, _, rfl, hpolicy, hfailed⟩
      · obtain rfl := List.mem_singleton.mp hend
        exact .inl rfl

end Command

/-- The log begins with the start of the program and ends with its end. -/
theorem run_events (env : Environment) (command : Command) :
    ∃ between, (run env command).events = .startupCompleted :: between ++ [.shutdownStarted] ∧
      ∀ e ∈ between, e.isFrame = false := by
  have hstarted := Event.isFrame_of_isOrdinary command.startedEvent_isOrdinary
  have hloaded := fun e he => Event.isFrame_of_isOrdinary (env.config_ordinary e he)
  cases hsteps : readSteps command.inputs with
  | error e =>
      refine ⟨[command.startedEvent, .simulateStepInvalid e.input], ?_, ?_⟩
      · rw [run_invalid env hsteps]
        rfl
      · exact List.forall_mem_cons.mpr ⟨hstarted, by simp [Event.isFrame]⟩
  | ok steps =>
      rcases hconfig : env.config with ⟨e | c, loaded⟩
      · rw [hconfig] at hloaded
        refine ⟨command.startedEvent :: loaded ++ [command.failedEvent e, .errorOccurred e], ?_, ?_⟩
        · rw [run_unconfigured hsteps hconfig]
          simp
        · have hfailed := command.failedEvent_isFrame e
          simp only [List.cons_append, List.forall_mem_cons, List.forall_mem_append]
          exact ⟨hstarted, hloaded, hfailed, rfl, by simp⟩
      · rw [hconfig] at hloaded
        refine ⟨command.startedEvent :: loaded ++ command.workEvents env c steps, ?_, ?_⟩
        · rw [run_done hsteps hconfig]
          simp
        · simp only [List.cons_append, List.forall_mem_cons, List.forall_mem_append]
          refine ⟨hstarted, hloaded, fun e he => ?_⟩
          rcases command.workEvents_logged env c steps e he with hordinary | ⟨_, _, _, _, rfl, -⟩
          · exact Event.isFrame_of_isOrdinary hordinary
          · rfl

/-! ## Arguments that are accepted -/

theorem readArgs_ok {g : Given} {args : List String} {inv : Invocation}
    (hread : readArgs g args = .ok inv) :
    ∃ verbose rest, readSimulate verbose rest = .ok inv ∨ readConfig verbose rest = .ok inv := by
  induction args generalizing g with
  | nil => contradiction
  | cons arg rest ih =>
      rw [readArgs] at hread
      split at hread
      · contradiction
      · split at hread
        · exact ⟨g.verbose, rest, .inl hread⟩
        · split at hread
          · exact ⟨g.verbose, rest, .inr hread⟩
          · split at hread
            · contradiction
            · split at hread
              · contradiction
              · split at hread
                · contradiction
                · exact ih hread

/-- No simulation is asked for without a step. -/
theorem steps_ne_nil {args : List String} {verbose json : Bool} {policy : Option BroadcastPolicy}
    {interval : Option Nat} {inputs : List String}
    (hread : Invocation.read args = .ok ⟨verbose, .simulate json policy interval inputs⟩) :
    inputs ≠ [] := by
  obtain ⟨verbose', rest, hsimulate | hconfig⟩ := readArgs_ok hread
  · rw [readSimulate] at hsimulate
    split at hsimulate
    · contradiction
    · rename_i g _
      split at hsimulate
      · contradiction
      · rename_i hsteps
        simp only [Except.ok.injEq, Invocation.mk.injEq, Command.simulate.injEq] at hsimulate
        obtain ⟨-, -, -, -, rfl⟩ := hsimulate
        simpa using hsteps
  · rw [readConfig] at hconfig
    split at hconfig
    · contradiction
    · simp at hconfig

/-! ## What fails a command -/

theorem stepMessage_eq (e : StepError) :
    e.message = "Invalid step '" ++ e.input ++ "': " ++ e.fault.message :=
  rfl

theorem stepMessage_ne (e : StepError) : e.message ≠ "" := by
  simp [stepMessage_eq]

theorem configFailure_eq (e : ConfigError) :
    configFailure e = "Failed to load config: " ++ e.message :=
  rfl

theorem configFailure_ne (e : ConfigError) : configFailure e ≠ "" := by
  simp [configFailure_eq]

theorem run_exitCode_eq_one_iff (env : Environment) (command : Command) :
    (run env command).exitCode = 1 ↔
      (∃ s ∈ command.inputs, ∃ e, Step.read s = .error e) ∨ ∃ e, env.config.1 = .error e := by
  cases hsteps : readSteps command.inputs with
  | error e =>
      obtain ⟨before, input, later, hinputs, -, hinput⟩ := readSteps_eq_error_iff.mp hsteps
      have hfound : ∃ s ∈ command.inputs, ∃ e, Step.read s = .error e :=
        ⟨input, by simp [hinputs], e, hinput⟩
      simp [run_invalid env hsteps, hfound]
  | ok steps =>
      have hnone : ¬ ∃ s ∈ command.inputs, ∃ e, Step.read s = .error e := by
        rintro ⟨s, hs, e, herror⟩
        obtain ⟨step, hstep⟩ := readable_of_readSteps hsteps s hs
        simp [hstep] at herror
      rcases hconfig : env.config with ⟨e | c, loaded⟩
      · simp [run_unconfigured hsteps hconfig]
      · simpa [run_done hsteps hconfig] using hnone

end CommandLine

end PageRefresh
