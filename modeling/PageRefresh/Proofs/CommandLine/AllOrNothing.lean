import PageRefresh.Proofs.CommandLine.Outcome
import PageRefresh.Proofs.Script.Shape
import PageRefresh.Proofs.Script.Table

/-!
Every command is all or nothing.

What a command has to print is said here without the functions that print it: a table and what it
shows, a line that sums up, the lines of a configuration file, or a document and what is read from
it (`Command.Prints`).  A command that fails prints none of it (`Output.Fails`); one that does not
prints all of it, and of errors there is nothing to be seen but those of broadcasts that a script
had aborted (`Output.Succeeds`).
-/

namespace PageRefresh

open Script

/-! ## All there is to print -/

/-- The lines are a table of the trace, and a line that sums up. -/
def Script.Outcome.ShownBy (o : Outcome) (lines : List String) : Prop :=
  ∃ t : Table, t.Shows o.trace ∧
    lines = t.lines ++ [Nat.repr o.steps ++ " step(s), " ++ Nat.repr o.registered ++
      " refresher(s) registered, policy: " ++ o.policy.name]

/-- The time of day in the JSON of an entry. -/
def Script.timeOf? : Json → Option String
  | .object members => Json.member? Json.text? "at" members
  | _ => none

/-- The times of day in the JSON of an outcome, entry by entry. -/
def Script.timesOf? : Json → Option (List String)
  | .object members => (Json.member? Json.items? "trace" members).bind (·.mapM timeOf?)
  | _ => none

/-- The lines are one document, from which the outcome is read, and at each entry this time. -/
def Script.Outcome.WrittenIn (o : Outcome) (time : String) (lines : List String) : Prop :=
  ∃ document j, lines = [document] ∧ Json.read document = some j ∧ Outcome.ofJson? j = some o ∧
    timesOf? j = some (o.trace.map fun _ => time)

/-- The lines are those of a configuration file, and name the user's file if there can be one. -/
def Config.ShownBy (c : Config) (userPath : Option String) (lines : List String) : Prop :=
  lines = ["[refresh]", "interval_secs = " ++ Nat.repr c.effectiveSecs.toNat,
    "broadcast_policy = \"" ++ c.effectivePolicy.name ++ "\""] ++
      userPath.toList.flatMap fun path => ["", "# user config: " ++ path]

/-- The lines are one document, from which the configuration in force is read. -/
def Config.WrittenIn (c : Config) (userPath : Option String) (lines : List String) : Prop :=
  ∃ document members, lines = [document] ∧ Json.read document = some (.object members) ∧
    Json.member? Json.nat? "interval_secs" members = some c.effectiveSecs.toNat ∧
    Json.member? BroadcastPolicy.ofJson? "broadcast_policy" members = some c.effectivePolicy ∧
    Json.member? (Json.nullable Json.text?) "user_config" members = some userPath

namespace CommandLine

variable {env : Environment} {c : Config} {inputs : List String} {steps : List Step}
  {command : Command}

/-- The lines are all that the command has to print, with this configuration and these steps. -/
def Command.Prints (env : Environment) (c : Config) (steps : List Step) :
    Command → List String → Prop
  | .simulate false policy interval _, lines =>
      ((simulation env c steps policy interval).outcome steps.length).ShownBy lines
  | .simulate true policy interval _, lines =>
      ((simulation env c steps policy interval).outcome steps.length).WrittenIn env.time lines
  | .config false, lines => c.ShownBy (env.home.map configPath) lines
  | .config true, lines => c.WrittenIn (env.home.map configPath) lines

theorem outcomeRows_shown {o : Outcome} (htrace : o.trace ≠ []) : o.ShownBy (outcomeRows o) :=
  ⟨.ofEntries o.trace, Table.ofEntries_shows o.trace, by rw [outcomeRows, tableRows_eq htrace]⟩

theorem timeOf?_entryJson (time : String) (e : TraceEntry) :
    timeOf? (entryJson time e) = some time := by
  rcases e with ⟨step, action, _ | target, detail⟩ <;>
    simp [timeOf?, entryJson, Json.ofMembers, Json.member?, Json.valuesOf, Json.text, Json.text?]

theorem mapM_timeOf? (time : String) (trace : List TraceEntry) :
    (trace.map (entryJson time)).mapM timeOf? = some (trace.map fun _ => time) := by
  induction trace with
  | nil => rfl
  | cons e trace ih => simp [List.mapM_cons, timeOf?_entryJson, ih]

theorem timesOf?_outcomeJson (time : String) (o : Outcome) :
    timesOf? (outcomeJson time o) = some (o.trace.map fun _ => time) := by
  have htrace : ∀ members, outcomeJson time o = .object members →
      Json.member? Json.items? "trace" members = some (o.trace.map (entryJson time)) := by
    intro members hmembers
    obtain rfl := Json.object.inj hmembers
    simp [Json.member?, Json.valuesOf, Json.items?]
  rw [← mapM_timeOf?]
  exact congrArg (·.bind (·.mapM timeOf?)) (htrace _ rfl)

theorem outcomeJson_written (time : String) (o : Outcome) :
    o.WrittenIn time [(outcomeJson time o).print] :=
  ⟨_, _, rfl, Json.read_print (outcomeJson_integral time o), ofJson?_outcomeJson time o,
    timesOf?_outcomeJson time o⟩

theorem effectiveRows_shown (c : Config) (userPath : Option String) :
    c.ShownBy userPath (effectiveRows c userPath) := by
  cases userPath <;> rfl

theorem effectiveJson_integral (c : Config) (userPath : Option String) :
    (effectiveJson c userPath).Integral := by
  refine .ofMembers ?_
  simp [Json.text, Json.Integral.nat, Json.Integral.string, integral_textOrNull]

theorem effectiveJson_written (c : Config) (userPath : Option String) :
    c.WrittenIn userPath [(effectiveJson c userPath).print] := by
  refine ⟨_, _, rfl, Json.read_print (effectiveJson_integral c userPath), ?_, ?_, ?_⟩
  · simp [Json.member?, Json.valuesOf, Json.nat?]
  · simp [Json.member?, Json.valuesOf, BroadcastPolicy.ofJson?_name]
  · simp [Json.member?, Json.valuesOf, nullable_textOrNull]

theorem userPath_eq (env : Environment) :
    env.userFile.map ConfigFile.path = env.home.map configPath := by
  rw [Environment.userFile, Option.map_map]
  rfl

/-- A command that can have its steps and its configuration prints all that it has to. -/
theorem run_prints (hsteps : readSteps command.inputs = .ok steps) (hconfig : env.config.1 = .ok c)
    (hinputs : ∀ json policy interval inputs, command = .simulate json policy interval inputs →
      inputs ≠ []) :
    command.Prints env c steps (run env command).printed := by
  cases command with
  | config json =>
      have hprinted := run_config_printed hconfig json
      simp only [userPath_eq] at hprinted
      rw [hprinted]
      cases json with
      | true => exact effectiveJson_written c _
      | false => exact effectiveRows_shown c _
  | simulate json policy interval inputs =>
      have hread : readSteps inputs = .ok steps := hsteps
      have hscript : steps ≠ [] := by
        rw [← List.length_pos_iff, length_of_readSteps hread, List.length_pos_iff]
        exact hinputs _ _ _ _ rfl
      rw [run_simulate_printed hread hconfig json policy interval]
      cases json with
      | true => exact outcomeJson_written env.time _
      | false => exact outcomeRows_shown (trace_ne_nil _ _ _ hscript)

/-! ## How a command ends -/

/-- The command did its work with this configuration and these steps. -/
structure Output.Succeeds (env : Environment) (c : Config) (steps : List Step) (command : Command)
    (out : Output) : Prop where
  exitCode : out.exitCode = 0
  printed : command.Prints env c steps out.printed
  /-- The error stream has nothing but the log. -/
  stderr : ∀ verbose, out.stderr verbose = out.logLines verbose
  /-- Unless more is asked for, the log shows nothing there but broadcasts that were aborted. -/
  quiet : ∀ line ∈ out.logLines false, ∃ kind index fragment error,
    line = (Event.broadcastAborted kind index fragment error).render ∧
      command.Aborts env c steps (.broadcastAborted kind index error)

/-- The command did nothing, and says why. -/
structure Output.Fails (out : Output) : Prop where
  exitCode : out.exitCode = 1
  printed : out.printed = []
  errors : ∃ message, out.errors = [message] ∧ message ≠ ""
  stderr : ∀ verbose, out.stderr verbose ≠ []

theorem fails_of_eq {message : String} {events : List Event} (hmessage : message ≠ "") :
    Output.Fails ⟨1, [], [message], events⟩ where
  exitCode := rfl
  printed := rfl
  errors := ⟨message, rfl, hmessage⟩
  stderr := by simp [Output.stderr]

theorem not_isShown {e : Event} (he : e.isOrdinary = true) : e.level.isShown false = false := by
  rw [Event.isOrdinary, Bool.and_eq_true] at he
  have hlevel := he.2
  generalize e.level = level at hlevel ⊢
  cases level with
  | error => contradiction
  | _ => rfl

theorem run_quiet (hsteps : readSteps command.inputs = .ok steps) (hconfig : env.config.1 = .ok c) :
    ∀ line ∈ (run env command).logLines false, ∃ kind index fragment error,
      line = (Event.broadcastAborted kind index fragment error).render ∧
        command.Aborts env c steps (.broadcastAborted kind index error) := by
  intro line hline
  obtain ⟨e, he, rfl⟩ := List.mem_map.mp hline
  obtain ⟨hmem, hshown⟩ := List.mem_filter.mp he
  have hordinary : e.isOrdinary = true → False := fun hordinary => by
    simp [not_isShown hordinary] at hshown
  have hloaded := env.config_ordinary
  rcases hpair : env.config with ⟨result, loaded⟩
  obtain rfl : result = .ok c := by simpa [hpair] using hconfig
  rw [hpair] at hloaded
  rw [run_done hsteps hpair] at hmem
  simp only [List.mem_cons, List.mem_append, List.not_mem_nil, or_false] at hmem
  rcases hmem with ((rfl | rfl | hload) | hwork) | rfl
  · contradiction
  · exact (hordinary command.startedEvent_isOrdinary).elim
  · exact (hordinary (hloaded e hload)).elim
  · rcases command.workEvents_logged env c steps e hwork with
      hwork | ⟨kind, index, fragment, error, rfl, haborts⟩
    · exact (hordinary hwork).elim
    · exact ⟨kind, index, fragment, error, rfl, haborts⟩
  · contradiction

/-- What a command comes to, whatever it finds. -/
structure AllOrNothing (env : Environment) (command : Command) (out : Output) : Prop where
  /-- It prints all of its output, or says why there is none. -/
  ends : (∃ c steps, env.config.1 = .ok c ∧ readSteps command.inputs = .ok steps ∧
    out.Succeeds env c steps command) ∨ out.Fails
  /-- Only steps that cannot be read and the configuration fail it. -/
  exitCode_eq_one_iff : out.exitCode = 1 ↔
    (∃ s ∈ command.inputs, ∃ e, Step.read s = .error e) ∨ ∃ e, env.config.1 = .error e
  /-- What else is checked again is as it should be. -/
  accepted : ∀ json policy interval inputs, command = .simulate json policy interval inputs →
    inputs ≠ [] ∧ ∀ p ∈ policy, BroadcastPolicy.read p.name = .ok p
  /-- The first step that cannot be read is the error, whatever else there is to be found. -/
  invalid : ∀ before input later e, command.inputs = before ++ input :: later →
    (∀ s ∈ before, ∃ step, Step.read s = .ok step) → Step.read input = .error e →
      out.errors = ["Invalid step '" ++ input ++ "': " ++ e.fault.message] ∧
        out.events = [.startupCompleted, command.startedEvent, .simulateStepInvalid input,
          .shutdownStarted] ∧
        ∀ env', run env' command = out
  /-- The log begins with the start of the program and ends with its end. -/
  framed : ∃ between, out.events = .startupCompleted :: between ++ [.shutdownStarted] ∧
    .startupCompleted ∉ between ∧ .shutdownStarted ∉ between
  /-- What is wrong with the configuration is logged by the command, and then by the program. -/
  unconfigured : ∀ steps e, readSteps command.inputs = .ok steps → env.config.1 = .error e →
    out.errors = ["Failed to load config: " ++ e.message] ∧
      (∃ before, out.events =
        before ++ [command.failedEvent e, .errorOccurred e, .shutdownStarted]) ∧
      (command.failedEvent e).fields = [("error", .text e.message)] ∧
      (Event.errorOccurred e).fields = [("error", .text e.message)]

/-- Every command that is asked for does all of its work, or none of it. -/
theorem run_all_or_nothing {args : List String} {inv : Invocation}
    (hread : Invocation.read args = .ok inv) (env : Environment) :
    AllOrNothing env inv.command (run env inv.command) := by
  have hinputs : ∀ json policy interval inputs,
      inv.command = .simulate json policy interval inputs → inputs ≠ [] := by
    intro json policy interval inputs hcommand
    obtain ⟨verbose, asked⟩ := inv
    obtain rfl : asked = .simulate json policy interval inputs := hcommand
    exact steps_ne_nil hread
  constructor
  case ends =>
    cases hsteps : readSteps inv.command.inputs with
    | error e =>
        rw [run_invalid env hsteps]
        exact .inr (fails_of_eq (stepMessage_ne e))
    | ok steps =>
        rcases hconfig : env.config with ⟨e | c, loaded⟩
        · rw [run_unconfigured hsteps hconfig]
          exact .inr (fails_of_eq (configFailure_ne e))
        · have hloaded : env.config.1 = .ok c := by rw [hconfig]
          refine .inl ⟨c, steps, rfl, rfl, ?_, run_prints hsteps hloaded hinputs, ?_,
            run_quiet hsteps hloaded⟩
          · rw [run_done hsteps hconfig]
          · rw [run_done hsteps hconfig]
            exact fun verbose => List.nil_append _
  case exitCode_eq_one_iff => exact run_exitCode_eq_one_iff env inv.command
  case accepted =>
    exact fun json policy interval inputs hcommand =>
      ⟨hinputs json policy interval inputs hcommand, fun p _ => BroadcastPolicy.read_name p⟩
  case invalid =>
    intro before input later e hsplit hbefore hinput
    have hsteps : readSteps inv.command.inputs = .error e :=
      readSteps_eq_error_iff.mpr ⟨before, input, later, hsplit, hbefore, hinput⟩
    obtain rfl : e.input = input := (read_eq_error_iff.mp hinput).1
    rw [run_invalid env hsteps]
    exact ⟨rfl, rfl, fun env' => run_invalid env' hsteps⟩
  case framed =>
    obtain ⟨between, hevents, hframes⟩ := run_events env inv.command
    refine ⟨between, hevents, fun hmem => ?_, fun hmem => ?_⟩
    · exact absurd (hframes _ hmem) (by decide)
    · exact absurd (hframes _ hmem) (by decide)
  case unconfigured =>
    intro steps e hsteps herror
    rcases hconfig : env.config with ⟨result, loaded⟩
    obtain rfl : result = .error e := by simpa [hconfig] using herror
    rw [run_unconfigured hsteps hconfig]
    refine ⟨rfl, ⟨_, rfl⟩, ?_, rfl⟩
    cases inv.command <;> rfl

/-- Where there is a directory in the place of the user's file, and no other file. -/
def misplaced : Environment where
  home := some "/home"
  directory := "/work"
  user := .directory
  project := .missing
  now := ⟨0⟩
  time := "now"

/-- A simulation whose second step cannot be read. -/
def misspelled : Command :=
  .simulate false none none ["add:a", "ad:b", "clear:"]

/-- A simulation of which a broadcast is aborted. -/
def aborted : Command :=
  .simulate false (some .abort) none ["fail:x", "disable"]

/-- The trace of `aborted`. -/
def abortedTrace : List TraceEntry :=
  [⟨1, "register", some "x", "registered (faulty)"⟩, ⟨2, "stop", some "x", "failed"⟩,
    ⟨2, "error", none, "stop broadcast aborted at refresher #0: Failed to stop refresh of 'x': " ++
      "refresher is faulty"⟩]

/-- A step that cannot be read is refused first, though there is no configuration either, and a
simulation prints all of its trace, though a step of it fails. -/
theorem run_all_or_nothing_both :
    (Invocation.read ["simulate", "add:a", "ad:b", "clear:"] = .ok ⟨false, misspelled⟩ ∧
        (run misplaced misspelled).exitCode = 1 ∧
        (run misplaced misspelled).errors = ["Invalid step 'ad:b': unknown step"]) ∧
      Invocation.read ["simulate", "-p", "abort", "fail:x", "disable"] = .ok ⟨false, aborted⟩ ∧
        (run unconfigured aborted).exitCode = 0 ∧
        ∃ t : Table, t.Shows abortedTrace ∧ (run unconfigured aborted).printed =
          t.lines ++ ["2 step(s), 1 refresher(s) registered, policy: abort"] := by
  have hmisspelled : Invocation.read ["simulate", "add:a", "ad:b", "clear:"] =
      .ok ⟨false, misspelled⟩ := by
    decide
  have haborted : Invocation.read ["simulate", "-p", "abort", "fail:x", "disable"] =
      .ok ⟨false, aborted⟩ := by
    decide
  have hfirst : Step.read "ad:b" = .error ⟨"ad:b", .unknownVerb⟩ := by
    decide
  have hbefore : ∀ s ∈ ["add:a"], ∃ step, Step.read s = .ok step := by
    simpa using ⟨Step.named .add "a", by decide⟩
  have hscript : readSteps aborted.inputs = .ok [.named .fail "x", .bare .disable] := by
    decide
  have hnone : unconfigured.config.1 = .ok .empty := by
    decide
  have houtcome : (Command.simulation unconfigured .empty [.named .fail "x", .bare .disable]
      (some .abort) none).outcome 2 = ⟨.abort, 10, 2, 1, none, abortedTrace⟩ := by
    decide +kernel
  have hrefused := run_all_or_nothing hmisspelled misplaced
  have hdone := run_all_or_nothing haborted unconfigured
  refine ⟨⟨hmisspelled, ?_, ?_⟩, haborted, ?_⟩
  · exact hrefused.exitCode_eq_one_iff.mpr
      (.inl ⟨"ad:b", by simp [misspelled, Command.inputs], _, hfirst⟩)
  · exact (hrefused.invalid ["add:a"] "ad:b" ["clear:"] _ rfl hbefore hfirst).1
  · rcases hdone.ends with ⟨c, steps, hconfig, hsteps, hsucceeds⟩ | hfails
    · obtain rfl : .empty = c := Except.ok.inj (hnone.symm.trans hconfig)
      obtain rfl : _ = steps := Except.ok.inj (hscript.symm.trans hsteps)
      have hprinted : Outcome.ShownBy ⟨.abort, 10, 2, 1, none, abortedTrace⟩
          (run unconfigured aborted).printed := houtcome ▸ hsucceeds.printed
      exact ⟨hsucceeds.exitCode, hprinted⟩
    · have hexit : (run unconfigured aborted).exitCode = 0 := by
        decide +kernel
      rw [hfails.exitCode] at hexit
      contradiction

/-- The error stream can have a line, though a command ends well and its log is not asked for. -/
theorem run_aborted_logged :
    Invocation.read ["simulate", "-p", "abort", "fail:x", "disable"] = .ok ⟨false, aborted⟩ ∧
      (run unconfigured aborted).exitCode = 0 ∧
      (run unconfigured aborted).stderr false =
        ["ERROR core.refresh.broadcast_aborted kind=stop index=0 fragment_id=x " ++
          "error=Failed to stop refresh of 'x': refresher is faulty"] := by
  decide +kernel

end CommandLine

end PageRefresh
