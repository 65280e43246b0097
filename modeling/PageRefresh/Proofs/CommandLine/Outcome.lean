import PageRefresh.Proofs.CommandLine.Run
import PageRefresh.Proofs.Json.Printed
import PageRefresh.Proofs.Script.Chronicle
import PageRefresh.Proofs.Text.Lines

/-!
What a simulation prints as JSON.

`Outcome.ofJson?` reads the outcome of a simulation from a JSON value and does not look at the time
of day.  It undoes `outcomeJson`, and a printed value is read back whatever quotes, line feeds and
other characters its strings have (`Json.read_print`).  So the lines that are printed make up one
document, and no two outcomes have the same one.
-/

namespace PageRefresh

/-! ## Reading an outcome -/

namespace Json

def text? : Json → Option String
  | .string text => text
  | _ => none

def nat? : Json → Option Nat
  | .nat n => some n
  | _ => none

def items? : Json → Option (List Json)
  | .array items => some items
  | _ => none

/-- A member of an object that has to be there, once. -/
def member? {α : Type} (decode : Json → Option α) (name : String)
    (members : List (Option String × Json)) : Option α :=
  match valuesOf name members with
  | [value] => decode value
  | _ => none

end Json

namespace Script

/-- An entry of a trace.  A target is a text if there is one. -/
def TraceEntry.ofJson? : Json → Option TraceEntry
  | .object members => do
      let step ← Json.member? Json.nat? "step" members
      let action ← Json.member? Json.text? "action" members
      let target ← Json.fieldOf none (fun value => value.text?.map some) "target" members
      let detail ← Json.member? Json.text? "detail" members
      some ⟨step, action, target, detail⟩
  | _ => none

def Outcome.ofJson? : Json → Option Outcome
  | .object members => do
      let policy ← Json.member? BroadcastPolicy.ofJson? "policy" members
      let intervalSecs ← Json.member? Json.nat? "interval_secs" members
      let steps ← Json.member? Json.nat? "steps" members
      let registered ← Json.member? Json.nat? "registered" members
      let page ← Json.member? (Json.nullable Json.text?) "page" members
      let items ← Json.member? Json.items? "trace" members
      let trace ← items.mapM TraceEntry.ofJson?
      some ⟨policy, intervalSecs, steps, registered, page, trace⟩
  | _ => none

end Script

namespace CommandLine

open Script

variable {time : String} {e : TraceEntry} {o : Outcome}

theorem integral_textOrNull (text : Option String) : (textOrNull text).Integral := by
  cases text with
  | none => exact .null
  | some text => exact .string _

theorem entryJson_integral (time : String) (e : TraceEntry) : (entryJson time e).Integral := by
  refine .ofMembers ?_
  cases e.target <;> simp [Json.text, Json.Integral.nat, Json.Integral.string]

theorem outcomeJson_integral (time : String) (o : Outcome) : (outcomeJson time o).Integral := by
  have htrace : (Json.array (o.trace.map (entryJson time))).Integral := by
    refine .array fun item hitem => ?_
    obtain ⟨e, -, rfl⟩ := List.mem_map.mp hitem
    exact entryJson_integral time e
  refine .ofMembers ?_
  simp [Json.text, Json.Integral.nat, Json.Integral.string, integral_textOrNull, htrace]

theorem ofJson?_entryJson (time : String) (e : TraceEntry) :
    TraceEntry.ofJson? (entryJson time e) = some e := by
  rcases e with ⟨step, action, _ | target, detail⟩ <;>
    simp [TraceEntry.ofJson?, entryJson, Json.ofMembers, Json.member?, Json.fieldOf, Json.valuesOf,
      Json.text, Json.text?, Json.nat?]

theorem mapM_entryJson (time : String) (trace : List TraceEntry) :
    trace.mapM (TraceEntry.ofJson? ∘ entryJson time) = some trace := by
  induction trace with
  | nil => rfl
  | cons e trace ih => simp [List.mapM_cons, ofJson?_entryJson, ih]

theorem nullable_textOrNull (text : Option String) :
    Json.nullable Json.text? (textOrNull text) = some text := by
  cases text <;> rfl

theorem ofJson?_outcomeJson (time : String) (o : Outcome) :
    Outcome.ofJson? (outcomeJson time o) = some o := by
  simp [Outcome.ofJson?, outcomeJson, Json.ofMembers, Json.member?, Json.valuesOf, Json.nat?,
    Json.items?, BroadcastPolicy.ofJson?_name, nullable_textOrNull, mapM_entryJson]

/-- The document that a simulation prints. -/
theorem read_outcome (time : String) (o : Outcome) :
    Json.read ("\n".intercalate (Text.printedLines [(outcomeJson time o).print])) =
      some (outcomeJson time o) := by
  rw [Text.intercalate_printedLines, Json.read_print (outcomeJson_integral time o)]

/-- No two outcomes are printed as the same lines, at whatever times. -/
theorem eq_of_printedLines {time' : String} {o' : Outcome}
    (hlines : Text.printedLines [(outcomeJson time o).print] =
      Text.printedLines [(outcomeJson time' o').print]) : o = o' := by
  have hread := read_outcome time o
  rw [hlines, read_outcome time' o'] at hread
  have hsame := ofJson?_outcomeJson time o
  rw [← Option.some.inj hread, ofJson?_outcomeJson time' o'] at hsame
  exact (Option.some.inj hsame).symm

/-! ## Members that are null or missing -/

theorem exists_members_entryJson (time : String) (e : TraceEntry) :
    ∃ members, entryJson time e = .object members ∧
      ((∀ m ∈ members, m.1 ≠ some "target") ↔ e.target = none) := by
  refine ⟨_, rfl, ?_⟩
  cases e.target <;> simp

theorem exists_members_outcomeJson (time : String) (o : Outcome) :
    ∃ members, outcomeJson time o = .object members ∧
      ((some "page", .null) ∈ members ↔ o.page = none) := by
  refine ⟨_, rfl, ?_⟩
  cases o.page <;> simp [textOrNull, Json.text]

/-! ## Runs -/

section Runs

variable {env : Environment} {c : Config} {inputs : List String} {steps : List Step}

theorem run_simulate_json (hsteps : readSteps inputs = .ok steps) (hconfig : env.config.1 = .ok c)
    (policy : Option BroadcastPolicy) (interval : Option Nat) :
    let out := run env (.simulate true policy interval inputs)
    let o := (Command.simulation env c steps policy interval).outcome steps.length
    out.exitCode = 0 ∧ out.printed = [(outcomeJson env.time o).print] := by
  refine ⟨?_, run_simulate_printed hsteps hconfig true policy interval⟩
  have hread : readSteps (Command.simulate true policy interval inputs).inputs = .ok steps := hsteps
  rcases hloaded : env.config with ⟨config, loaded⟩
  obtain rfl : config = .ok c := by simpa [hloaded] using hconfig
  rw [run_done hread hloaded]

theorem length_of_readSteps (hsteps : readSteps inputs = .ok steps) :
    steps.length = inputs.length := by
  induction inputs generalizing steps with
  | nil =>
      obtain rfl := Except.ok.inj hsteps
      rfl
  | cons input inputs ih =>
      rw [readSteps] at hsteps
      split at hsteps
      · contradiction
      · split at hsteps
        · contradiction
        · rename_i rest hrest
          obtain rfl := Except.ok.inj hsteps
          rw [List.length_cons, List.length_cons, ih hrest]

theorem page_eq_none_iff (policy : BroadcastPolicy) (interval : Duration) (now : Instant)
    (script : List Step) (steps : Nat) :
    ((simulate policy interval now script).outcome steps).page = none ↔
      ∀ name, .named .page name ∉ script := by
  rw [simulate_outcome]
  simp [Past.page?_eq_none_iff]

/-- A simulation that has this outcome writes it in JSON, and nothing of it is lost. -/
structure Lossless (env : Environment) (c : Config) (inputs : List String) (steps : List Step)
    (policy : Option BroadcastPolicy) (interval : Option Nat) (out : Output) (o : Outcome) :
    Prop where
  exitCode : out.exitCode = 0
  /-- The lines make up one document, ... -/
  read : Json.read ("\n".intercalate (Text.printedLines out.printed)) =
    some (outcomeJson env.time o)
  /-- ... and the outcome is read from it. -/
  decoded : Outcome.ofJson? (outcomeJson env.time o) = some o
  underPolicy : o.policy = policy.getD c.effectivePolicy
  everySecs : o.intervalSecs = interval.getD c.effectiveSecs.toNat
  counted : o.steps = inputs.length
  /-- A page is null if no step has entered one, ... -/
  page : ∃ members, outcomeJson env.time o = .object members ∧
    ((some "page", .null) ∈ members ↔ ∀ name, .named .page name ∉ steps)
  /-- ... and a target is missing if there is none. -/
  target : ∀ e ∈ o.trace, ∃ members, entryJson env.time e = .object members ∧
    ((∀ m ∈ members, m.1 ≠ some "target") ↔ e.target = none)
  /-- Runs that print the same have the same outcome, ... -/
  injective : ∀ env' c' policy' interval' inputs' steps', readSteps inputs' = .ok steps' →
    env'.config.1 = .ok c' →
      Text.printedLines out.printed =
          Text.printedLines (run env' (.simulate true policy' interval' inputs')).printed →
        o = (Command.simulation env' c' steps' policy' interval').outcome steps'.length
  /-- ... and the reverse if the time is the same. -/
  same_iff : ∀ env' c' policy' interval' inputs' steps', readSteps inputs' = .ok steps' →
    env'.config.1 = .ok c' → env.time = env'.time →
      (Text.printedLines out.printed =
          Text.printedLines (run env' (.simulate true policy' interval' inputs')).printed ↔
        o = (Command.simulation env' c' steps' policy' interval').outcome steps'.length)

/-- Whatever the script, the JSON of a simulation has the whole of its outcome. -/
theorem simulate_json_lossless (hsteps : readSteps inputs = .ok steps)
    (hconfig : env.config.1 = .ok c) (policy : Option BroadcastPolicy) (interval : Option Nat) :
    Lossless env c inputs steps policy interval (run env (.simulate true policy interval inputs))
      ((Command.simulation env c steps policy interval).outcome steps.length) := by
  have hlines : ∀ {env c inputs steps}, readSteps inputs = .ok steps → env.config.1 = .ok c →
      ∀ policy interval,
        Text.printedLines (run env (.simulate true policy interval inputs)).printed =
          Text.printedLines [(outcomeJson env.time
            ((Command.simulation env c steps policy interval).outcome steps.length)).print] :=
    fun hsteps hconfig policy interval =>
      congrArg Text.printedLines (run_simulate_json hsteps hconfig policy interval).2
  let o := (Command.simulation env c steps policy interval).outcome steps.length
  obtain ⟨members, hmembers, hnull⟩ := exists_members_outcomeJson env.time o
  constructor
  case exitCode => exact (run_simulate_json hsteps hconfig policy interval).1
  case read =>
    rw [hlines hsteps hconfig]
    exact read_outcome env.time o
  case decoded => exact ofJson?_outcomeJson env.time o
  case underPolicy => exact congrArg Outcome.policy (simulate_outcome ..)
  case everySecs =>
    have hinterval := congrArg Outcome.intervalSecs (simulate_outcome
      (policy.getD c.effectivePolicy) ((interval.map Duration.ofSecs).getD c.effectiveInterval)
      env.now steps steps.length)
    refine hinterval.trans ?_
    cases interval <;> simp [Config.effectiveInterval]
  case counted => exact length_of_readSteps hsteps
  case page => exact ⟨members, hmembers, hnull.trans (page_eq_none_iff ..)⟩
  case target => exact fun e _ => exists_members_entryJson env.time e
  case injective =>
    intro env' c' policy' interval' inputs' steps' hsteps' hconfig'
    rw [hlines hsteps hconfig, hlines hsteps' hconfig']
    exact eq_of_printedLines
  case same_iff =>
    intro env' c' policy' interval' inputs' steps' hsteps' hconfig' htime
    rw [hlines hsteps hconfig, hlines hsteps' hconfig', htime]
    exact ⟨eq_of_printedLines, fun ho => by rw [ho]⟩

end Runs

/-- Where there is no configuration. -/
def unconfigured : Environment where
  home := none
  directory := "/"
  user := .missing
  project := .missing
  now := ⟨0⟩
  time := "12:00:00"

/-- The name of the page has a quote, a backslash, a line feed and a control character in it. -/
theorem simulate_json_lossless_quoted :
    let page := "\"a\\\n\x01é"
    let out := run unconfigured
      (.simulate true none (some 5) ["page:" ++ page, "fail: x", "disable"])
    ∃ j, Json.read ("\n".intercalate (Text.printedLines out.printed)) = some j ∧
      Outcome.ofJson? j = some
        { policy := .isolate
          intervalSecs := 5
          steps := 3
          registered := 1
          page := some page
          trace := [⟨1, "page", some page, "entered"⟩,
            ⟨2, "register", some "x", "registered (faulty)"⟩, ⟨3, "stop", some "x", "failed"⟩,
            ⟨3, "broadcast", none, "stop: 1 invoked, 1 failed"⟩] } := by
  intro page out
  have hsteps : readSteps ["page:" ++ page, "fail: x", "disable"] =
      .ok [.named .page page, .named .fail "x", .bare .disable] := by
    decide +kernel
  have hconfig : unconfigured.config.1 = .ok .empty := by
    decide
  have hlossless := simulate_json_lossless hsteps hconfig none (some 5)
  refine ⟨_, hlossless.read, hlossless.decoded.trans ?_⟩
  decide +kernel

end CommandLine

end PageRefresh
