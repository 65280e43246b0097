import PageRefresh.Proofs.Script.Mirror

/-!
What becomes of cycle steps.

A cycle step names a poller, and the steps before it decide whether it completes a cycle: the newest
poller of the name must not have been told to stop by the last broadcast that reached it.  The trace
shows a completed cycle by its own entry, so that cycles can be counted in the trace alone.
-/

namespace PageRefresh.Script

/-! ## Steps of a script by their position -/

/-- The steps before position `i`. -/
def pastAt (script : List Step) (i : Nat) : Past :=
  (script.take i).reverse

theorem pastAt_length {script : List Step} {i : Nat} (hi : i ≤ script.length) :
    (pastAt script i).length = i := by
  simp [pastAt, hi]

theorem pastAt_succ {script : List Step} {i : Nat} {step : Step} (hstep : script[i]? = some step) :
    pastAt script (i + 1) = step :: pastAt script i := by
  simp [pastAt, List.take_add_one, hstep]

/-- Later steps come on top of earlier ones. -/
theorem pastAt_of_le (script : List Step) {i j : Nat} (hij : i ≤ j) :
    ∃ later, pastAt script j = later ++ pastAt script i := by
  refine ⟨((script.take j).drop i).reverse, ?_⟩
  have hsplit : (script.take j).take i ++ (script.take j).drop i = script.take j :=
    List.take_append_drop i _
  rw [List.take_take, Nat.min_eq_left hij] at hsplit
  rw [pastAt, pastAt, ← List.reverse_append, hsplit]

variable {policy : BroadcastPolicy} {interval : Duration} {now : Instant} {script : List Step}
  {i j p : Nat} {name : String}

/-- Before a step, the simulation mirrors the steps that were taken. -/
theorem mirrors_at (policy : BroadcastPolicy) (interval : Duration) (now : Instant)
    (script : List Step) (i : Nat) :
    Mirrors policy (pastAt script i) (simulate policy interval now (script.take i)) :=
  mirrors_simulate policy interval now (script.take i)

theorem le_length {step : Step} (hstep : script[i]? = some step) : i ≤ script.length :=
  Nat.le_of_lt (List.getElem?_eq_some_iff.mp hstep).1

theorem simulate_step {step : Step} (policy : BroadcastPolicy) (interval : Duration)
    (now : Instant) (hstep : script[i]? = some step) :
    (simulate policy interval now (script.take i)).step = i := by
  rw [(mirrors_at policy interval now script i).step, pastAt_length (le_length hstep)]

theorem simulate_succ {step : Step} (hstep : script[i]? = some step) :
    simulate policy interval now (script.take (i + 1)) =
      (simulate policy interval now (script.take i)).next step := by
  rw [simulate, List.take_add_one, hstep, Simulation.run_append]
  rfl

/-- The entries of a step in the trace of the whole script. -/
theorem entriesOf_eq {step : Step} (hstep : script[i]? = some step) :
    entriesOf (simulate policy interval now script).trace i =
      (simulate policy interval now (script.take i)).recorded step := by
  obtain ⟨hi, rfl⟩ := List.getElem?_eq_some_iff.mp hstep
  have hsplit : script = script.take i ++ script[i] :: script.drop (i + 1) := by
    simp
  have hentries := entriesOf_simulate policy interval now (script.take i) script[i]
    (script.drop (i + 1))
  rw [← hsplit, List.length_take, Nat.min_eq_left (Nat.le_of_lt hi)] at hentries
  exact hentries

/-! ## What a cycle step records -/

/-- A cycle that is refused leaves one entry and changes nothing else. -/
theorem recorded_of_error {s : Simulation} {e : RefreshError}
    (hcycle : s.atNext.cycle name = (.error (.refresh e), s.atNext)) :
    s.recorded (.named .cycle name) = [⟨s.step + 1, "error", none, e.message⟩] ∧
      (s.next (.named .cycle name)).view = s.atNext.view := by
  have happly : s.atNext.apply (.named .cycle name) = (.error (.refresh e), s.atNext) := hcycle
  have hnext := Simulation.next_of_error happly
  constructor
  · apply Simulation.recorded_eq
    rw [hnext]
    rfl
  · rw [hnext]
    rfl

theorem recorded_of_ok {s : Simulation} {p : Nat} {named : NamedPoller} {poller : Poller String}
    {batch : Poller.Batch String} (hnewest : s.atNext.newest? name = some (p, named))
    (hcomplete : named.poller.complete named.name s.now = .ok (poller, batch)) :
    s.recorded (.named .cycle name) =
      batch.callbacks.map (Simulation.callbackEntry (s.step + 1)) ++
        [Simulation.cycleEntry (s.step + 1) named.name (poller.cycles named.name)
          batch.callbacks.length] := by
  obtain ⟨events, hcycle⟩ := Simulation.cycle_ok hnewest hcomplete
  have happly : s.atNext.apply (.named .cycle name) = _ := hcycle
  apply Simulation.recorded_eq
  rw [Simulation.next_of_ok happly]
  rfl

/-- The step is refused: it records this error alone, and pollers and registry stay as they are. -/
def RefusedAt (policy : BroadcastPolicy) (interval : Duration) (now : Instant)
    (script : List Step) (i : Nat) (e : RefreshError) : Prop :=
  let before := simulate policy interval now (script.take i)
  let after := simulate policy interval now (script.take (i + 1))
  entriesOf (simulate policy interval now script).trace i =
      [⟨i + 1, "error", none, e.message⟩] ∧
    after.shell = before.shell ∧ after.current = before.current ∧ after.pollers = before.pollers

theorem refusedAt_of_error {e : RefreshError} (hstep : script[i]? = some (.named .cycle name))
    (hcycle : (simulate policy interval now (script.take i)).atNext.cycle name =
      (.error (.refresh e), (simulate policy interval now (script.take i)).atNext)) :
    RefusedAt policy interval now script i e := by
  obtain ⟨hrecorded, hview⟩ := recorded_of_error hcycle
  rw [simulate_step policy interval now hstep] at hrecorded
  rw [← simulate_succ hstep] at hview
  obtain ⟨hsetting, hpollers⟩ := Prod.mk.inj hview
  obtain ⟨hshell, hsetting⟩ := Prod.mk.inj hsetting
  exact ⟨(entriesOf_eq hstep).trans hrecorded, hshell, (Prod.mk.inj hsetting).1, hpollers⟩

/-- What a cycle step comes to in a script. -/
theorem cycle_step (policy : BroadcastPolicy) (interval : Duration) (now : Instant)
    (hstep : script[i]? = some (.named .cycle name)) :
    (Past.newest? name (pastAt script i) = none ∧
      RefusedAt policy interval now script i (.unknownFragment name)) ∨
    (∃ p, Past.newest? name (pastAt script i) = some p ∧
      Past.told? policy p (pastAt script i) = some .stop ∧
        RefusedAt policy interval now script i (.notRunning name)) ∨
    ∃ p, Past.newest? name (pastAt script i) = some p ∧
      Past.told? policy p (pastAt script i) ≠ some .stop ∧
        entriesOf (simulate policy interval now script).trace i =
          (Past.waiting policy p (pastAt script i)).map
              (fun _ => Simulation.callbackEntry (i + 1) name) ++
            [Simulation.cycleEntry (i + 1) name (Past.completed policy p (pastAt script i) + 1)
              (Past.waiting policy p (pastAt script i)).length] := by
  rcases (mirrors_at policy interval now script i).cycle_cases name with ⟨hnone, hcycle⟩ |
    ⟨p, hnewest, hstopped, hcycle⟩ |
    ⟨p, named, poller, batch, hnewest, hruns, -, rfl, hfound, hcomplete, hcycles, hcallbacks⟩
  · exact .inl ⟨hnone, refusedAt_of_error hstep hcycle⟩
  · exact .inr (.inl ⟨p, hnewest, hstopped, refusedAt_of_error hstep hcycle⟩)
  · refine .inr (.inr ⟨p, hnewest, hruns, ?_⟩)
    rw [entriesOf_eq hstep, recorded_of_ok hfound hcomplete,
      simulate_step policy interval now hstep, hcycles, hcallbacks,
      List.length_replicate, List.map_replicate, List.map_const']

/-! ## Completed cycles in the trace -/

/-- The trace shows that step `i` completed a cycle. -/
def succeeds (trace : List TraceEntry) (i : Nat) : Bool :=
  (entriesOf trace i).any (·.action == "cycle")

/-- Step `i` completed a cycle of the poller with index `p`. -/
def completesAt (script : List Step) (trace : List TraceEntry) (p i : Nat) : Bool :=
  match script[i]? with
  | some (.named .cycle name) =>
      Past.newest? name (pastAt script i) == some p && succeeds trace i
  | _ => false

theorem succeeds_of_refusedAt {e : RefreshError}
    (hrefused : RefusedAt policy interval now script i e) :
    succeeds (simulate policy interval now script).trace i = false := by
  rw [succeeds, hrefused.1]
  rfl

/-- The trace shows what the steps before decide. -/
theorem completesAt_iff {step : Step} (policy : BroadcastPolicy) (interval : Duration)
    (now : Instant) (hstep : script[i]? = some step) :
    completesAt script (simulate policy interval now script).trace p i = true ↔
      Past.completes? policy (pastAt script i) step = some p := by
  by_cases hcycle : ∃ name, step = .named .cycle name
  · obtain ⟨name, rfl⟩ := hcycle
    simp only [completesAt, hstep, Bool.and_eq_true, beq_iff_eq]
    rcases cycle_step policy interval now hstep with ⟨hnone, hrefused⟩ |
      ⟨q, hnewest, hstopped, hrefused⟩ | ⟨q, hnewest, hruns, hentries⟩
    · simp [Past.completes?, hnone]
    · have hcompletes : Past.completes? policy (pastAt script i) (.named .cycle name) = none := by
        simp [Past.completes?, hnewest, hstopped]
      rw [hcompletes, succeeds_of_refusedAt hrefused]
      simp
    · have hcompletes := Past.completes?_eq_some_iff.mpr ⟨hnewest, hruns⟩
      have hsucceeds : succeeds (simulate policy interval now script).trace i = true := by
        rw [succeeds, hentries, List.any_append]
        simp [Simulation.cycleEntry]
      rw [hcompletes, hnewest]
      simp [hsucceeds]
  · have hcompletes : Past.completes? policy (pastAt script i) step ≠ some p :=
      fun hcompletes => hcycle (Past.cycle_of_completes? hcompletes)
    have hnot : completesAt script (simulate policy interval now script).trace p i = false := by
      unfold completesAt
      split
      · rename_i name hname
        exact absurd ⟨name, Option.some.inj (hstep.symm.trans hname)⟩ hcycle
      · rfl
    simp [hcompletes, hnot]

/-- Completed cycles can be counted in the trace. -/
theorem completed_eq_countP (interval : Duration) (now : Instant) (hi : i ≤ script.length)
    (p : Nat) :
    Past.completed policy p (pastAt script i) =
      (List.range i).countP
        (completesAt script (simulate policy interval now script).trace p) := by
  induction i with
  | zero => rfl
  | succ i ih =>
      have hstep : script[i]? = some script[i] := List.getElem?_eq_getElem hi
      have hrest := ih (Nat.le_of_lt hi)
      rw [pastAt_succ hstep, Past.completed, List.range_succ, List.countP_append, ← hrest,
        List.countP_singleton]
      simp only [completesAt_iff policy interval now hstep]
      split <;> rfl

/-! ## The outcome of a cycle step -/

/-- What a step comes to that asks for a cycle of the poller with this name. -/
structure CycleOutcome (policy : BroadcastPolicy) (interval : Duration) (now : Instant)
    (script : List Step) (i : Nat) (name : String) : Prop where
  /-- No poller of the name was made since the registry was emptied. -/
  unknown : Past.newest? name (pastAt script i) = none →
    RefusedAt policy interval now script i (.unknownFragment name)
  /-- The last broadcast that reached the newest one was a stop. -/
  stopped : ∀ p, Past.newest? name (pastAt script i) = some p →
    Past.told? policy p (pastAt script i) = some .stop →
      RefusedAt policy interval now script i (.notRunning name)
  /-- Otherwise the step completes the next cycle of this poller. -/
  completed : ∀ p, Past.newest? name (pastAt script i) = some p →
    Past.told? policy p (pastAt script i) ≠ some .stop →
      let trace := (simulate policy interval now script).trace
      ∃ callbacks, (∀ e ∈ callbacks, e.action = "callback") ∧
        entriesOf trace i = callbacks ++ [⟨i + 1, "cycle", some name,
          "cycle " ++ Nat.repr ((List.range i).countP (completesAt script trace p) + 1) ++
            " done, " ++ Nat.repr callbacks.length ++ " callback(s) ran"⟩]

/-- The steps before a cycle step decide what it comes to, and the trace says so. -/
theorem cycle_outcome (policy : BroadcastPolicy) (interval : Duration) (now : Instant)
    {script : List Step} {i : Nat} {name : String}
    (hstep : script[i]? = some (.named .cycle name)) :
    CycleOutcome policy interval now script i name := by
  let past := pastAt script i
  have hi : i ≤ script.length := le_length hstep
  rcases cycle_step policy interval now hstep with ⟨hnone, hrefused⟩ |
    ⟨q, hnewest, hstopped, hrefused⟩ | ⟨q, hnewest, hruns, hentries⟩
  · have hno : ∀ p, Past.newest? name past ≠ some p := by simp [past, hnone]
    exact ⟨fun _ => hrefused, fun p hp => absurd hp (hno p), fun p hp => absurd hp (hno p)⟩
  · refine ⟨fun hnone => absurd (hnone.symm.trans hnewest) (by simp), fun _ _ _ => hrefused, ?_⟩
    intro p hp hruns
    obtain rfl : q = p := Option.some.inj (hnewest.symm.trans hp)
    exact absurd hstopped hruns
  · refine ⟨fun hnone => absurd (hnone.symm.trans hnewest) (by simp), ?_, ?_⟩
    · intro p hp hstopped
      obtain rfl : q = p := Option.some.inj (hnewest.symm.trans hp)
      exact absurd hstopped hruns
    · intro p hp _ trace
      obtain rfl : q = p := Option.some.inj (hnewest.symm.trans hp)
      let callbacks := (Past.waiting policy q past).map fun _ =>
        Simulation.callbackEntry (i + 1) name
      have hcallbacks : ∀ e ∈ callbacks, e.action = "callback" := by
        intro e he
        obtain ⟨step, -, rfl⟩ := List.mem_map.mp he
        rfl
      have hlength : callbacks.length = (Past.waiting policy q past).length := List.length_map _
      refine ⟨callbacks, hcallbacks, ?_⟩
      rw [hlength, ← completed_eq_countP interval now hi q]
      exact hentries

/-- Only under one policy does a stop get past the faulty refresher. -/
def stoppedBehindFaulty : List Step :=
  [.named .fail "x", .named .add "f", .bare .disable, .named .cycle "f"]

theorem cycle_outcome_behind_faulty :
    RefusedAt .isolate (.ofSecs 10) ⟨0⟩ stoppedBehindFaulty 3 (.notRunning "f") ∧
      ∃ callbacks, (∀ e ∈ callbacks, e.action = "callback") ∧
        entriesOf (simulate .abort (.ofSecs 10) ⟨0⟩ stoppedBehindFaulty).trace 3 =
          callbacks ++ [⟨4, "cycle", some "f",
            "cycle " ++ Nat.repr 1 ++ " done, " ++ Nat.repr callbacks.length ++
              " callback(s) ran"⟩] := by
  have hstep : stoppedBehindFaulty[3]? = some (.named .cycle "f") := rfl
  exact ⟨(cycle_outcome .isolate (.ofSecs 10) ⟨0⟩ hstep).stopped 0 rfl (by decide),
    (cycle_outcome .abort (.ofSecs 10) ⟨0⟩ hstep).completed 0 rfl (by decide)⟩

end PageRefresh.Script
