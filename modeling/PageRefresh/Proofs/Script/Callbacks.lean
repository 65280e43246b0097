import Mathlib.Data.List.Forall2
import PageRefresh.Proofs.Script.Cycles

/-!
When the callbacks of a script run.

The callback of an `after` step runs at once unless the main poller has the name of its fragment.
Otherwise it waits for the first cycle of this very poller that is completed after it; there is none
once another poller has the name or the registry was emptied.  So the callback entries of a step
correspond, one by one and in order, to the `after` steps whose callbacks run in it.
-/

namespace PageRefresh.Script

variable {policy : BroadcastPolicy} {interval : Duration} {now : Instant} {script : List Step}
  {i j k p : Nat} {name : String}

/-- The callback of step `i` runs in step `j`: at once, or in the first cycle that the poller which
lets it wait completes after it. -/
def RunsIn (script : List Step) (trace : List TraceEntry) (i j : Nat) : Prop :=
  ∃ name, script[i]? = some (.named .after name) ∧
    match Past.queues? (pastAt script i) (.named .after name) with
    | none => j = i
    | some p =>
        i < j ∧ completesAt script trace p j = true ∧
          ∀ k, i < k → k < j → completesAt script trace p k = false

/-- The callback entries of a step. -/
def callbacksOf (trace : List TraceEntry) (j : Nat) : List TraceEntry :=
  (entriesOf trace j).filter (·.action == "callback")

/-! ## Who is waiting -/

/-- The callback of step `i` was queued on the poller with index `p`, which has completed no cycle
since, up to step `j`. -/
def WaitsAt (script : List Step) (trace : List TraceEntry) (p i j : Nat) : Prop :=
  i < j ∧ (∃ step, script[i]? = some step ∧ Past.queues? (pastAt script i) step = some p) ∧
    ∀ k, i < k → k < j → completesAt script trace p k = false

theorem waitsAt_succ {trace : List TraceEntry} {step : Step} (hstep : script[j]? = some step) :
    WaitsAt script trace p i (j + 1) ↔
      (WaitsAt script trace p i j ∧ completesAt script trace p j = false) ∨
        (i = j ∧ Past.queues? (pastAt script j) step = some p) := by
  constructor
  · rintro ⟨hlt, hqueued, hnone⟩
    rcases Nat.lt_succ_iff_lt_or_eq.mp hlt with hij | rfl
    · left
      exact ⟨⟨hij, hqueued, fun k hik hkj => hnone k hik (Nat.lt_succ_of_lt hkj)⟩,
        hnone j hij (Nat.lt_succ_self j)⟩
    · obtain ⟨step', hstep', hqueues⟩ := hqueued
      obtain rfl := Option.some.inj (hstep'.symm.trans hstep)
      exact .inr ⟨rfl, hqueues⟩
  · rintro (⟨⟨hij, hqueued, hnone⟩, hj⟩ | ⟨rfl, hqueues⟩)
    · refine ⟨Nat.lt_succ_of_lt hij, hqueued, ?_⟩
      intro k hik hkj
      rcases Nat.lt_succ_iff_lt_or_eq.mp hkj with hlt | rfl
      · exact hnone k hik hlt
      · exact hj
    · refine ⟨Nat.lt_succ_self i, ⟨step, hstep, hqueues⟩, ?_⟩
      intro k hik hki
      omega

/-- A callback waits since it was queued, as long as no cycle of its poller was completed. -/
theorem mem_waiting_iff (interval : Duration) (now : Instant) (hj : j ≤ script.length) :
    i ∈ Past.waiting policy p (pastAt script j) ↔
      WaitsAt script (simulate policy interval now script).trace p i j := by
  induction j with
  | zero => simp [pastAt, Past.waiting, WaitsAt]
  | succ j ih =>
      have hstep : script[j]? = some script[j] := List.getElem?_eq_getElem hj
      have hrest := ih (Nat.le_of_lt hj)
      have hcompletes := completesAt_iff (p := p) policy interval now hstep
      rw [pastAt_succ hstep, Past.waiting, waitsAt_succ hstep]
      split
      · rename_i hcompleted
        rw [hcompletes.mpr hcompleted, Past.queues?_of_completes? hcompleted]
        simp
      · rename_i hnot
        have hj' : completesAt script (simulate policy interval now script).trace p j = false := by
          rw [← Bool.not_eq_true, hcompletes]
          exact hnot
        split
        · rename_i hqueues
          rw [List.mem_append, List.mem_singleton, hrest, pastAt_length (Nat.le_of_lt hj), hj']
          simp [hqueues]
        · rename_i hqueues
          rw [hrest, hj']
          simp [hqueues]

/-! ## The callback entries of a step -/

theorem callbacksOf_after (policy : BroadcastPolicy) (interval : Duration) (now : Instant)
    (hstep : script[i]? = some (.named .after name)) :
    callbacksOf (simulate policy interval now script).trace i =
      if Past.queues? (pastAt script i) (.named .after name) = none then
        [Simulation.callbackEntry (i + 1) name]
      else [] := by
  have hmirrors := mirrors_at policy interval now script i
  have hnumber := simulate_step policy interval now hstep
  rw [callbacksOf, entriesOf_eq hstep]
  generalize simulate policy interval now (script.take i) = s at hmirrors hnumber
  obtain ⟨made, hmade, htrace⟩ := s.atNext.after_trace name
  have hnext : s.next (.named .after name) = s.atNext.after name := Simulation.next_of_ok rfl
  have hrecorded : s.recorded (.named .after name) = made ++
      if s.mainPoller?.any (·.2.poller.owns name) then []
      else [Simulation.callbackEntry (i + 1) name] := by
    apply Simulation.recorded_eq
    rw [hnext, htrace, List.append_assoc, ← hnumber]
    rfl
  have hothers : made.filter (·.action == "callback") = [] := by
    rw [List.filter_eq_nil_iff]
    intro e he
    have haction := (hmade e he).2
    simp only [List.mem_cons, List.not_mem_nil, or_false] at haction
    rcases haction with haction | haction <;> simp [haction]
  rw [hrecorded, List.filter_append, hothers, List.nil_append]
  rcases hmirrors.after_cases name with ⟨hqueues, hnone⟩ |
    ⟨p, named, hqueues, hmain, -, -, howns⟩
  · rw [hnone, hqueues]
    rfl
  · rw [hmain, hqueues, Option.any_some, howns]
    rfl

theorem callbacksOf_other {step : Step} (policy : BroadcastPolicy) (interval : Duration)
    (now : Instant) (hstep : script[i]? = some step) (hother : "callback" ∉ step.actions) :
    callbacksOf (simulate policy interval now script).trace i = [] := by
  rw [callbacksOf, entriesOf_eq hstep, List.filter_eq_nil_iff]
  intro e he hcallback
  have haction := ((simulate policy interval now (script.take i)).next_trace step).2 e he
  rw [beq_iff_eq.mp hcallback] at haction
  exact hother haction.2

theorem callbacksOf_refused {e : RefreshError}
    (hrefused : RefusedAt policy interval now script i e) :
    callbacksOf (simulate policy interval now script).trace i = [] := by
  rw [callbacksOf, hrefused.1]
  rfl

/-- A completed cycle runs the callbacks that wait, one entry for each, and then says how many. -/
theorem entriesOf_completed (interval : Duration) (now : Instant)
    (hstep : script[i]? = some (.named .cycle name))
    (hcompletes : Past.completes? policy (pastAt script i) (.named .cycle name) = some p) :
    let trace := (simulate policy interval now script).trace
    let waiting := Past.waiting policy p (pastAt script i)
    callbacksOf trace i = waiting.map (fun _ => Simulation.callbackEntry (i + 1) name) ∧
      ∃ cycle, entriesOf trace i = callbacksOf trace i ++
        [Simulation.cycleEntry (i + 1) name cycle (callbacksOf trace i).length] := by
  intro trace waiting
  obtain ⟨hnewest, hruns⟩ := Past.completes?_eq_some_iff.mp hcompletes
  rcases cycle_step policy interval now hstep with ⟨hnone, -⟩ | ⟨q, hq, hstopped, -⟩ |
    ⟨q, hq, -, hentries⟩
  · rw [hnewest] at hnone
    contradiction
  · obtain rfl := Option.some.inj (hq.symm.trans hnewest)
    exact absurd hstopped hruns
  · obtain rfl := Option.some.inj (hq.symm.trans hnewest)
    have hcallbacks : callbacksOf trace i =
        waiting.map fun _ => Simulation.callbackEntry (i + 1) name := by
      rw [callbacksOf, hentries, List.filter_append]
      have hall : (waiting.map fun _ => Simulation.callbackEntry (i + 1) name).filter
          (·.action == "callback") =
            waiting.map fun _ => Simulation.callbackEntry (i + 1) name := by
        rw [List.filter_eq_self]
        intro e he
        obtain ⟨step, -, rfl⟩ := List.mem_map.mp he
        rfl
      rw [hall]
      exact List.append_nil _
    refine ⟨hcallbacks, Past.completed policy q (pastAt script i) + 1, ?_⟩
    rw [hcallbacks, List.length_map]
    exact hentries

/-! ## Which callbacks run in a step -/

/-- A callback runs in a step of the script. -/
theorem RunsIn.step {trace : List TraceEntry} (hruns : RunsIn script trace i j) :
    ∃ step, script[j]? = some step := by
  obtain ⟨name, hqueued, hwhen⟩ := hruns
  split at hwhen
  · subst hwhen
    exact ⟨_, hqueued⟩
  · obtain ⟨-, hcompletes, -⟩ := hwhen
    cases hstep : script[j]? with
    | none => simp [completesAt, hstep] at hcompletes
    | some step => exact ⟨step, rfl⟩

theorem runsIn_after {trace : List TraceEntry} (hstep : script[j]? = some (.named .after name)) :
    RunsIn script trace i j ↔
      i = j ∧ Past.queues? (pastAt script j) (.named .after name) = none := by
  constructor
  · rintro ⟨name', hstep', hruns⟩
    split at hruns
    · rename_i hqueues
      subst hruns
      obtain rfl : name' = name := by simpa using hstep'.symm.trans hstep
      exact ⟨rfl, hqueues⟩
    · obtain ⟨-, hcompletes, -⟩ := hruns
      simp [completesAt, hstep] at hcompletes
  · rintro ⟨rfl, hqueues⟩
    refine ⟨name, hstep, ?_⟩
    rw [hqueues]

theorem runsIn_iff_waiting {step : Step} (policy : BroadcastPolicy) (interval : Duration)
    (now : Instant) (hstep : script[j]? = some step) (hother : ∀ name, step ≠ .named .after name) :
    RunsIn script (simulate policy interval now script).trace i j ↔
      ∃ p, Past.completes? policy (pastAt script j) step = some p ∧
        i ∈ Past.waiting policy p (pastAt script j) := by
  have hj : j ≤ script.length := le_length hstep
  constructor
  · rintro ⟨name, hqueued, hruns⟩
    split at hruns
    · subst hruns
      exact absurd (Option.some.inj (hstep.symm.trans hqueued)) (hother name)
    · rename_i p hqueues
      obtain ⟨hij, hcompletes, hnone⟩ := hruns
      refine ⟨p, (completesAt_iff policy interval now hstep).mp hcompletes, ?_⟩
      rw [mem_waiting_iff interval now hj]
      exact ⟨hij, ⟨_, hqueued, hqueues⟩, hnone⟩
  · rintro ⟨p, hcompletes, hwaiting⟩
    rw [mem_waiting_iff interval now hj] at hwaiting
    obtain ⟨hij, ⟨queued, hqueued, hqueues⟩, hnone⟩ := hwaiting
    obtain ⟨name, rfl⟩ := Past.after_of_queues? hqueues
    refine ⟨name, hqueued, ?_⟩
    rw [hqueues]
    exact ⟨hij, (completesAt_iff policy interval now hstep).mpr hcompletes, hnone⟩

/-! ## The poller that lets a callback wait -/

/-- A poller that lets a callback wait has the name of its fragment, for ever. -/
theorem name_of_queues? (hij : i ≤ j)
    (hqueues : Past.queues? (pastAt script i) (.named .after name) = some p) :
    (Past.names (pastAt script j))[p]? = some name := by
  obtain ⟨later, hlater⟩ := pastAt_of_le script hij
  have hname := Past.main?_name (Past.queues?_eq_some_iff.mp hqueues)
  obtain ⟨more, hnames⟩ := Past.names_kept later (pastAt script i)
  have hp := (List.getElem?_eq_some_iff.mp hname).1
  rw [hlater, ← hnames, List.getElem?_append_left hp, hname]

/-- Only a cycle that is completed, or a callback that does not wait, leaves callback entries. -/
theorem callbacksOf_eq_nil {step : Step} (interval : Duration) (now : Instant)
    (hstep : script[j]? = some step) (hother : ∀ name, step ≠ .named .after name)
    (hcompletes : Past.completes? policy (pastAt script j) step = none) :
    callbacksOf (simulate policy interval now script).trace j = [] := by
  by_cases hcycle : ∃ name, step = .named .cycle name
  · obtain ⟨name, rfl⟩ := hcycle
    rcases cycle_step policy interval now hstep with ⟨-, hrefused⟩ | ⟨p, -, -, hrefused⟩ |
      ⟨p, hnewest, hruns, -⟩
    · exact callbacksOf_refused hrefused
    · exact callbacksOf_refused hrefused
    · rw [Past.completes?_eq_some_iff.mpr ⟨hnewest, hruns⟩] at hcompletes
      contradiction
  · apply callbacksOf_other policy interval now hstep
    intro hcallback
    rcases Step.eq_after_or_cycle hcallback with ⟨name, hafter⟩ | hcompleted
    · exact hother name hafter
    · exact hcycle hcompleted

/-- A completed cycle runs the callbacks that wait, each under the name that it was queued for. -/
theorem callbacksOf_completed (interval : Duration) (now : Instant)
    (hstep : script[j]? = some (.named .cycle name))
    (hcompletes : Past.completes? policy (pastAt script j) (.named .cycle name) = some p) :
    List.Forall₂ (fun i e => ∃ name, script[i]? = some (.named .after name) ∧
        e = Simulation.callbackEntry (j + 1) name)
      (Past.waiting policy p (pastAt script j))
      (callbacksOf (simulate policy interval now script).trace j) := by
  have hj : j ≤ script.length := le_length hstep
  have hmeant := Past.newest?_name (Past.completes?_eq_some_iff.mp hcompletes).1
  rw [(entriesOf_completed interval now hstep hcompletes).1, List.forall₂_map_right_iff,
    List.forall₂_same]
  intro i hwaiting
  obtain ⟨hij, ⟨step, hqueued, hqueues⟩, -⟩ := (mem_waiting_iff interval now hj).mp hwaiting
  obtain ⟨queued, rfl⟩ := Past.after_of_queues? hqueues
  obtain rfl : queued = name :=
    Option.some.inj ((name_of_queues? (Nat.le_of_lt hij) hqueues).symm.trans hmeant)
  exact ⟨queued, hqueued, rfl⟩

/-- The callback entries of a step are those of the `after` steps whose callbacks run in it, in the
order of the script. -/
theorem callbacksOf_corresponds (policy : BroadcastPolicy) (interval : Duration) (now : Instant)
    (script : List Step) (j : Nat) :
    ∃ steps : List Nat, steps.Pairwise (· < ·) ∧
      (∀ i, i ∈ steps ↔ RunsIn script (simulate policy interval now script).trace i j) ∧
        List.Forall₂ (fun i e => ∃ name, script[i]? = some (.named .after name) ∧
            e = Simulation.callbackEntry (j + 1) name)
          steps (callbacksOf (simulate policy interval now script).trace j) := by
  cases hstep : script[j]? with
  | none =>
      have hentries : callbacksOf (simulate policy interval now script).trace j = [] := by
        rw [callbacksOf, entriesOf_eq_nil (List.getElem?_eq_none_iff.mp hstep)]
        rfl
      refine ⟨[], List.Pairwise.nil, ?_, by rw [hentries]; exact .nil⟩
      intro i
      simp only [List.not_mem_nil, false_iff]
      intro hruns
      obtain ⟨step, hsome⟩ := hruns.step
      rw [hstep] at hsome
      contradiction
  | some step =>
      by_cases hafter : ∃ name, step = .named .after name
      · obtain ⟨name, rfl⟩ := hafter
        have hentries := callbacksOf_after policy interval now hstep
        by_cases hqueues : Past.queues? (pastAt script j) (.named .after name) = none
        · rw [if_pos hqueues] at hentries
          refine ⟨[j], List.pairwise_singleton _ _, ?_, ?_⟩
          · intro i
            rw [List.mem_singleton, runsIn_after hstep, and_iff_left hqueues]
          · rw [hentries]
            exact .cons ⟨name, hstep, rfl⟩ .nil
        · rw [if_neg hqueues] at hentries
          refine ⟨[], List.Pairwise.nil, ?_, by rw [hentries]; exact .nil⟩
          intro i
          simp [runsIn_after hstep, hqueues]
      · have hother : ∀ name, step ≠ .named .after name := fun name hname => hafter ⟨name, hname⟩
        have hruns := fun i => runsIn_iff_waiting (i := i) policy interval now hstep hother
        cases hcompletes : Past.completes? policy (pastAt script j) step with
        | none =>
            refine ⟨[], List.Pairwise.nil, ?_, ?_⟩
            · intro i
              simp [hruns, hcompletes]
            · rw [callbacksOf_eq_nil interval now hstep hother hcompletes]
              exact .nil
        | some p =>
            obtain ⟨name, rfl⟩ := Past.cycle_of_completes? hcompletes
            refine ⟨Past.waiting policy p (pastAt script j),
              (Past.waiting_lt policy p (pastAt script j)).2, ?_, ?_⟩
            · intro i
              simp [hruns, hcompletes]
            · exact callbacksOf_completed interval now hstep hcompletes

/-- No callback runs twice. -/
theorem RunsIn.unique {trace : List TraceEntry} (hj : RunsIn script trace i j)
    (hk : RunsIn script trace i k) : j = k := by
  obtain ⟨name, hqueued, hruns⟩ := hj
  obtain ⟨name', hqueued', hruns'⟩ := hk
  obtain rfl : name = name' := by simpa using hqueued.symm.trans hqueued'
  split at hruns
  · rename_i hqueues
    rw [hqueues] at hruns'
    exact hruns.trans hruns'.symm
  · rename_i p hqueues
    rw [hqueues] at hruns'
    obtain ⟨hij, hcompletes, hfirst⟩ := hruns
    obtain ⟨hik, hcompletes', hfirst'⟩ := hruns'
    rcases Nat.lt_trichotomy j k with hlt | heq | hlt
    · exact absurd hcompletes (by simp [hfirst' j hij hlt])
    · exact heq
    · exact absurd hcompletes' (by simp [hfirst k hik hlt])

end PageRefresh.Script
