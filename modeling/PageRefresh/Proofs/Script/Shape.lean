import PageRefresh.Proofs.Script.Callbacks
import PageRefresh.Proofs.Script.Chronicle
import PageRefresh.Script.Table

/-!
The shape of every trace.

All that records anything, the steps themselves, the refreshers, the callbacks, the reports and the
errors, writes to one trace under the number of the step under way.  So the numbers only rise, and
every step has its place; a step that fails says so in its last entry and nowhere else.
-/

namespace PageRefresh.Script

/-! ## Numbers -/

/-- The numbers of a trace never fall, and so they stay when the simulation runs on: new entries
have the number of the step under way, which no earlier entry exceeds. -/
theorem Simulation.run_sorted {s : Simulation}
    (hsorted : (s.trace.map TraceEntry.step).Pairwise (· ≤ ·))
    (hle : ∀ e ∈ s.trace, e.step ≤ s.step) (script : List Step) :
    ((s.run script).trace.map TraceEntry.step).Pairwise (· ≤ ·) := by
  induction script generalizing s with
  | nil => exact hsorted
  | cons step script ih =>
      obtain ⟨htrace, hrecorded⟩ := s.next_trace step
      rw [run_cons]
      apply ih
      · rw [htrace, List.map_append, List.pairwise_append]
        refine ⟨hsorted, ?_, ?_⟩
        · have hsame : (s.recorded step).map TraceEntry.step =
              List.replicate (s.recorded step).length (s.step + 1) :=
            List.map_eq_replicate_iff.mpr fun e he => (hrecorded e he).1
          rw [hsame]
          simp [List.pairwise_replicate]
        · intro earlier hearlier later hlater
          obtain ⟨e, he, rfl⟩ := List.mem_map.mp hearlier
          obtain ⟨e', he', rfl⟩ := List.mem_map.mp hlater
          rw [(hrecorded e' he').1]
          exact Nat.le_succ_of_le (hle e he)
      · intro e he
        rw [next_step]
        rw [htrace] at he
        rcases List.mem_append.mp he with hearlier | hnow
        · exact Nat.le_succ_of_le (hle e hearlier)
        · exact Nat.le_of_eq (hrecorded e hnow).1

namespace Past

variable {past : Past}

/-- A cycle step that completes nothing fails. -/
theorem fault?_of_completes?_eq_none {policy : BroadcastPolicy} {name : String}
    (hcompletes : past.completes? policy (.named .cycle name) = none) :
    past.fault? policy (.named .cycle name) ≠ none := by
  rw [fault?]
  cases hnewest : past.newest? name with
  | none => simp
  | some p =>
      have hstopped : past.told? policy p = some .stop := by
        simpa [completes?, hnewest] using hcompletes
      simp [hstopped]

/-- A step that stands alone has something to close with, unless it clears the registry. -/
theorem closingEntries_ne_nil {verb : BareVerb} (past : Past) (hverb : verb ≠ .clear) :
    past.closingEntries (.bare verb) ≠ [] := by
  cases verb with
  | clear => contradiction
  | _ => simp [closingEntries, modalRecord?, broadcast?]

/-- Every step records something. -/
theorem entries_ne_nil (policy : BroadcastPolicy) (interval : Duration) (past : Past)
    (step : Step) : past.entries policy interval step ≠ [] := by
  by_cases hfault : past.fault? policy step = none
  · have hwrites : past.writes policy interval step ≠ [] := by
      cases step with
      | named verb name =>
          cases verb with
          | after =>
              rw [writes]
              split <;> simp
          | cycle =>
              rw [writes]
              split
              · rename_i hcompletes
                exact absurd hfault (fault?_of_completes?_eq_none hcompletes)
              · simp
          | _ => simp [writes]
      | bare verb =>
          by_cases hverb : verb = .clear
          · rw [hverb]
            simp [writes]
          · rw [writes_bare policy interval past hverb, if_pos hfault]
            simp [past.closingEntries_ne_nil hverb]
    simp [entries, hwrites]
  · obtain ⟨e, he⟩ := Option.ne_none_iff_exists'.mp hfault
    simp [entries, he]

end Past

/-! ## Tables -/

/-- A trace with entries has a table, whose rows all begin at its border. -/
theorem no_activity_not_mem_tableRows {entries : List TraceEntry} (hentries : entries ≠ []) :
    "No refresher activity." ∉ tableRows entries := by
  have hborder : ∀ (c : Columns) (left middle right : Char), left ≠ 'N' →
      c.border left middle right ≠ "No refresher activity." := by
    intro c left middle right hleft hsame
    have hhead := congrArg (fun row => row.toList.head?) hsame
    simp [Columns.border] at hhead
    exact hleft hhead
  have hcells : ∀ (c : Columns) (step action target detail : String),
      c.row step action target detail ≠ "No refresher activity." := by
    intro c step action target detail hsame
    have hhead := congrArg (fun row => row.toList.head?) hsame
    simp [Columns.row] at hhead
  cases entries with
  | nil => contradiction
  | cons e entries =>
      intro hmem
      simp only [tableRows, List.mem_append, List.mem_cons, List.not_mem_nil, or_false,
        List.mem_map] at hmem
      rcases hmem with ((htop | hheader | hline) | ⟨e', -, hrow⟩) | hbottom
      · exact hborder _ _ _ _ (by decide) htop.symm
      · exact hcells _ _ _ _ _ hheader.symm
      · exact hborder _ _ _ _ (by decide) hline.symm
      · exact hcells _ _ _ _ _ hrow
      · exact hborder _ _ _ _ (by decide) hbottom.symm

/-! ## The whole trace -/

variable {policy : BroadcastPolicy} {interval : Duration} {now : Instant} {script : List Step}

/-- The numbers of the entries are those of the steps. -/
theorem mem_steps_iff (policy : BroadcastPolicy) (interval : Duration) (now : Instant)
    (script : List Step) (k : Nat) :
    k ∈ (simulate policy interval now script).trace.map TraceEntry.step ↔
      1 ≤ k ∧ k ≤ script.length := by
  constructor
  · intro hmem
    obtain ⟨e, he, rfl⟩ := List.mem_map.mp hmem
    exact step_of_mem_trace he
  · rintro ⟨hpos, hle⟩
    obtain ⟨i, rfl⟩ : ∃ i, k = i + 1 := ⟨k - 1, by omega⟩
    have hstep : script[i]? = some script[i] := List.getElem?_eq_getElem hle
    have hsome : entriesOf (simulate policy interval now script).trace i ≠ [] := by
      rw [entriesOf_chronicle policy interval now hstep]
      exact Past.entries_ne_nil policy interval _ _
    obtain ⟨e, he⟩ := List.exists_mem_of_ne_nil _ hsome
    obtain ⟨hmem, hnumber⟩ := List.mem_filter.mp he
    exact List.mem_map.mpr ⟨e, hmem, eq_of_beq hnumber⟩

/-- Step `i + 1` ends so.  If it fails it says so in its last entry, and in any case the script goes
on from what it has come to. -/
structure StepEnds (policy : BroadcastPolicy) (interval : Duration) (now : Instant)
    (script : List Step) (i : Nat) (ended : Except ShellError Unit × Simulation) : Prop where
  entries : ∃ others, (∀ e ∈ others, e.action ≠ "error") ∧
    entriesOf (simulate policy interval now script).trace i = others ++
      match ended.1 with
      | .ok () => []
      | .error e => [⟨i + 1, "error", none, e.message⟩]
  goesOn : (simulate policy interval now (script.take (i + 1))).view = ended.2.view

theorem stepEnds_apply {i : Nat} {step : Step} (policy : BroadcastPolicy) (interval : Duration)
    (now : Instant) (hstep : script[i]? = some step) :
    StepEnds policy interval now script i
      ((simulate policy interval now (script.take i)).atNext.apply step) where
  entries := by
    have hi := pastAt_length (le_length hstep)
    refine ⟨(pastAt script i).writes policy interval step, fun e => Past.writes_action_ne_error, ?_⟩
    rw [entriesOf_chronicle policy interval now hstep,
      (chronicled_at policy interval now script i step).ends, Past.entries, hi]
    cases (pastAt script i).fault? policy step <;> rfl
  goesOn := by
    rw [simulate_succ hstep]
    exact Simulation.next_view _ step

/-- A callback is queued no later than it runs. -/
theorem RunsIn.le {trace : List TraceEntry} {i j : Nat} (hruns : RunsIn script trace i j) :
    i ≤ j := by
  obtain ⟨name, -, hwhen⟩ := hruns
  split at hwhen
  · exact Nat.le_of_eq hwhen.symm
  · exact Nat.le_of_lt hwhen.1

/-- A callback leaves its entry under the number of the step that it runs in. -/
theorem callback_entry_iff (policy : BroadcastPolicy) (interval : Duration) (now : Instant)
    (script : List Step) (e : TraceEntry) :
    let trace := (simulate policy interval now script).trace
    e ∈ trace ∧ e.action = "callback" ↔
      ∃ i j name, RunsIn script trace i j ∧ script[i]? = some (.named .after name) ∧
        e = ⟨j + 1, "callback", some name, "ran"⟩ := by
  intro trace
  constructor
  · rintro ⟨he, haction⟩
    obtain ⟨j, hj⟩ := mem_entriesOf he
    obtain ⟨steps, -, hruns, hentries⟩ := callbacksOf_corresponds policy interval now script j
    obtain ⟨hlength, hget⟩ := List.forall₂_iff_get.mp hentries
    have hcallback : e ∈ callbacksOf trace j :=
      List.mem_filter.mpr ⟨hj, beq_iff_eq.mpr haction⟩
    obtain ⟨n, hn, rfl⟩ := List.getElem_of_mem hcallback
    obtain ⟨name, hstep, hentry⟩ := hget n (hlength ▸ hn) hn
    exact ⟨_, j, name, (hruns _).mp (List.get_mem steps _), hstep, hentry⟩
  · rintro ⟨i, j, name, hrunsIn, hstep, rfl⟩
    obtain ⟨steps, -, hruns, hentries⟩ := callbacksOf_corresponds policy interval now script j
    obtain ⟨hlength, hget⟩ := List.forall₂_iff_get.mp hentries
    obtain ⟨n, hn, rfl⟩ := List.getElem_of_mem ((hruns i).mpr hrunsIn)
    obtain ⟨name', hstep', hentry⟩ := hget n hn (hlength ▸ hn)
    obtain rfl : name = name' := by simpa using hstep.symm.trans hstep'
    have hmem : (callbacksOf trace j)[n] ∈ callbacksOf trace j :=
      List.getElem_mem (hlength ▸ hn)
    have hentry' : (callbacksOf trace j)[n] = ⟨j + 1, "callback", some name, "ran"⟩ := hentry
    rw [hentry'] at hmem
    exact ⟨(List.mem_filter.mp (List.mem_filter.mp hmem).1).1, rfl⟩

/-- A script that has steps leaves entries. -/
theorem trace_ne_nil (policy : BroadcastPolicy) (interval : Duration) (now : Instant)
    (hscript : script ≠ []) : (simulate policy interval now script).trace ≠ [] := by
  intro hempty
  have hfirst := (mem_steps_iff policy interval now script 1).mpr
    ⟨Nat.le_refl 1, List.length_pos_iff.mpr hscript⟩
  rw [hempty] at hfirst
  contradiction

/-- The shape of every trace: its numbers rise through all the steps, an error is the last entry of
the step that fails and does not end the script, and a callback counts for the step it runs in,
which is no earlier than the step that queued it. -/
theorem trace_shape (policy : BroadcastPolicy) (interval : Duration) (now : Instant)
    (script : List Step) :
    let trace := (simulate policy interval now script).trace
    (trace.map TraceEntry.step).Pairwise (· ≤ ·) ∧
      (∀ k, k ∈ trace.map TraceEntry.step ↔ 1 ≤ k ∧ k ≤ script.length) ∧
      (script ≠ [] → "No refresher activity." ∉ tableRows trace) ∧
      (∀ i step, script[i]? = some step →
        StepEnds policy interval now script i
          ((simulate policy interval now (script.take i)).atNext.apply step)) ∧
      (∀ i j, RunsIn script trace i j → i ≤ j) ∧
      ∀ e, e ∈ trace ∧ e.action = "callback" ↔
        ∃ i j name, RunsIn script trace i j ∧ script[i]? = some (.named .after name) ∧
          e = ⟨j + 1, "callback", some name, "ran"⟩ := by
  intro trace
  refine ⟨?_, mem_steps_iff policy interval now script, ?_, ?_, fun i j => RunsIn.le,
    callback_entry_iff policy interval now script⟩
  · apply Simulation.run_sorted
    · exact List.Pairwise.nil
    · simp [Simulation.start]
  · intro hscript
    exact no_activity_not_mem_tableRows (trace_ne_nil policy interval now hscript)
  · intro i step hstep
    exact stepEnds_apply policy interval now hstep

/-- Two steps that fail, between the `after` step of a callback and the cycle that runs it. -/
def failingBetween : List Step :=
  [.named .main "f", .named .after "f", .bare .modalClose, .named .cycle "g", .named .cycle "f"]

theorem trace_shape_failingBetween :
    let trace := (simulate .isolate (.ofSecs 10) ⟨0⟩ failingBetween).trace
    "No refresher activity." ∉ tableRows trace ∧
      (∃ others, (∀ e ∈ others, e.action ≠ "error") ∧
        entriesOf trace 2 = others ++ [⟨3, "error", none, "No modal is open"⟩]) ∧
      1 ≤ 4 ∧ ⟨5, "callback", some "f", "ran"⟩ ∈ trace := by
  intro trace
  have hwaits : RunsIn failingBetween trace 1 4 := by
    refine ⟨"f", rfl, by decide, by decide, ?_⟩
    intro k hlater hearlier
    obtain rfl | rfl : k = 2 ∨ k = 3 := by omega
    · decide
    · decide
  obtain ⟨-, -, htable, hsteps, hruns, hcallbacks⟩ :=
    trace_shape .isolate (.ofSecs 10) ⟨0⟩ failingBetween
  exact ⟨htable (by decide), (hsteps 2 (.bare .modalClose) rfl).entries, hruns 1 4 hwaits,
    ((hcallbacks _).mpr ⟨1, 4, "f", hwaits, rfl, rfl⟩).1⟩

end PageRefresh.Script
