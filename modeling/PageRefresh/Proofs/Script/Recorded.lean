import PageRefresh.Proofs.Script.Broadcast

/-!
What each step leaves in the trace.

A step only adds entries to the trace, under its own number and with the actions that are open to
it (`next_extends`).  The entries with the number of a step are therefore those that it recorded
when it was carried out (`entriesOf_simulate`).
-/

namespace PageRefresh.Script

/-- The actions under which a step may record entries. -/
def Step.actions : Step → List String
  | .named .page _ => ["page"]
  | .named .add _ => ["register"]
  | .named .main _ => ["register"]
  | .named .fail _ => ["register"]
  | .named .after _ => ["after", "queue", "callback"]
  | .named .cycle _ => ["callback", "cycle", "error"]
  | .bare .disable => ["stop", "broadcast", "error"]
  | .bare .enable => ["restart", "broadcast", "error"]
  | .bare .modalOpen => ["stop", "modal-open", "broadcast", "error"]
  | .bare .modalClose => ["restart", "modal-close", "broadcast", "error"]
  | .bare .clear => ["clear"]

theorem Step.eq_after_or_cycle {step : Step} (haction : "callback" ∈ step.actions) :
    (∃ name, step = .named .after name) ∨ ∃ name, step = .named .cycle name := by
  cases step with
  | named verb name =>
      cases verb with
      | after => exact .inl ⟨name, rfl⟩
      | cycle => exact .inr ⟨name, rfl⟩
      | _ => simp [actions] at haction
  | bare verb => cases verb <;> simp [actions] at haction

namespace Simulation

/-- Entries with these actions, under the number of the step under way, are added to the trace. -/
structure Extends (actions : List String) (s s' : Simulation) : Prop where
  step : s'.step = s.step
  trace : ∃ made, s'.trace = s.trace ++ made ∧ ∀ e ∈ made, e.step = s.step ∧ e.action ∈ actions

namespace Extends

variable {actions : List String} {s s' s'' : Simulation}

/-- Nothing is recorded. -/
theorem of_eq (hstep : s'.step = s.step) (htrace : s'.trace = s.trace) : Extends actions s s' :=
  ⟨hstep, [], by simp [htrace], by simp⟩

theorem trans (hfirst : Extends actions s s') (hsecond : Extends actions s' s'') :
    Extends actions s s'' := by
  obtain ⟨hstep, made, htrace, hmade⟩ := hfirst
  obtain ⟨hstep', more, htrace', hmore⟩ := hsecond
  refine ⟨hstep'.trans hstep, made ++ more, by rw [htrace', htrace, List.append_assoc], ?_⟩
  intro e he
  rcases List.mem_append.mp he with hearlier | hlater
  · exact hmade e hearlier
  · rw [← hstep]
    exact hmore e hlater

/-- Just one entry is recorded. -/
theorem single {e : TraceEntry} (hstep : s'.step = s.step) (htrace : s'.trace = s.trace ++ [e])
    (hnumber : e.step = s.step) (haction : e.action ∈ actions) : Extends actions s s' := by
  refine ⟨hstep, [e], htrace, ?_⟩
  intro e' he'
  obtain rfl := List.mem_singleton.mp he'
  exact ⟨hnumber, haction⟩

/-- One more entry is recorded. -/
theorem record {action : String} (target : Option String) (detail : String)
    (hextends : Extends actions s s') (haction : action ∈ actions) :
    Extends actions s (s'.record action target detail) :=
  hextends.trans (.single rfl rfl rfl haction)

theorem broadcast {kind : BroadcastKind} (hextends : Extends actions s s')
    (hkind : kind.name ∈ actions) : Extends actions s (s'.broadcast kind).2 := by
  obtain ⟨made, htrace, hmade⟩ := s'.broadcast_trace kind
  apply hextends.trans
  refine ⟨congrArg (fun e => e.2.2.2.2) (s'.broadcast_setting kind), made, htrace, ?_⟩
  intro e he
  obtain ⟨hstep, haction⟩ := hmade e he
  exact ⟨hstep, by rwa [haction]⟩

end Extends

/-! ## The entries of one step -/

variable {actions : List String}

theorem broadcastStep_extends (s : Simulation) {kind : BroadcastKind}
    (hkind : kind.name ∈ actions) (hreport : "broadcast" ∈ actions) :
    Extends actions s (s.broadcastStep kind).2 := by
  have hsame : Extends actions s s := .of_eq rfl rfl
  have hextends := hsame.broadcast hkind
  unfold broadcastStep
  split
  · rename_i r s' hbroadcast
    rw [hbroadcast] at hextends
    exact hextends.record none _ hreport
  · rename_i e s' hbroadcast
    rw [hbroadcast] at hextends
    exact hextends

theorem modalStep_extends (s : Simulation) {action : String} {cause : Option BroadcastKind}
    (haction : action ∈ actions) (hkind : ∀ kind, cause = some kind → kind.name ∈ actions)
    (hreport : "broadcast" ∈ actions) : Extends actions s (s.modalStep action cause).2 := by
  have hsame : Extends actions s s := .of_eq rfl rfl
  cases cause with
  | none => exact hsame.record none _ haction
  | some kind =>
      have hextends := hsame.broadcast (hkind kind rfl)
      simp only [modalStep]
      split
      · rename_i r s' hbroadcast
        rw [hbroadcast] at hextends
        exact (hextends.record none _ haction).record none _ hreport
      · rename_i e s' hbroadcast
        rw [hbroadcast] at hextends
        exact hextends

theorem openModal_extends (s : Simulation) :
    Extends (Step.bare .modalOpen).actions s s.openModal.2 := by
  have hopened : Extends (Step.bare .modalOpen).actions s
      ({ s with shell := s.shell.openModal }.log s.shell.openModal.openedEvent) := .of_eq rfl rfl
  apply hopened.trans
  apply modalStep_extends _ (by decide) ?_ (by decide)
  intro kind hkind
  simp only [Shell.opensWith, Option.ite_none_right_eq_some, Option.some.injEq] at hkind
  rw [← hkind.2]
  decide

theorem closeModal_extends (s : Simulation) :
    Extends (Step.bare .modalClose).actions s s.closeModal.2 := by
  have hclosed : Extends (Step.bare .modalClose).actions s
      ({ s with shell := s.shell.closeModal }.log s.shell.closeModal.closedEvent) := .of_eq rfl rfl
  unfold closeModal
  split
  · exact .of_eq rfl rfl
  · rename_i cause hcloses
    apply hclosed.trans
    apply modalStep_extends _ (by decide) ?_ (by decide)
    rintro kind rfl
    unfold Shell.closesWith at hcloses
    split at hcloses
    · contradiction
    · rw [← Option.some.inj (Except.ok.inj hcloses)]
      decide
    · simp at hcloses

/-! ## Callbacks -/

/-- The entry of a callback that was queued for a fragment. -/
def callbackEntry (n : Nat) (fragment : String) : TraceEntry :=
  ⟨n, "callback", some fragment, "ran"⟩

theorem foldl_runCallback (s : Simulation) (callbacks : List String) :
    callbacks.foldl runCallback s =
      { s with trace := s.trace ++ callbacks.map (callbackEntry s.step) } := by
  induction callbacks generalizing s with
  | nil => simp
  | cons callback callbacks ih =>
      rw [List.foldl_cons, ih]
      simp [runCallback, record, callbackEntry]

/-- A callback that does not wait is the last entry of its step. -/
theorem after_trace (s : Simulation) (name : String) :
    ∃ made, (∀ e ∈ made, e.step = s.step ∧ e.action ∈ ["after", "queue"]) ∧
      (s.after name).trace = s.trace ++ made ++
        (if s.mainPoller?.any (·.2.poller.owns name) then [] else [callbackEntry s.step name]) := by
  cases hmain : s.mainPoller? with
  | none =>
      refine ⟨[⟨s.step, "after", some name, "main refresher: none"⟩], by simp, ?_⟩
      simp [after, hmain, record, log, runCallback, callbackEntry]
  | some found =>
      obtain ⟨i, named⟩ := found
      refine ⟨[⟨s.step, "after", some name, "main refresher: " ++ named.name⟩,
        ⟨s.step, "queue", some name, "callback queued on " ++ named.name⟩], by simp, ?_⟩
      cases howns : named.poller.owns name <;>
        simp [after, hmain, howns, record, log, runCallback, callbackEntry, setPoller]

theorem after_extends (s : Simulation) (name : String) :
    Extends (Step.named .after name).actions s (s.after name) := by
  obtain ⟨made, hmade, htrace⟩ := s.after_trace name
  have hstep : (s.after name).step = s.step := by
    unfold after
    split
    · rfl
    · split <;> rfl
  refine ⟨hstep, _, by rw [htrace, List.append_assoc], ?_⟩
  intro e he
  rcases List.mem_append.mp he with hbefore | hcallback
  · obtain ⟨hnumber, haction⟩ := hmade e hbefore
    exact ⟨hnumber, by simp [Step.actions] at haction ⊢; tauto⟩
  · split at hcallback
    · contradiction
    · obtain rfl := List.mem_singleton.mp hcallback
      exact ⟨rfl, by simp [Step.actions, callbackEntry]⟩

/-- The entry that closes a completed cycle. -/
def cycleEntry (n : Nat) (name : String) (cycle count : Nat) : TraceEntry :=
  ⟨n, "cycle", some name,
    "cycle " ++ Nat.repr cycle ++ " done, " ++ Nat.repr count ++ " callback(s) ran"⟩

/-- A cycle that is completed runs the callbacks that waited, and then says how many. -/
theorem cycle_ok {s : Simulation} {name : String} {i : Nat} {named : NamedPoller}
    {p : Poller String} {batch : Poller.Batch String} (hnewest : s.newest? name = some (i, named))
    (hcomplete : named.poller.complete named.name s.now = .ok (p, batch)) :
    ∃ events, s.cycle name =
      (.ok (), { s.setPoller i p with
        trace := s.trace ++ (batch.callbacks.map (callbackEntry s.step) ++
          [cycleEntry s.step named.name (p.cycles named.name) batch.callbacks.length])
        events := events }) := by
  simp [cycle, hnewest, hcomplete, foldl_runCallback, record, log, setPoller, cycleEntry]

/-- A cycle that cannot be completed changes nothing. -/
theorem cycle_error {s s' : Simulation} {name : String} {e : ShellError}
    (herror : s.cycle name = (.error e, s')) : s' = s := by
  unfold cycle at herror
  split at herror
  · exact (Prod.mk.inj herror).2.symm
  · split at herror
    · exact (Prod.mk.inj herror).2.symm
    · simp at herror

/-- Only the newest poller of the name can complete a cycle. -/
theorem newest?_of_cycle {s s' : Simulation} {name : String}
    (hok : s.cycle name = (.ok (), s')) :
    ∃ i named p batch, s.newest? name = some (i, named) ∧
      named.poller.complete named.name s.now = .ok (p, batch) := by
  unfold cycle at hok
  split at hok
  · simp at hok
  · rename_i i owner poller hnewest
    split at hok
    · simp at hok
    · rename_i p batch hcomplete
      exact ⟨i, ⟨owner, poller⟩, p, batch, hnewest, hcomplete⟩

theorem cycle_extends (s : Simulation) (name : String) :
    Extends (Step.named .cycle name).actions s (s.cycle name).2 := by
  cases hcycle : s.cycle name with
  | mk result s' =>
      cases result with
      | error e =>
          rw [cycle_error hcycle]
          exact .of_eq rfl rfl
      | ok value =>
          obtain ⟨i, named, p, batch, hnewest, hcomplete⟩ := newest?_of_cycle hcycle
          obtain ⟨events, hok⟩ := cycle_ok hnewest hcomplete
          obtain ⟨-, rfl⟩ := Prod.mk.inj (hcycle.symm.trans hok)
          refine ⟨rfl, _, rfl, ?_⟩
          intro e he
          rcases List.mem_append.mp he with hcallback | hclosing
          · obtain ⟨callback, -, rfl⟩ := List.mem_map.mp hcallback
            exact ⟨rfl, by simp [Step.actions, callbackEntry]⟩
          · obtain rfl := List.mem_singleton.mp hclosing
            exact ⟨rfl, by simp [Step.actions, cycleEntry]⟩

/-! ## Whole steps -/

theorem apply_extends (s : Simulation) (step : Step) :
    Extends step.actions s (s.apply step).2 := by
  cases step with
  | named verb name =>
      cases verb with
      | after => exact s.after_extends name
      | cycle => exact s.cycle_extends name
      | page => exact .single rfl rfl rfl List.mem_cons_self
      | add => exact .single rfl rfl rfl List.mem_cons_self
      | main => exact .single rfl rfl rfl List.mem_cons_self
      | fail => exact .single rfl rfl rfl List.mem_cons_self
  | bare verb =>
      cases verb with
      | disable => exact s.broadcastStep_extends (by decide) (by decide)
      | enable => exact s.broadcastStep_extends (by decide) (by decide)
      | modalOpen => exact s.openModal_extends
      | modalClose => exact s.closeModal_extends
      | clear => exact .single rfl rfl rfl List.mem_cons_self

theorem apply_error {s : Simulation} {step : Step} {e : ShellError}
    (herror : (s.apply step).1 = .error e) : "error" ∈ step.actions := by
  cases step with
  | named verb name =>
      cases verb with
      | cycle => simp [Step.actions]
      | _ => contradiction
  | bare verb =>
      cases verb with
      | clear => contradiction
      | _ => simp [Step.actions]

/-- The next step is under way. -/
def atNext (s : Simulation) : Simulation :=
  { s with step := s.step + 1 }

theorem next_of_ok {s s' : Simulation} {step : Step} (happly : s.atNext.apply step = (.ok (), s')) :
    s.next step = s' := by
  simp only [next, atNext] at happly ⊢
  rw [happly]

theorem next_of_error {s s' : Simulation} {step : Step} {e : ShellError}
    (happly : s.atNext.apply step = (.error e, s')) :
    s.next step = (s'.log (.simulateStepFailed s'.step e)).record "error" none e.message := by
  simp only [next, atNext] at happly ⊢
  rw [happly]

/-- A step adds entries under its own number. -/
theorem next_extends (s : Simulation) (step : Step) :
    Extends step.actions s.atNext (s.next step) := by
  have hextends := apply_extends s.atNext step
  cases happly : s.atNext.apply step with
  | mk result s' =>
      rw [happly] at hextends
      cases result with
      | ok value =>
          rw [next_of_ok happly]
          exact hextends
      | error e =>
          have hlogged : Extends step.actions s' (s'.log (.simulateStepFailed s'.step e)) :=
            .of_eq rfl rfl
          have haction : "error" ∈ step.actions := apply_error (congrArg Prod.fst happly)
          rw [next_of_error happly]
          exact (hextends.trans hlogged).record none e.message haction

/-- The entries that a step adds to the trace. -/
def recorded (s : Simulation) (step : Step) : List TraceEntry :=
  (s.next step).trace.drop s.trace.length

theorem recorded_eq {s : Simulation} {step : Step} {made : List TraceEntry}
    (htrace : (s.next step).trace = s.trace ++ made) : s.recorded step = made := by
  rw [recorded, htrace, List.drop_left]

theorem next_trace (s : Simulation) (step : Step) :
    (s.next step).trace = s.trace ++ s.recorded step ∧
      ∀ e ∈ s.recorded step, e.step = s.step + 1 ∧ e.action ∈ step.actions := by
  obtain ⟨-, made, htrace, hmade⟩ := s.next_extends step
  rw [recorded_eq htrace]
  exact ⟨htrace, hmade⟩

theorem next_step (s : Simulation) (step : Step) : (s.next step).step = s.step + 1 :=
  (s.next_extends step).step

/-! ## Whole scripts -/

theorem run_append (s : Simulation) (first second : List Step) :
    s.run (first ++ second) = (s.run first).run second :=
  List.foldl_append

theorem run_cons (s : Simulation) (step : Step) (script : List Step) :
    s.run (step :: script) = (s.next step).run script := rfl

theorem run_step (s : Simulation) (script : List Step) :
    (s.run script).step = s.step + script.length := by
  induction script generalizing s with
  | nil => rfl
  | cons step script ih =>
      rw [run_cons, ih, next_step, List.length_cons]
      omega

/-- The steps of a script add entries under their numbers. -/
theorem run_trace (s : Simulation) (script : List Step) :
    ∃ made, (s.run script).trace = s.trace ++ made ∧
      ∀ e ∈ made, s.step < e.step ∧ e.step ≤ s.step + script.length := by
  induction script generalizing s with
  | nil => exact ⟨[], by simp [run], by simp⟩
  | cons step script ih =>
      obtain ⟨htrace, hrecorded⟩ := s.next_trace step
      obtain ⟨made, hrest, hmade⟩ := ih (s.next step)
      refine ⟨s.recorded step ++ made, by rw [run_cons, hrest, htrace, List.append_assoc], ?_⟩
      intro e he
      rw [List.length_cons]
      rcases List.mem_append.mp he with hnow | hlater
      · have hnumber := (hrecorded e hnow).1
        omega
      · have hnumber := hmade e hlater
        rw [next_step] at hnumber
        omega

/-- Every entry that a script adds has an action that is open to one of its steps. -/
theorem run_actions (s : Simulation) (script : List Step) {e : TraceEntry}
    (he : e ∈ (s.run script).trace) : e ∈ s.trace ∨ ∃ step ∈ script, e.action ∈ step.actions := by
  induction script generalizing s with
  | nil => exact .inl he
  | cons step script ih =>
      obtain ⟨htrace, hrecorded⟩ := s.next_trace step
      rcases ih (s.next step) he with hnow | ⟨step', hmem, haction⟩
      · rw [htrace] at hnow
        rcases List.mem_append.mp hnow with hbefore | hmade
        · exact .inl hbefore
        · exact .inr ⟨step, List.mem_cons_self, (hrecorded e hmade).2⟩
      · exact .inr ⟨step', List.mem_cons_of_mem _ hmem, haction⟩

end Simulation

/-- The entries of a step, counted from 0. -/
def entriesOf (trace : List TraceEntry) (i : Nat) : List TraceEntry :=
  trace.filter (·.step == i + 1)

/-- The entries of a step are those that it recorded when it was carried out. -/
theorem entriesOf_simulate (policy : BroadcastPolicy) (interval : Duration) (now : Instant)
    (before : List Step) (step : Step) (later : List Step) :
    entriesOf (simulate policy interval now (before ++ step :: later)).trace before.length =
      ((Simulation.start policy interval now).run before).recorded step := by
  let s := (Simulation.start policy interval now).run before
  have hstep : s.step = before.length := by
    simp [s, Simulation.run_step, Simulation.start]
  obtain ⟨earlier, hbefore, hearlier⟩ :=
    Simulation.run_trace (.start policy interval now) before
  obtain ⟨htrace, hrecorded⟩ := s.next_trace step
  obtain ⟨made, hlater, hmade⟩ := (s.next step).run_trace later
  have hwhole : (simulate policy interval now (before ++ step :: later)).trace =
      earlier ++ s.recorded step ++ made := by
    rw [simulate, Simulation.run_append, Simulation.run_cons, hlater, htrace, hbefore]
    rfl
  rw [entriesOf, hwhole, List.filter_append, List.filter_append]
  have hnone : earlier.filter (·.step == before.length + 1) = [] := by
    rw [List.filter_eq_nil_iff]
    intro e he
    have hnumber := (hearlier e he).2
    simp only [Simulation.start] at hnumber
    simp only [beq_iff_eq]
    omega
  have hall : (s.recorded step).filter (·.step == before.length + 1) = s.recorded step := by
    rw [List.filter_eq_self]
    intro e he
    rw [(hrecorded e he).1, hstep]
    exact beq_self_eq_true _
  have hmore : made.filter (·.step == before.length + 1) = [] := by
    rw [List.filter_eq_nil_iff]
    intro e he
    have hnumber := (hmade e he).1
    rw [Simulation.next_step, hstep] at hnumber
    simp only [beq_iff_eq]
    omega
  rw [hnone, hall, hmore, List.nil_append, List.append_nil]

/-- Every entry has the number of a step. -/
theorem step_of_mem_trace {policy : BroadcastPolicy} {interval : Duration} {now : Instant}
    {script : List Step} {e : TraceEntry} (he : e ∈ (simulate policy interval now script).trace) :
    0 < e.step ∧ e.step ≤ script.length := by
  obtain ⟨made, htrace, hmade⟩ := Simulation.run_trace (.start policy interval now) script
  have hwhole : (simulate policy interval now script).trace = made := htrace
  have hnumber := hmade e (hwhole ▸ he)
  simp only [Simulation.start, Nat.zero_add] at hnumber
  exact hnumber

theorem entriesOf_eq_nil {policy : BroadcastPolicy} {interval : Duration} {now : Instant}
    {script : List Step} {i : Nat} (hi : script.length ≤ i) :
    entriesOf (simulate policy interval now script).trace i = [] := by
  rw [entriesOf, List.filter_eq_nil_iff]
  intro e he
  have hnumber := (step_of_mem_trace he).2
  simp only [beq_iff_eq]
  omega

/-- Every entry belongs to a step. -/
theorem mem_entriesOf {policy : BroadcastPolicy} {interval : Duration} {now : Instant}
    {script : List Step} {e : TraceEntry} (he : e ∈ (simulate policy interval now script).trace) :
    ∃ i, e ∈ entriesOf (simulate policy interval now script).trace i := by
  have hnumber := (step_of_mem_trace he).1
  refine ⟨e.step - 1, List.mem_filter.mpr ⟨he, ?_⟩⟩
  rw [Nat.sub_add_cancel hnumber]
  exact beq_self_eq_true _

end PageRefresh.Script
