import PageRefresh.Proofs.Script.Chronicle
import PageRefresh.Proofs.Session.Tidy

/-!
A page visit does not depend on what came before it.

Entering a page is a new start: from then on the steps before it show in nothing but the numbers by
which pollers and steps are counted (`Renews`).  Every step keeps this, so what a script writes from
a page on is what the rest of it writes on its own.
-/

namespace PageRefresh.Script

/-- The entry with `count` more steps before it. -/
def TraceEntry.delay (count : Nat) (e : TraceEntry) : TraceEntry :=
  { e with step := e.step + count }

/-- The refresher with `count` more pollers before it. -/
def Participant.delay (count : Nat) : Participant → Participant
  | poller i => poller (i + count)
  | faulty name => faulty name

namespace Past

/-- What `long` comes to is what `short` comes to, with `made` more pollers and `taken` more steps
before it. -/
structure Renews (policy : BroadcastPolicy) (made taken : Nat) (long short : Past) : Prop where
  length : long.length = short.length + taken
  names : (names long).length = (names short).length + made
  registered : registered long = (registered short).map (Participant.delay made)
  roll : roll long = roll short
  main : main? long = (main? short).map fun e => (e.1 + made, e.2)
  newest : ∀ name, newest? name long = (newest? name short).map (· + made)
  depth : depth long = depth short
  told : ∀ i, told? policy (i + made) long = told? policy i short
  completed : ∀ i, completed policy (i + made) long = completed policy i short
  waiting : ∀ i, (waiting policy (i + made) long).length = (waiting policy i short).length
  page : page? long = page? short

namespace Renews

variable {policy : BroadcastPolicy} {made taken : Nat} {long short : Past}

/-- Entering a page is a new start. -/
theorem start (policy : BroadcastPolicy) (name : String) (earlier : Past) :
    Renews policy (Past.names earlier).length earlier.length (.named .page name :: earlier)
      [.named .page name] where
  length := by simp [Nat.add_comm]
  names := by simp [Past.names, Step.makes?]
  registered := rfl
  roll := rfl
  main := rfl
  newest _ := rfl
  depth := rfl
  told i := (nothing_before policy (Nat.le_add_left _ i)).1
  completed i := (nothing_before policy (Nat.le_add_left _ i)).2.1
  waiting i := congrArg List.length (nothing_before policy (Nat.le_add_left _ i)).2.2
  page := rfl

/-! ## What a step does to both -/

theorem broadcast? (hrenews : Renews policy made taken long short) (step : Step) :
    long.broadcast? step = short.broadcast? step := by
  cases step with
  | named verb name => rfl
  | bare verb => cases verb <;> simp [Past.broadcast?, hrenews.depth]

theorem mem_reached (hrenews : Renews policy made taken long short) (i : Nat) :
    .poller (i + made) ∈ long.reached policy ↔ .poller i ∈ short.reached policy := by
  have hreached : long.reached policy = (short.reached policy).map (Participant.delay made) := by
    rw [reached, reached, hrenews.registered]
    cases policy with
    | isolate => rfl
    | abort =>
        rw [reachedOf, reachedOf, List.takeWhile_map]
        congr 2
        funext x
        cases x <;> rfl
  rw [hreached, List.mem_map]
  constructor
  · rintro ⟨x, hx, hdelay⟩
    cases x with
    | faulty name => contradiction
    | poller j =>
        have hij : j + made = i + made := Participant.poller.inj hdelay
        rwa [← Nat.add_right_cancel hij]
  · exact fun hmem => ⟨.poller i, hmem, rfl⟩

theorem completes? (hrenews : Renews policy made taken long short) (step : Step) :
    long.completes? policy step = (short.completes? policy step).map (· + made) := by
  cases step with
  | bare verb => rfl
  | named verb name =>
      cases verb with
      | cycle =>
          rw [Past.completes?, Past.completes?, hrenews.newest]
          cases short.newest? name with
          | none => rfl
          | some i =>
              simp only [Option.map_some, Option.filter_some, hrenews.told]
              split <;> rfl
      | _ => rfl

theorem queues? (hrenews : Renews policy made taken long short) (step : Step) :
    long.queues? step = (short.queues? step).map (· + made) := by
  cases step with
  | bare verb => rfl
  | named verb name =>
      cases verb with
      | after =>
          rw [Past.queues?, Past.queues?, hrenews.main]
          cases short.main? with
          | none => rfl
          | some main =>
              simp only [Option.map_some, Option.bind_some]
              split <;> rfl
      | _ => rfl

theorem completes?_iff (hrenews : Renews policy made taken long short) (step : Step) (i : Nat) :
    long.completes? policy step = some (i + made) ↔ short.completes? policy step = some i := by
  simp [hrenews.completes?]

theorem queues?_iff (hrenews : Renews policy made taken long short) (step : Step) (i : Nat) :
    long.queues? step = some (i + made) ↔ short.queues? step = some i := by
  simp [hrenews.queues?]

/-- Whatever is done next, nothing more shows of the steps before. -/
theorem next (hrenews : Renews policy made taken long short) (step : Step) :
    Renews policy made taken (step :: long) (step :: short) where
  length := by
    rw [List.length_cons, List.length_cons, hrenews.length]
    omega
  names := by
    rw [Past.names, Past.names, List.length_append, List.length_append, hrenews.names]
    omega
  registered := by
    have hregisters : step.registers? (Past.names long).length =
        (step.registers? (Past.names short).length).map (Participant.delay made) := by
      rw [hrenews.names]
      cases step with
      | bare verb => rfl
      | named verb name => cases verb <;> rfl
    rw [Past.registered, Past.registered, hrenews.registered, hregisters]
    split
    · rfl
    · rw [List.map_append]
      cases step.registers? (Past.names short).length <;> rfl
  roll := by rw [roll_cons, roll_cons, hrenews.roll]
  main := by
    cases step with
    | bare verb =>
        cases verb with
        | clear => rfl
        | _ => exact hrenews.main
    | named verb name =>
        cases verb with
        | page => rfl
        | main =>
            rw [main?, main?, hrenews.names]
            rfl
        | _ => exact hrenews.main
  newest name := by
    rw [newest?, newest?, hrenews.newest, hrenews.names]
    split
    · rfl
    · split <;> rfl
  depth := by
    cases step with
    | bare verb => cases verb <;> simp [Past.depth, hrenews.depth]
    | named verb name => cases verb <;> simp [Past.depth, hrenews.depth]
  told i := by
    rw [told?, told?, hrenews.broadcast?, hrenews.told]
    simp only [hrenews.mem_reached]
  completed i := by
    rw [Past.completed, Past.completed, hrenews.completed]
    simp only [hrenews.completes?_iff]
  waiting i := by
    rw [Past.waiting, Past.waiting]
    simp only [hrenews.completes?_iff, hrenews.queues?_iff]
    split
    · rfl
    · split
      · simp [hrenews.waiting]
      · exact hrenews.waiting i
  page := by
    cases step with
    | bare verb => exact hrenews.page
    | named verb name =>
        cases verb with
        | page => rfl
        | _ => exact hrenews.page

/-! ## What a step writes in both -/

theorem aborts? (hrenews : Renews policy made taken long short) (step : Step) :
    long.aborts? policy step = short.aborts? policy step := by
  rw [Past.aborts?, Past.aborts?, hrenews.broadcast?, hrenews.roll]

theorem fault? (hrenews : Renews policy made taken long short) (step : Step) :
    long.fault? policy step = short.fault? policy step := by
  cases step with
  | named verb name =>
      cases verb with
      | cycle =>
          simp only [Past.fault?, hrenews.newest]
          cases short.newest? name with
          | none => rfl
          | some i => simp only [Option.map_some, hrenews.told]
      | _ => exact hrenews.aborts? _
  | bare verb =>
      cases verb with
      | modalClose => simp only [Past.fault?, hrenews.depth, hrenews.aborts?]
      | _ => exact hrenews.aborts? _

theorem callEntries (hrenews : Renews policy made taken long short) (interval : Duration)
    (step : Step) :
    long.callEntries policy interval step =
      (short.callEntries policy interval step).map (TraceEntry.delay taken) := by
  rw [Past.callEntries, Past.callEntries, hrenews.broadcast?, hrenews.roll, hrenews.length]
  cases short.broadcast? step with
  | none => rfl
  | some kind => simp [TraceEntry.delay, Member.entry, Nat.add_right_comm]

theorem closingEntries (hrenews : Renews policy made taken long short) (step : Step) :
    long.closingEntries step = (short.closingEntries step).map (TraceEntry.delay taken) := by
  have hmodal :
      long.modalRecord? step = (short.modalRecord? step).map (TraceEntry.delay taken) := by
    cases step with
    | named verb name => rfl
    | bare verb => cases verb <;> simp [modalRecord?, hrenews.broadcast?, hrenews.length,
        hrenews.depth, TraceEntry.delay, modalEntry, Nat.add_right_comm]
  rw [Past.closingEntries, Past.closingEntries, hmodal, hrenews.broadcast?, hrenews.roll,
    hrenews.length, List.map_append]
  congr 1
  · cases short.modalRecord? step <;> rfl
  · cases short.broadcast? step with
    | none => rfl
    | some kind => simp [TraceEntry.delay, summaryEntry, Nat.add_right_comm]

theorem writes (hrenews : Renews policy made taken long short) (interval : Duration)
    (step : Step) :
    long.writes policy interval step =
      (short.writes policy interval step).map (TraceEntry.delay taken) := by
  have hstep : long.length + 1 = short.length + 1 + taken := by
    rw [hrenews.length]
    omega
  cases step with
  | named verb name =>
      cases verb with
      | after =>
          simp only [Past.writes, hstep, hrenews.main]
          cases short.main? with
          | none => rfl
          | some main =>
              simp only [Option.map_some]
              split <;> rfl
      | cycle =>
          simp only [Past.writes, hstep, hrenews.completes?]
          cases short.completes? policy (.named .cycle name) with
          | none => rfl
          | some i =>
              simp only [Option.map_some, hrenews.waiting, hrenews.completed]
              simp [TraceEntry.delay, Simulation.callbackEntry, Simulation.cycleEntry]
      | _ =>
          simp only [Past.writes, hstep]
          rfl
  | bare verb =>
      cases verb with
      | clear =>
          simp only [Past.writes, hstep, hrenews.roll]
          rfl
      | _ =>
          simp only [Past.writes, hrenews.callEntries, hrenews.fault?, hrenews.closingEntries]
          split <;> simp

/-- What a step writes is the same in both, but for its number. -/
theorem entries (hrenews : Renews policy made taken long short) (interval : Duration)
    (step : Step) :
    long.entries policy interval step =
      (short.entries policy interval step).map (TraceEntry.delay taken) := by
  rw [Past.entries, Past.entries, hrenews.writes, hrenews.fault?, List.map_append]
  congr 1
  cases short.fault? policy step with
  | none => rfl
  | some e => simp [errorEntry, TraceEntry.delay, hrenews.length, Nat.add_right_comm]

end Renews

/-- From a page on, the chronicle is that of the page and of what comes after it. -/
theorem chronicle_page (policy : BroadcastPolicy) (interval : Duration) (name : String)
    (later earlier : Past) :
    ∃ made, Renews policy made earlier.length (later ++ .named .page name :: earlier)
        (later ++ [.named .page name]) ∧
      chronicle policy interval (later ++ .named .page name :: earlier) =
        chronicle policy interval earlier ++
          (chronicle policy interval (later ++ [.named .page name])).map
            (TraceEntry.delay earlier.length) := by
  refine ⟨(names earlier).length, ?_⟩
  -- At the page itself both are new starts, and every later step keeps them in line.
  induction later with
  | nil =>
      refine ⟨Renews.start policy name earlier, ?_⟩
      simp only [List.nil_append, chronicle, entries, writes, fault?, aborts?, broadcast?]
      simp [TraceEntry.delay, Nat.add_comm]
  | cons step later ih =>
      obtain ⟨hrenews, hchronicle⟩ := ih
      refine ⟨hrenews.next step, ?_⟩
      rw [List.cons_append, List.cons_append, chronicle, chronicle, hchronicle,
        hrenews.entries interval step, List.map_append, List.append_assoc]

end Past

/-! ## Visits -/

/-- What a script writes from a page on, and what it comes to, is what the rest of it writes and
comes to on its own. -/
theorem outcome_of_visit (policy : BroadcastPolicy) (interval : Duration) (now now' : Instant)
    (name : String) (before after : List Step) (steps steps' : Nat) :
    let visit := (simulate policy interval now' (.named .page name :: after)).outcome steps'
    (simulate policy interval now (before ++ .named .page name :: after)).outcome steps =
      { visit with
        steps := steps
        trace := (simulate policy interval now before).trace ++
          visit.trace.map (TraceEntry.delay before.length) } := by
  intro visit
  obtain ⟨made, hrenews, hchronicle⟩ :=
    Past.chronicle_page policy interval name after.reverse before.reverse
  have hbefore : (simulate policy interval now before).trace =
      Past.chronicle policy interval before.reverse :=
    congrArg Outcome.trace (simulate_outcome policy interval now before 0)
  have hwhole : (before ++ .named .page name :: after).reverse =
      after.reverse ++ .named .page name :: before.reverse := by simp
  have hvisit : visit = _ :=
    simulate_outcome policy interval now' (.named .page name :: after) steps'
  rw [simulate_outcome, hvisit, hwhole, List.reverse_cons, hchronicle, hrenews.roll, hrenews.page,
    hbefore, List.length_reverse]

/-- From its page on, which comes after so many steps, a simulation is what the visit is. -/
structure Outcome.Repeats (whole visit : Outcome) (count : Nat) : Prop where
  /-- The entries of the page and of what comes after it are the same but for their numbers. -/
  entries : whole.trace.filter (count < ·.step) = visit.trace.map (TraceEntry.delay count)
  policy : whole.policy = visit.policy
  intervalSecs : whole.intervalSecs = visit.intervalSecs
  registered : whole.registered = visit.registered
  page : whole.page = visit.page

/-- Nothing of what came before shows in a page visit: neither in what a script writes from the page
on, nor in what it comes to, nor in the page shell that a session enters the page with. -/
theorem visit_independent_of_past (policy : BroadcastPolicy) (name : String) :
    (∀ (interval : Duration) (now now' : Instant) (before after : List Step),
      let script := before ++ .named .page name :: after
      let alone := .named .page name :: after
      let whole := (simulate policy interval now script).outcome script.length
      let visit := (simulate policy interval now' alone).outcome alone.length
      whole.Repeats visit before.length) ∧
    ∀ play : Session.Play,
      let shell := ((Session.Machine.new policy).played play).world.shell
      shell.enterPage name =
        { (Shell.empty policy : Shell Session.Refresher).enterPage name with
          visit := some shell.visits, visits := shell.visits + 1 } := by
  refine ⟨?_, fun play => Session.Machine.played_enterPage policy play name⟩
  intro interval now now' before after script alone whole visit
  have houtcome : whole = _ :=
    outcome_of_visit policy interval now now' name before after script.length alone.length
  refine ⟨?_, by rw [houtcome], by rw [houtcome], by rw [houtcome], by rw [houtcome]⟩
  have hnone :
      (simulate policy interval now before).trace.filter (before.length < ·.step) = [] := by
    rw [List.filter_eq_nil_iff]
    intro e he
    simpa using (step_of_mem_trace he).2
  have hall : ∀ e ∈ visit.trace.map (TraceEntry.delay before.length), before.length < e.step := by
    intro e he
    obtain ⟨e', he', rfl⟩ := List.mem_map.mp he
    have hpos : 0 < e'.step := (step_of_mem_trace he').1
    exact Nat.lt_add_of_pos_left hpos
  rw [houtcome]
  simp only [List.filter_append, hnone, List.nil_append]
  exact List.filter_eq_self.mpr fun e he => decide_eq_true (hall e he)

end PageRefresh.Script
