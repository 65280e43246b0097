import PageRefresh.Proofs.Session.Deadline
import PageRefresh.Proofs.Session.Ledger

/-!
Where a broadcast stands.

In an orderly play a broadcast under way lies on the agenda as one task, and the pollers that it has
called so far are told apart from those that it has not (`Stage`).  All that a turn can do with a
broadcast is to begin it, call the next refresher, take in an answer or end it (`Advance`), and each
of these moves the stage on and the pollers with it (`AtStage.turn`).
-/

namespace PageRefresh

/-- A broadcast goes on with a report of its kind, and under one policy only after a success. -/
theorem Report.settle_ok {r next : Report} {policy : BroadcastPolicy} {fragment : Option String}
    {outcome : Except RefreshError Unit} (hnext : r.settle policy fragment outcome = .ok next) :
    next.kind = r.kind ∧ (policy = .abort → outcome.isOk = true) := by
  cases outcome with
  | ok value =>
      obtain rfl := Except.ok.inj hnext
      exact ⟨rfl, fun _ => rfl⟩
  | error e =>
      cases policy with
      | isolate =>
          obtain rfl := Except.ok.inj hnext
          exact ⟨rfl, fun habort => by contradiction⟩
      | abort => contradiction

theorem Report.settle_error {r : Report} {policy : BroadcastPolicy} {fragment : Option String}
    {outcome : Except RefreshError Unit} {e : RefreshError}
    (hends : r.settle policy fragment outcome = .error e) :
    policy = .abort ∧ outcome.isOk = false := by
  cases outcome with
  | ok value => contradiction
  | error e' =>
      cases policy with
      | isolate => contradiction
      | abort => exact ⟨rfl, rfl⟩

namespace Session

/-! ## Tasks beside a broadcast -/

/-- None of these tasks is a broadcast under way. -/
def Aside (tasks : List Task) : Prop :=
  ∀ task ∈ tasks, task.isBroadcast = false

theorem aside_nil : Aside [] := by
  simp [Aside]

theorem aside_cons {task : Task} {tasks : List Task} :
    Aside (task :: tasks) ↔ task.isBroadcast = false ∧ Aside tasks :=
  List.forall_mem_cons

theorem aside_append {first second : List Task} :
    Aside (first ++ second) ↔ Aside first ∧ Aside second :=
  List.forall_mem_append

theorem aside_program (body : List Command) : Aside (program body) := by
  simp [Aside, program, Task.isBroadcast]

theorem Machine.idle_iff {m : Machine} : m.idle = true ↔ Aside m.agenda := by
  simp [idle, Aside]

namespace World

theorem after_aside (w : World) (fragment : String) (callback : Callback) (r : Refresher) :
    Aside (w.after fragment callback r).2 := by
  cases r with
  | noop => simp [after, Aside, Task.isBroadcast]
  | scripted script => cases hruns : script.runsCallbacks <;> simp [after, hruns, Aside,
      Task.isBroadcast]
  | poller i =>
      cases hp : w.pollers[i]? with
      | none => simp [after, hp, Aside]
      | some p => cases howns : p.owns fragment <;> simp [after, hp, howns, Aside,
          Task.isBroadcast]

theorem call_aside (w : World) (now : Instant) (kind : BroadcastKind) (r : Refresher) :
    Aside (w.call now kind r).2.1 := by
  cases r with
  | noop => exact aside_nil
  | scripted script => exact aside_program _
  | poller i => cases hp : w.pollers[i]? <;> cases kind <;> simp [call, hp, Aside]

/-- A poller that is there is told what the broadcast says. -/
theorem callAct_order? {w : World} {r : Refresher} (hknown : r.Known w.pollers.length)
    (kind : BroadcastKind) (i : Nat) :
    (w.callAct kind r).order? i = if r.isPoller i then some kind.runState else none := by
  cases r with
  | noop => rfl
  | scripted script => rfl
  | poller j =>
      have hp : w.pollers[j]? = some w.pollers[j] := List.getElem?_eq_getElem hknown
      cases kind <;> simp [callAct, hp, Act.order?, Refresher.isPoller, BroadcastKind.runState]

/-- Pollers do not fail. -/
theorem call_fails (w : World) (now : Instant) (kind : BroadcastKind) (r : Refresher)
    (hfails : (w.call now kind r).2.2.isOk = false) (i : Nat) : r.isPoller i = false := by
  cases r with
  | noop => rfl
  | scripted script => rfl
  | poller j =>
      cases hp : w.pollers[j]? <;> cases kind <;> simp [call, hp, Except.isOk, Except.toBool]
        at hfails

theorem handOver_aside (w : World) (asker : Asker) (fragment : String) (callback : Callback)
    (r : Refresher) : Aside (w.handOver asker fragment callback r).2 := by
  simp [handOver, aside_append, w.after_aside fragment callback r, aside_cons, aside_nil,
    Task.isBroadcast]

theorem callAlone_aside (w : World) (now : Instant) (asker : Asker) (kind : BroadcastKind)
    (r : Refresher) : Aside (w.callAlone now asker kind r).2 := by
  simp [callAlone, aside_append, w.call_aside now kind r, aside_cons, aside_nil, Task.isBroadcast]

/-- An operation begins a broadcast to everybody who is registered, or none at all. -/
theorem begin_broadcast (w : World) (now : Instant) (asker : Asker) (c : Command) :
    (∃ cause kind, (w.begin now asker c).2 =
        [.broadcasting asker cause (.start kind) w.shell.registry.entries] ∧
      w.commandAct c = .quiet) ∨
      Aside (w.begin now asker c).2 := by
  cases c with
  | broadcast kind => exact .inl ⟨.command, kind, rfl, rfl⟩
  | openModal =>
      simp only [begin, openModal]
      split
      · rename_i kind _
        exact .inl ⟨.modal, kind, rfl, rfl⟩
      · exact .inr aside_nil
  | closeModal =>
      simp only [begin, closeModal]
      split
      · exact .inr aside_nil
      · split
        · rename_i kind _
          exact .inl ⟨.modal, kind, rfl, rfl⟩
        · exact .inr aside_nil
  | add id =>
      exact .inr (withRefresher_elim (P := fun r => Aside r.2) (fun _ => aside_nil) aside_nil)
  | addMain id =>
      exact .inr (withRefresher_elim (P := fun r => Aside r.2) (fun _ => aside_nil) aside_nil)
  | afterMain fragment callback => exact .inr (w.handOver_aside asker fragment callback w.main)
  | callMain kind => exact .inr (w.callAlone_aside now asker kind w.main)
  | after id fragment callback =>
      exact .inr (withRefresher_elim (P := fun r => Aside r.2)
        (w.handOver_aside asker fragment callback) aside_nil)
  | call kind id =>
      exact .inr (withRefresher_elim (P := fun r => Aside r.2)
        (w.callAlone_aside now asker kind) aside_nil)
  | cycle id fragment =>
      right
      apply withPoller_elim (P := fun r => Aside r.2) ?_ aside_nil
      intro i p
      split
      · exact aside_nil
      · simp [Aside, Task.isBroadcast]
  | query id fragment =>
      exact .inr (withPoller_elim (P := fun r => Aside r.2) (fun _ _ => aside_nil) aside_nil)
  | due id offset =>
      exact .inr (withPoller_elim (P := fun r => Aside r.2) (fun _ _ => aside_nil) aside_nil)
  | _ => exact .inr aside_nil

end World

theorem begunBy_aside {tasks : List Task} (haside : Aside tasks) : begunBy tasks = none := by
  unfold begunBy
  split
  · simp [Aside, Task.isBroadcast] at haside
  · rfl

/-! ## Where a broadcast stands -/

/-- The task is the broadcast of the entry, which has called the refreshers in `done`. -/
def Entry.At (policy : BroadcastPolicy) (e : Entry) (done : List Refresher) : Task → Prop
  | .broadcasting _ _ report rest =>
      report.kind = e.broadcast.kind ∧ e.broadcast.entries = done ++ rest ∧
        e.outcomes.length = done.length ∧
          (policy = .abort → ∀ outcome ∈ e.outcomes, outcome.isOk = true)
  | .settling _ _ report called outcome rest =>
      report.kind = e.broadcast.kind ∧ e.broadcast.entries = done ++ rest ∧
        (∃ before, done = before ++ [called] ∧ e.outcomes.length = before.length) ∧
          (policy = .abort → ∀ outcome ∈ e.outcomes, outcome.isOk = true) ∧
            (outcome.isOk = false → ∀ i, called.isPoller i = false)
  | _ => False

/-- What pollers are told by a broadcast that has called the refreshers in `done`, on top of what
they were told before. -/
def Entry.telling (e : Entry) (done : List Refresher) (before : Nat → RunState) (i : Nat) :
    RunState :=
  if done.any (·.isPoller i) then e.broadcast.kind.runState else before i

/-- What pollers have been told so far, with this ledger and this agenda. -/
inductive Stage (policy : BroadcastPolicy) (ledger : Ledger) (agenda : List Task) :
    (Nat → RunState) → Prop where
  | idle (haside : Aside agenda) : Stage policy ledger agenda (ledger.told policy)
  | underway {e : Entry} {earlier : Ledger} {above : List Task} {task : Task} {below : List Task}
      {done : List Refresher} (hledger : ledger = e :: earlier)
      (hagenda : agenda = above ++ task :: below) (habove : Aside above) (hbelow : Aside below)
      (hat : e.At policy done task) :
      Stage policy ledger agenda (e.telling done (earlier.told policy))

namespace Entry

variable {policy : BroadcastPolicy} {e : Entry} {done : List Refresher} {task : Task}

theorem At.isBroadcast (hat : e.At policy done task) : task.isBroadcast = true := by
  cases task with
  | broadcasting asker cause report rest => rfl
  | settling asker cause report called outcome rest => rfl
  | _ => exact hat.elim

theorem At.subset (hat : e.At policy done task) : done ⊆ e.broadcast.entries := by
  cases task with
  | broadcasting asker cause report rest =>
      obtain ⟨-, hentries, -⟩ := hat
      simp [hentries]
  | settling asker cause report called outcome rest =>
      obtain ⟨-, hentries, -⟩ := hat
      simp [hentries]
  | _ => exact hat.elim

theorem telling_concat (e : Entry) (done : List Refresher) (r : Refresher)
    (before : Nat → RunState) (i : Nat) :
    e.telling (done ++ [r]) before i =
      if r.isPoller i then e.broadcast.kind.runState else e.telling done before i := by
  by_cases hcalled : r.isPoller i = true
  · simp [telling, hcalled]
  · simp only [telling, List.any_append, List.any_cons, List.any_nil, hcalled, Bool.or_false,
      Bool.false_eq_true, ↓reduceIte]

/-- A broadcast in which nobody fails, or no failure ends it, reaches everybody. -/
theorem reached_over (hentries : e.broadcast.entries = done)
    (hlength : e.outcomes.length = done.length)
    (hok : policy = .abort → ∀ outcome ∈ e.outcomes, outcome.isOk = true) :
    e.reached policy = done := by
  cases policy with
  | isolate => exact hentries
  | abort =>
      have hall : e.outcomes.findIdx (fun outcome => !outcome.isOk) = e.outcomes.length := by
        rw [List.findIdx_eq_length]
        simpa using hok rfl
      rw [reached, hall, hlength, hentries, List.take_length]

/-- A broadcast that a failure ends reaches those that were called before. -/
theorem reached_cut {before rest : List Refresher} {outcomes : List (Except RefreshError Unit)}
    {outcome : Except RefreshError Unit} (hentries : e.broadcast.entries = before ++ rest)
    (houtcomes : e.outcomes = outcomes ++ [outcome]) (hlength : outcomes.length = before.length)
    (hok : ∀ outcome ∈ outcomes, outcome.isOk = true) (hfails : outcome.isOk = false) :
    e.reached .abort = before := by
  have hall : outcomes.findIdx (fun outcome => !outcome.isOk) = outcomes.length := by
    rw [List.findIdx_eq_length]
    simpa using hok
  have hcut : e.outcomes.findIdx (fun outcome => !outcome.isOk) = before.length := by
    rw [houtcomes, List.findIdx_append, hall]
    simp [hfails, hlength]
  rw [reached, hcut, hentries, List.take_left]

/-- When a broadcast is over, it has told those whom it reached. -/
theorem told_eq_telling {earlier : Ledger} (hreached : e.reached policy = done) :
    Ledger.told policy (e :: earlier) = e.telling done (earlier.told policy) := by
  funext i
  rw [Ledger.told_cons, reaches, hreached, telling]

end Entry

namespace Stage

variable {policy : BroadcastPolicy} {ledger : Ledger} {orders : Nat → RunState}

/-- Nobody has told a poller anything that is not there yet. -/
theorem running_of_length_le {agenda : List Task} {count i : Nat}
    (hstage : Stage policy ledger agenda orders)
    (hknown : ∀ e ∈ ledger, ∀ r ∈ e.broadcast.entries, r.Known count) (hi : count ≤ i) :
    orders i = .running := by
  rcases hstage with _ | ⟨hledger, -, -, -, hat⟩
  · exact Ledger.told_of_length_le hknown hi
  · rename_i e earlier above task below done
    subst hledger
    obtain ⟨he, hearlier⟩ := List.forall_mem_cons.mp hknown
    have hcalled : done.any (·.isPoller i) = false := by
      rw [List.any_eq_false]
      intro r hr hpoller
      obtain rfl := Refresher.eq_of_isPoller hpoller
      exact Nat.not_lt.mpr hi (he _ (hat.subset hr))
    rw [Entry.telling, hcalled]
    exact Ledger.told_of_length_le hearlier hi

/-- While no broadcast is under way, the ledger says it all. -/
theorem eq_told {agenda : List Task} (hstage : Stage policy ledger agenda orders)
    (haside : Aside agenda) : orders = ledger.told policy := by
  rcases hstage with _ | ⟨hledger, hagenda, -, -, hat⟩
  · rfl
  · have htask := haside _ (by rw [hagenda]; exact List.mem_append_cons_self)
    rw [hat.isBroadcast] at htask
    contradiction

/-- Other tasks come and go on top of a broadcast. -/
theorem aside {old new rest : List Task} (hstage : Stage policy ledger (old ++ rest) orders)
    (hold : Aside old) (hnew : Aside new) : Stage policy ledger (new ++ rest) orders := by
  rcases hstage with haside | ⟨hledger, hagenda, habove, hbelow, hat⟩
  · exact .idle (aside_append.mpr ⟨hnew, (aside_append.mp haside).2⟩)
  · rename_i e earlier above task below done
    rcases List.append_eq_append_iff.mp hagenda with ⟨more, rfl, hrest⟩ | ⟨more, hmore, hrest⟩
    · rw [hrest]
      refine .underway hledger (List.append_assoc _ _ _).symm ?_ hbelow hat
      exact aside_append.mpr ⟨hnew, (aside_append.mp habove).2⟩
    · rcases more with _ | ⟨first, more⟩
      · obtain rfl : task :: below = rest := hrest
        exact .underway hledger rfl hnew hbelow hat
      · obtain ⟨rfl, -⟩ := List.cons.inj hrest
        have hfirst : task.isBroadcast = false := hold task (by simp [hmore])
        rw [hat.isBroadcast] at hfirst
        contradiction

/-- A broadcast on top of the agenda is that of the newest entry. -/
theorem of_broadcast {task : Task} {rest : List Task}
    (hstage : Stage policy ledger (task :: rest) orders) (htask : task.isBroadcast = true) :
    ∃ (e : Entry) (earlier : Ledger) (done : List Refresher), ledger = e :: earlier ∧
      Aside rest ∧ e.At policy done task ∧ orders = e.telling done (earlier.told policy) := by
  rcases hstage with haside | ⟨hledger, hagenda, habove, hbelow, hat⟩
  · rw [(aside_cons.mp haside).1] at htask
    contradiction
  · rename_i e earlier above task' below done
    rcases above with _ | ⟨first, above⟩
    · obtain ⟨rfl, rfl⟩ := List.cons.inj hagenda
      exact ⟨e, earlier, done, hledger, hbelow, hat, rfl⟩
    · obtain ⟨rfl, -⟩ := List.cons.inj hagenda
      rw [(aside_cons.mp habove).1] at htask
      contradiction

end Stage

/-! ## Pollers do as they are told -/

/-- An act changes the state of a poller by what it tells it. -/
theorem Act.state_eq {a : Act} {pollers : List (Poller Callback)} {now : Instant} {i : Nat}
    {p : Poller Callback} (hpossible : a.Possible pollers) (hp : pollers[i]? = some p) :
    (a.onPoller now i p).state = (a.order? i).getD p.state := by
  cases a with
  | made j fragments interval =>
      have hji : j ≠ i := by
        rintro rfl
        exact ne_made hpossible hp rfl
      simp [onPoller, order?, hji]
  | stopped j => by_cases hij : i = j <;> simp [onPoller, order?, hij, Poller.stop, eq_comm]
  | restarted j => by_cases hij : i = j <;> simp [onPoller, order?, hij, Poller.restart, eq_comm]
  | queued j fragment callback =>
      by_cases hij : i = j <;> simp [onPoller, order?, hij, Poller.enqueue]
  | began j fragment => by_cases hij : i = j <;> simp [onPoller, order?, hij, Poller.completed]
  | _ => rfl

namespace Machine

/-- The pollers are in the states that these orders name. -/
def Follows (m : Machine) (orders : Nat → RunState) : Prop :=
  ∀ i p, m.world.pollers[i]? = some p → p.state = orders i

theorem Follows.turn {m : Machine} {orders : Nat → RunState} (hfollows : m.Follows orders)
    (now : Instant) (t : Turn) :
    (m.turn now t).Follows fun i => ((m.turnAct t).order? i).getD (orders i) := by
  obtain ⟨hpossible, hpollers⟩ := m.turn_pollers now t
  intro i p hp
  rw [hpollers] at hp
  cases hq : m.world.pollers[i]? with
  | none =>
      obtain ⟨fragments, interval, hact, rfl⟩ := Act.made_of_getElem?_onPollers hpossible hq hp
      simp [hact, Act.order?, Poller.start]
  | some q =>
      rw [Act.getElem?_onPollers hq, Option.some.injEq] at hp
      rw [← hp, Act.state_eq hpossible hq, hfollows i q hq]

/-- Turns that tell pollers nothing, except that a new one runs, leave their orders in force. -/
theorem Follows.turn_aside {m : Machine} {t : Turn} {orders : Nat → RunState} (now : Instant)
    (hfollows : m.Follows orders) (hnew : ∀ i, m.world.pollers.length ≤ i → orders i = .running)
    (hact : ∀ i, m.turnAct t ≠ .stopped i ∧ m.turnAct t ≠ .restarted i) :
    (m.turn now t).Follows orders := by
  intro i p hp
  rw [hfollows.turn now t i p hp]
  have hpossible := (m.turn_pollers now t).1
  cases ha : m.turnAct t with
  | made j fragments interval =>
      by_cases hji : j = i
      · subst hji
        rw [ha] at hpossible
        simp [Act.order?, hnew j (Nat.le_of_eq hpossible.symm)]
      · simp [Act.order?, hji]
  | stopped j => exact absurd ha (hact j).1
  | restarted j => exact absurd ha (hact j).2
  | _ => rfl

/-! ## Every turn moves the stage on -/

/-- The pollers are as a stage of the broadcasts in the ledger says. -/
def AtStage (policy : BroadcastPolicy) (m : Machine) (ledger : Ledger) : Prop :=
  ∃ orders, Stage policy ledger m.agenda orders ∧ m.Follows orders

/-- What the account of broadcasts takes for granted. -/
structure Grounds (policy : BroadcastPolicy) (m : Machine) (ledger : Ledger) : Prop where
  policy : m.world.policy = policy
  known : m.world.Known
  entries : ∀ e ∈ ledger, ∀ r ∈ e.broadcast.entries, r.Known m.world.pollers.length

variable {policy : BroadcastPolicy} {m : Machine} {ledger : Ledger} {now : Instant} {t : Turn}

theorem begun?_entries {b : Broadcast} (hbegun : m.begun? now t = some b) :
    b.entries = m.world.shell.registry.entries := by
  unfold begun? at hbegun
  split at hbegun
  · split at hbegun
    · rename_i asker c rest hagenda
      rcases m.world.begin_broadcast now asker c with ⟨cause, kind, htasks, -⟩ | haside
      · rw [htasks] at hbegun
        rw [← Option.some.inj hbegun]
      · rw [begunBy_aside haside] at hbegun
        contradiction
    · contradiction
  · contradiction

theorem Grounds.turn (hgrounds : Grounds policy m ledger) (now : Instant) (t : Turn) :
    Grounds policy (m.turn now t) (m.enter now t ledger) where
  policy := (m.turn_policy now t).trans hgrounds.policy
  known := turn_known now t hgrounds.known
  entries := by
    have hlength := m.turn_pollers_length now t
    have hbroadcasts := m.enter_broadcasts now t ledger
    intro e he r hr
    have hmem : e.broadcast ∈ (m.begun? now t).toList ++ ledger.map Entry.broadcast := by
      rw [← hbroadcasts]
      exact List.mem_map_of_mem he
    rcases List.mem_append.mp hmem with hbegun | hold
    · rw [begun?_entries (Option.mem_toList.mp hbegun)] at hr
      exact (hgrounds.known.registry.entries r hr).mono hlength
    · obtain ⟨e', he', hsame⟩ := List.mem_map.mp hold
      rw [← hsame] at hr
      exact (hgrounds.entries e' he' r hr).mono hlength

/-- Turns that tell pollers nothing leave the orders of the stage in force. -/
theorem Grounds.follows {orders : Nat → RunState} (now : Instant)
    (hgrounds : Grounds policy m ledger) (hstage : Stage policy ledger m.agenda orders)
    (hfollows : m.Follows orders)
    (hact : ∀ i, m.turnAct t ≠ .stopped i ∧ m.turnAct t ≠ .restarted i) :
    (m.turn now t).Follows orders := by
  apply hfollows.turn_aside now ?_ hact
  intro i hi
  exact hstage.running_of_length_le hgrounds.entries hi

/-- A turn beside the broadcasts. -/
theorem AtStage.aside {old new rest : List Task} (hstage : AtStage policy m ledger)
    (hgrounds : Grounds policy m ledger) (hbegun : m.begun? now t = none)
    (hsettled : m.settled? t = none) (hagenda : m.agenda = old ++ rest)
    (hnext : (m.turn now t).agenda = new ++ rest) (hold : Aside old) (hnew : Aside new)
    (hact : ∀ i, m.turnAct t ≠ .stopped i ∧ m.turnAct t ≠ .restarted i) :
    AtStage policy (m.turn now t) (m.enter now t ledger) := by
  obtain ⟨orders, hstage, hfollows⟩ := hstage
  refine ⟨orders, ?_, hgrounds.follows now hstage hfollows hact⟩
  rw [hagenda] at hstage
  rw [hnext, enter_none ledger hbegun hsettled]
  exact hstage.aside hold hnew

/-- A broadcast begins. -/
theorem AtStage.begins {asker : Asker} {c : Command} {cause : Cause} {kind : BroadcastKind}
    {rest : List Task} (hstage : AtStage policy m ledger) (hgrounds : Grounds policy m ledger)
    (hidle : m.idle = true) (hagenda : m.agenda = .command asker c :: rest)
    (htasks : (m.world.begin now asker c).2 =
      [.broadcasting asker cause (.start kind) m.world.shell.registry.entries])
    (hact : m.world.commandAct c = .quiet) :
    AtStage policy (m.turn now (.move .perform)) (m.enter now (.move .perform) ledger) := by
  have haside := idle_iff.mp hidle
  obtain ⟨orders, hstage, hfollows⟩ := hstage
  have hbegun : m.begun? now (.move .perform) =
      some ⟨cause, kind, m.world.shell.registry.entries⟩ := by
    rw [begun?_command now hagenda, htasks]
    rfl
  have hquiet : m.turnAct (.move .perform) = .quiet := by
    rw [turnAct, act_perform hagenda, World.act, hact]
  have hfollows' : (m.turn now (.move .perform)).Follows orders := by
    apply hgrounds.follows now hstage hfollows
    simp [hquiet]
  obtain rfl : orders = ledger.told policy := hstage.eq_told haside
  refine ⟨_, ?_, hfollows'⟩
  rw [enter_begun ledger hbegun, turn, move_perform now hagenda]
  rw [hagenda] at haside
  have hstart : Entry.telling ⟨⟨cause, kind, m.world.shell.registry.entries⟩, []⟩ []
      (ledger.told policy) = ledger.told policy := rfl
  rw [← hstart]
  have hnext : (m.world.perform now (.command asker c)).2 ++ rest =
      [] ++ .broadcasting asker cause (.start kind) m.world.shell.registry.entries :: rest := by
    rw [World.perform, htasks]
    rfl
  exact .underway rfl hnext aside_nil (aside_cons.mp haside).2 ⟨rfl, rfl, rfl, fun _ => by simp⟩

/-- A broadcast calls the next refresher. -/
theorem AtStage.calls {asker : Asker} {cause : Cause} {report : Report} {r : Refresher}
    {left : List Refresher} {rest : List Task} (hstage : AtStage policy m ledger)
    (hgrounds : Grounds policy m ledger)
    (hagenda : m.agenda = .broadcasting asker cause report (r :: left) :: rest) :
    AtStage policy (m.turn now (.move .perform)) (m.enter now (.move .perform) ledger) := by
  obtain ⟨orders, hstage, hfollows⟩ := hstage
  rw [hagenda] at hstage
  obtain ⟨e, earlier, done, rfl, hbelow, ⟨hkind, hentries, hlength, hok⟩, rfl⟩ :=
    hstage.of_broadcast rfl
  have hbegun : m.begun? now (.move .perform) = none := by
    simp [begun?, hagenda]
  have hsettled : m.settled? (.move .perform) = none := by
    simp [settled?, hagenda]
  have hknown : r.Known m.world.pollers.length :=
    hgrounds.entries e (by simp) r (by simp [hentries])
  have hfollows' := hfollows.turn now (.move .perform)
  rw [turnAct, act_perform hagenda, World.act] at hfollows'
  have horders : (fun i => ((m.world.callAct report.kind r).order? i).getD
      (e.telling done (Ledger.told policy earlier) i)) =
        e.telling (done ++ [r]) (Ledger.told policy earlier) := by
    funext i
    rw [World.callAct_order? hknown, Entry.telling_concat, hkind]
    split <;> rfl
  rw [horders] at hfollows'
  refine ⟨_, ?_, hfollows'⟩
  rw [enter_none _ hbegun hsettled, turn, move_perform now hagenda]
  refine .underway rfl (List.append_assoc _ [_] rest) (World.call_aside _ _ _ _) hbelow ?_
  refine ⟨hkind, by simp [hentries], ⟨done, rfl, hlength⟩, hok, ?_⟩
  exact m.world.call_fails now report.kind r

/-- A broadcast has called everybody. -/
theorem AtStage.ends {asker : Asker} {cause : Cause} {report : Report} {rest : List Task}
    (hstage : AtStage policy m ledger) (hgrounds : Grounds policy m ledger)
    (hagenda : m.agenda = .broadcasting asker cause report [] :: rest) :
    AtStage policy (m.turn now (.move .perform)) (m.enter now (.move .perform) ledger) := by
  obtain ⟨orders, hstage, hfollows⟩ := hstage
  have hbegun : m.begun? now (.move .perform) = none := by
    simp [begun?, hagenda]
  have hsettled : m.settled? (.move .perform) = none := by
    simp [settled?, hagenda]
  have hquiet : m.turnAct (.move .perform) = .quiet := by
    rw [turnAct, act_perform hagenda]
    rfl
  have hfollows' : (m.turn now (.move .perform)).Follows orders := by
    apply hgrounds.follows now hstage hfollows
    simp [hquiet]
  rw [hagenda] at hstage
  obtain ⟨e, earlier, done, rfl, hbelow, ⟨-, hentries, hlength, hok⟩, rfl⟩ :=
    hstage.of_broadcast rfl
  rw [List.append_nil] at hentries
  refine ⟨_, ?_, hfollows'⟩
  rw [enter_none _ hbegun hsettled, turn, move_perform now hagenda,
    ← Entry.told_eq_telling (Entry.reached_over hentries hlength hok)]
  exact .idle hbelow

/-- The refresher that a broadcast has just called decides how it answers. -/
theorem AtStage.decides {asker : Asker} {cause : Cause} {report : Report} {script : Script}
    {before outcome : Except RefreshError Unit} {left : List Refresher} {rest : List Task}
    (hstage : AtStage policy m ledger) (hgrounds : Grounds policy m ledger)
    (hagenda : m.agenda = .settling asker cause report (.scripted script) before left :: rest) :
    AtStage policy (m.turn now (.decide outcome)) (m.enter now (.decide outcome) ledger) := by
  obtain ⟨orders, hstage, hfollows⟩ := hstage
  have hfollows' : (m.turn now (.decide outcome)).Follows orders := by
    apply hgrounds.follows now hstage hfollows
    simp [turnAct]
  rw [hagenda] at hstage
  obtain ⟨e, earlier, done, rfl, hbelow, ⟨hkind, hentries, hcalled, hok, -⟩, rfl⟩ :=
    hstage.of_broadcast rfl
  refine ⟨_, ?_, hfollows'⟩
  rw [enter_none _ rfl rfl, turn, hagenda]
  refine .underway rfl rfl aside_nil hbelow ?_
  exact ⟨hkind, hentries, hcalled, hok, fun _ i => rfl⟩

/-- A broadcast takes in the outcome of a call, and goes on or ends. -/
theorem AtStage.settles {asker : Asker} {cause : Cause} {report : Report} {called : Refresher}
    {outcome : Except RefreshError Unit} {left : List Refresher} {rest : List Task}
    (hstage : AtStage policy m ledger) (hgrounds : Grounds policy m ledger)
    (hagenda : m.agenda = .settling asker cause report called outcome left :: rest) :
    AtStage policy (m.turn now (.move .perform)) (m.enter now (.move .perform) ledger) := by
  obtain ⟨orders, hstage, hfollows⟩ := hstage
  have hbegun : m.begun? now (.move .perform) = none := by
    simp [begun?, hagenda]
  have hsettled : m.settled? (.move .perform) = some outcome := by
    simp [settled?, hagenda]
  have hfollows' : (m.turn now (.move .perform)).Follows orders := by
    apply hgrounds.follows now hstage hfollows
    simp [turnAct, act_perform hagenda, World.act]
  rw [hagenda] at hstage
  obtain ⟨e, earlier, done, rfl, hbelow, hat, rfl⟩ := hstage.of_broadcast rfl
  obtain ⟨hkind, hentries, ⟨before, rfl, hlength⟩, hok, hfails⟩ := hat
  refine ⟨_, ?_, hfollows'⟩
  rw [enter_settled _ _ hbegun hsettled, turn, move_perform now hagenda]
  simp only [World.perform, hgrounds.policy]
  cases hreport : report.settle policy (m.world.fragmentOf called) outcome with
  | ok next =>
      obtain ⟨hnext, hgoes⟩ := Report.settle_ok hreport
      refine .underway (e := ⟨e.broadcast, e.outcomes ++ [outcome]⟩) rfl rfl aside_nil hbelow ?_
      refine ⟨hnext.trans hkind, hentries, by simp [hlength], ?_⟩
      intro habort
      simpa [or_imp, forall_and] using ⟨hok habort, hgoes habort⟩
  | error err =>
      obtain ⟨rfl, hfailed⟩ := Report.settle_error hreport
      rw [List.append_assoc] at hentries
      have hreached := Entry.reached_cut (e := ⟨e.broadcast, e.outcomes ++ [outcome]⟩) hentries rfl
        hlength (hok rfl) hfailed
      have htold : e.telling (before ++ [called]) (Ledger.told .abort earlier) =
          Ledger.told .abort (⟨e.broadcast, e.outcomes ++ [outcome]⟩ :: earlier) := by
        rw [Entry.told_eq_telling hreached]
        funext i
        rw [Entry.telling_concat, hfails hfailed i]
        rfl
      rw [htold]
      exact .idle hbelow

/-! ## All that a turn can do -/

/-- What a turn that calls no poller by itself does with the agenda. -/
inductive Advance (m : Machine) (now : Instant) : Turn → Prop where
  | aside {t : Turn} {old new rest : List Task} (hbegun : m.begun? now t = none)
      (hsettled : m.settled? t = none) (hagenda : m.agenda = old ++ rest)
      (hnext : (m.turn now t).agenda = new ++ rest) (hold : Aside old) (hnew : Aside new)
      (hact : ∀ i, m.turnAct t ≠ .stopped i ∧ m.turnAct t ≠ .restarted i) : Advance m now t
  | begins {asker : Asker} {c : Command} {cause : Cause} {kind : BroadcastKind}
      {rest : List Task} (hagenda : m.agenda = .command asker c :: rest)
      (htasks : (m.world.begin now asker c).2 =
        [.broadcasting asker cause (.start kind) m.world.shell.registry.entries])
      (hact : m.world.commandAct c = .quiet) : Advance m now (.move .perform)
  | calls {asker : Asker} {cause : Cause} {report : Report} {r : Refresher}
      {left : List Refresher} {rest : List Task}
      (hagenda : m.agenda = .broadcasting asker cause report (r :: left) :: rest) :
      Advance m now (.move .perform)
  | ends {asker : Asker} {cause : Cause} {report : Report} {rest : List Task}
      (hagenda : m.agenda = .broadcasting asker cause report [] :: rest) :
      Advance m now (.move .perform)
  | decides {asker : Asker} {cause : Cause} {report : Report} {script : Script}
      {before outcome : Except RefreshError Unit} {left : List Refresher} {rest : List Task}
      (hagenda : m.agenda = .settling asker cause report (.scripted script) before left :: rest) :
      Advance m now (.decide outcome)
  | settles {asker : Asker} {cause : Cause} {report : Report} {called : Refresher}
      {outcome : Except RefreshError Unit} {left : List Refresher} {rest : List Task}
      (hagenda : m.agenda = .settling asker cause report called outcome left :: rest) :
      Advance m now (.move .perform)

namespace Advance

/-- A task that is no broadcast, and begins none, is performed. -/
theorem performs {task : Task} {rest : List Task} (hagenda : m.agenda = task :: rest)
    (htask : task.isBroadcast = false) (haside : Aside (m.world.perform now task).2)
    (hact : ∀ i, m.world.act rest.length task ≠ .stopped i ∧
      m.world.act rest.length task ≠ .restarted i) : m.Advance now (.move .perform) := by
  have hbegun : m.begun? now (.move .perform) = none := by
    cases task with
    | command asker c =>
        rw [begun?_command now hagenda]
        exact begunBy_aside haside
    | _ => simp [begun?, hagenda]
  have hsettled : m.settled? (.move .perform) = none := by
    cases task with
    | settling asker cause report called outcome left => contradiction
    | _ => simp [settled?, hagenda]
  have hnext : (m.turn now (.move .perform)).agenda = (m.world.perform now task).2 ++ rest := by
    rw [turn, move_perform now hagenda]
  have hsplit : m.agenda = [task] ++ rest := hagenda
  apply Advance.aside hbegun hsettled hsplit hnext ?_ haside
  · intro i
    rw [turnAct, act_perform hagenda]
    exact hact i
  · exact aside_cons.mpr ⟨htask, aside_nil⟩

/-- The turn leaves the agenda alone, or adds an operation to it. -/
theorem adds {new : List Task} (hbegun : m.begun? now t = none) (hsettled : m.settled? t = none)
    (hnext : (m.turn now t).agenda = new ++ m.agenda) (hnew : Aside new)
    (hact : m.turnAct t = .quiet) : m.Advance now t := by
  have hsplit : m.agenda = [] ++ m.agenda := rfl
  apply Advance.aside hbegun hsettled hsplit hnext aside_nil hnew
  simp [hact]

end Advance

/-- An operation that calls no poller stops and restarts none. -/
theorem commandAct_of_callsPoller {c : Command} (hcommand : m.command? t = some c)
    (hcalls : m.callsPoller t = false) (i : Nat) :
    m.world.commandAct c ≠ .stopped i ∧ m.world.commandAct c ≠ .restarted i := by
  rw [callsPoller, hcommand, Option.map_some] at hcalls
  constructor
  · intro hact
    simp [hact] at hcalls
  · intro hact
    simp [hact] at hcalls

theorem perform_advance (now : Instant) (hcalls : m.callsPoller (.move .perform) = false) :
    m.Advance now (.move .perform) := by
  rcases hagenda : m.agenda with _ | ⟨task, rest⟩
  · have hsame : m.turn now (.move .perform) = m := move_perform_nil now hagenda
    have hnext : (m.turn now (.move .perform)).agenda = [] ++ m.agenda :=
      congrArg Machine.agenda hsame
    apply Advance.adds ?_ ?_ hnext aside_nil ?_
    · simp [begun?, hagenda]
    · simp [settled?, hagenda]
    · simp [turnAct, act, hagenda]
  · cases task with
    | command asker c =>
        have hcommand : m.command? (.move .perform) = some c := by
          simp [command?, hagenda]
        rcases m.world.begin_broadcast now asker c with ⟨cause, kind, htasks, hquiet⟩ | haside
        · exact .begins hagenda htasks hquiet
        · exact .performs hagenda rfl haside (commandAct_of_callsPoller hcommand hcalls)
    | start callback =>
        exact .performs hagenda rfl (aside_program _) (by simp [World.act])
    | cycling asker poller fragment cycle count waiting =>
        rcases waiting with _ | ⟨callback, waiting⟩
        · exact .performs hagenda rfl aside_nil (by simp [World.act])
        · apply Advance.performs hagenda rfl ?_ (by simp [World.act])
          exact aside_append.mpr ⟨aside_program _, aside_cons.mpr ⟨rfl, aside_nil⟩⟩
    | answer asker reply => exact .performs hagenda rfl aside_nil (by simp [World.act])
    | broadcasting asker cause report left =>
        rcases left with _ | ⟨r, left⟩
        · exact .ends hagenda
        · exact .calls hagenda
    | settling asker cause report called outcome left => exact .settles hagenda

theorem turn_advance (now : Instant) (hcalls : m.callsPoller t = false) : m.Advance now t := by
  cases t with
  | decide outcome =>
      rcases m.turn_decide now outcome with hsame | ⟨_, _, _, _, _, _, _, hagenda, -⟩
      · have hnext : (m.turn now (.decide outcome)).agenda = [] ++ m.agenda :=
          congrArg Machine.agenda hsame
        exact .adds rfl rfl hnext aside_nil rfl
      · exact .decides hagenda
  | move mv =>
      cases mv with
      | issue asker c =>
          have hnext : (m.turn now (.move (.issue asker c))).agenda =
              [.command asker c] ++ m.agenda := rfl
          apply Advance.adds rfl rfl hnext ?_ rfl
          simp [Aside, Task.isBroadcast]
      | collect =>
          have hnext : (m.turn now (.move .collect)).agenda = [] ++ m.agenda := rfl
          exact .adds rfl rfl hnext aside_nil rfl
      | perform => exact perform_advance now hcalls

theorem orderly_iff : m.orderly now t = true ↔
    m.callsPoller t = false ∧ (m.begun? now t = none ∨ m.idle = true) := by
  simp [orderly]

theorem AtStage.turn (hstage : AtStage policy m ledger) (hgrounds : Grounds policy m ledger)
    (horderly : m.orderly now t = true) :
    AtStage policy (m.turn now t) (m.enter now t ledger) := by
  obtain ⟨hcalls, hidle⟩ := orderly_iff.mp horderly
  cases m.turn_advance now hcalls with
  | aside hbegun hsettled hagenda hnext hold hnew hact =>
      exact hstage.aside hgrounds hbegun hsettled hagenda hnext hold hnew hact
  | begins hagenda htasks hact =>
      apply hstage.begins hgrounds ?_ hagenda htasks hact
      apply hidle.resolve_left
      simp [begun?_command now hagenda, htasks, begunBy]
  | calls hagenda => exact hstage.calls hgrounds hagenda
  | ends hagenda => exact hstage.ends hgrounds hagenda
  | decides hagenda => exact hstage.decides hgrounds hagenda
  | settles hagenda => exact hstage.settles hgrounds hagenda

/-- Without a new broadcast none gets under way. -/
theorem idle_turn (hidle : m.idle = true) (hcalls : m.callsPoller t = false)
    (hbegun : m.begun? now t = none) : (m.turn now t).idle = true := by
  have haside := idle_iff.mp hidle
  cases m.turn_advance now hcalls with
  | aside _ _ hagenda hnext _ hnew _ =>
      rw [hagenda] at haside
      rw [idle_iff, hnext]
      exact aside_append.mpr ⟨hnew, (aside_append.mp haside).2⟩
  | begins hagenda htasks _ => simp [begun?_command now hagenda, htasks, begunBy] at hbegun
  | calls hagenda => simp [hagenda, aside_cons, Task.isBroadcast] at haside
  | ends hagenda => simp [hagenda, aside_cons, Task.isBroadcast] at haside
  | decides hagenda => simp [hagenda, aside_cons, Task.isBroadcast] at haside
  | settles hagenda => simp [hagenda, aside_cons, Task.isBroadcast] at haside

end Machine

end Session

end PageRefresh
