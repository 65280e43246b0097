import PageRefresh.Proofs.Session.History
import Mathlib.Data.List.Induction

/-!
Run states and deadlines.

What a poller was last told decides whether it runs, and the last act that set its deadline decides
when it is due.  Both are read off a history, so that the poller after a run can be compared with
all that happened in it (`Scheduled`).  The comparison holds of a new poller, every act keeps it,
and hence every run does, with callbacks in the middle of cycles or without.
-/

namespace PageRefresh

namespace Poller

variable {κ : Type} {p : Poller κ}

theorem isDue_of_stopped (hstopped : p.state = .stopped) (t : Instant) : p.isDue t = false := by
  simp [isDue, isRunning, hstopped]

theorem isDue_iff {start : Instant} (hrunning : p.state = .running)
    (hdeadline : p.deadline = start.after? p.interval) (t : Instant) :
    p.isDue t = true ↔
      start.nanos + p.interval.nanos < Instant.limit ∧
        ⟨start.nanos + p.interval.nanos⟩ ≤ t := by
  by_cases hfits : start.nanos + p.interval.nanos < Instant.limit
  · simp [isDue, isRunning, hrunning, hdeadline, Instant.after?, hfits]
  · simp [isDue, hdeadline, Instant.after?, hfits]

end Poller

namespace Session

/-! ## What a history tells of one poller -/

namespace Act

/-- What a poller was told: to run or to stop. -/
def order? (i : Nat) : Act → Option RunState
  | .made j _ _ => if j = i then some .running else none
  | .restarted j => if j = i then some .running else none
  | .stopped j => if j = i then some .stopped else none
  | _ => none

/-- The act sets the poller's deadline an interval ahead. -/
def schedules (i : Nat) : Act → Bool
  | .made j _ _ => j == i
  | .restarted j => j == i
  | .began j _ => j == i
  | _ => false

end Act

namespace History

/-- What a poller was told, first to last. -/
def orders (h : History) (i : Nat) : List RunState :=
  h.filterMap fun e => e.2.order? i

/-- When a poller was made, restarted, or completed a cycle of any of its fragments. -/
def schedulings (h : History) (i : Nat) : List Instant :=
  (h.filter fun e => e.2.schedules i).map Prod.fst

theorem orders_concat (h : History) (now : Instant) (a : Act) (i : Nat) :
    orders (h ++ [(now, a)]) i = h.orders i ++ (a.order? i).toList := by
  rw [orders, List.filterMap_append, filterMap_cons_eq_append, List.filterMap_nil,
    List.append_nil]
  rfl

theorem schedulings_concat (h : History) (now : Instant) (a : Act) (i : Nat) :
    schedulings (h ++ [(now, a)]) i =
      h.schedulings i ++ if a.schedules i then [now] else [] := by
  cases hschedules : a.schedules i <;> simp [schedulings, hschedules]

end History

/-- The poller with index `i` is in the state that it was last told to be in, and a running one is
due an interval after its deadline was last set. -/
structure Scheduled (h : History) (i : Nat) (p : Poller Callback) : Prop where
  order : (h.orders i).getLast? = some p.state
  interval : ∃ now fragments, (now, Act.made i fragments p.interval) ∈ h
  deadline : ∃ start, (h.schedulings i).getLast? = some start ∧
    p.deadline = if p.isRunning then start.after? p.interval else none

namespace Scheduled

variable {h : History} {i : Nat} {p : Poller Callback} {now : Instant} {a : Act}

theorem start (h : History) (i : Nat) (fragments : List String) (interval : Duration)
    (now : Instant) :
    Scheduled (h ++ [(now, .made i fragments interval)]) i (.start fragments interval now) where
  order := by
    rw [History.orders_concat]
    simp [Act.order?, Poller.start]
  interval := ⟨now, fragments, by simp [Poller.start]⟩
  deadline := by
    refine ⟨now, ?_, rfl⟩
    rw [History.schedulings_concat]
    simp [Act.schedules]

/-- Acts that neither set the deadline nor tell the poller anything leave everything as it is. -/
theorem same {p' : Poller Callback} (hscheduled : Scheduled h i p) (horder : a.order? i = none)
    (hschedules : a.schedules i = false) (hstate : p'.state = p.state)
    (hinterval : p'.interval = p.interval) (hdeadline : p'.deadline = p.deadline) :
    Scheduled (h ++ [(now, a)]) i p' where
  order := by
    rw [History.orders_concat, horder, hstate]
    simpa using hscheduled.order
  interval := by
    obtain ⟨made, fragments, hmem⟩ := hscheduled.interval
    exact ⟨made, fragments, by simp [hinterval, hmem]⟩
  deadline := by
    rw [History.schedulings_concat, hschedules, hdeadline, hinterval, Poller.isRunning, hstate]
    simpa [Poller.isRunning] using hscheduled.deadline

theorem stop (hscheduled : Scheduled h i p) :
    Scheduled (h ++ [(now, .stopped i)]) i p.stop where
  order := by
    rw [History.orders_concat]
    simp [Act.order?, Poller.stop]
  interval := by
    obtain ⟨made, fragments, hmem⟩ := hscheduled.interval
    exact ⟨made, fragments, List.mem_append_left _ hmem⟩
  deadline := by
    obtain ⟨start, hlast, -⟩ := hscheduled.deadline
    refine ⟨start, ?_, rfl⟩
    rw [History.schedulings_concat]
    simpa [Act.schedules] using hlast

theorem restart (hscheduled : Scheduled h i p) :
    Scheduled (h ++ [(now, .restarted i)]) i (p.restart now) where
  order := by
    rw [History.orders_concat]
    simp [Act.order?, Poller.restart]
  interval := by
    obtain ⟨made, fragments, hmem⟩ := hscheduled.interval
    exact ⟨made, fragments, List.mem_append_left _ hmem⟩
  deadline := by
    refine ⟨now, ?_, rfl⟩
    rw [History.schedulings_concat]
    simp [Act.schedules]

theorem complete {fragment : String} (hscheduled : Scheduled h i p)
    (hrunning : p.isRunning = true) :
    Scheduled (h ++ [(now, .began i fragment)]) i (p.completed fragment now) where
  order := by
    rw [History.orders_concat]
    simpa [Act.order?, Poller.completed] using hscheduled.order
  interval := by
    obtain ⟨made, fragments, hmem⟩ := hscheduled.interval
    exact ⟨made, fragments, List.mem_append_left _ hmem⟩
  deadline := by
    refine ⟨now, ?_, (if_pos hrunning).symm⟩
    rw [History.schedulings_concat]
    simp [Act.schedules]

/-- An act about another poller changes nothing. -/
theorem other (hscheduled : Scheduled h i p) (hother : a.poller? ≠ some i) :
    Scheduled (h ++ [(now, a)]) i p := by
  apply hscheduled.same ?_ ?_ rfl rfl rfl
  · cases a with
    | made j fragments interval => exact if_neg fun hji => hother (by rw [Act.poller?, hji])
    | stopped j => exact if_neg fun hji => hother (by rw [Act.poller?, hji])
    | restarted j => exact if_neg fun hji => hother (by rw [Act.poller?, hji])
    | _ => rfl
  · cases a with
    | made j fragments interval => simpa [Act.schedules, Act.poller?] using hother
    | restarted j => simpa [Act.schedules, Act.poller?] using hother
    | began j fragment => simpa [Act.schedules, Act.poller?] using hother
    | _ => rfl

/-- Every act keeps a poller on schedule. -/
theorem onPoller {pollers : List (Poller Callback)} (hscheduled : Scheduled h i p)
    (hp : pollers[i]? = some p) (hpossible : a.Possible pollers) :
    Scheduled (h ++ [(now, a)]) i (a.onPoller now i p) := by
  by_cases hpoller : a.poller? = some i
  · cases a with
    | made j fragments interval =>
        obtain rfl : j = i := Option.some.inj hpoller
        exact absurd rfl (Act.ne_made hpossible hp)
    | stopped j =>
        obtain rfl : j = i := Option.some.inj hpoller
        simpa [Act.onPoller] using hscheduled.stop
    | restarted j =>
        obtain rfl : j = i := Option.some.inj hpoller
        simpa [Act.onPoller] using hscheduled.restart
    | queued j fragment callback =>
        obtain rfl : j = i := Option.some.inj hpoller
        simp only [Act.onPoller, ↓reduceIte]
        exact hscheduled.same rfl rfl rfl rfl rfl
    | began j fragment =>
        obtain rfl : j = i := Option.some.inj hpoller
        obtain ⟨q, hq, -, hrunning⟩ := hpossible
        obtain rfl : p = q := Option.some.inj (hp.symm.trans hq)
        simpa [Act.onPoller] using hscheduled.complete hrunning
    | _ => contradiction
  · rw [Act.onPoller_other hpoller]
    exact hscheduled.other hpoller

end Scheduled

/-- After any run from an empty session every poller is on schedule. -/
theorem Machine.scheduled_run {policy : BroadcastPolicy} {run : Run} {i : Nat}
    {p : Poller Callback} (hp : ((Machine.new policy).after run).world.pollers[i]? = some p) :
    Scheduled ((Machine.new policy).history run) i p := by
  induction run using List.reverseRecOn generalizing p with
  | nil => simp [after, new, World.empty] at hp
  | append_singleton run last ih =>
      obtain ⟨now, mv⟩ := last
      obtain ⟨hpossible, hpollers, -⟩ := ((Machine.new policy).after run).move_does now mv
      rw [after_concat, hpollers] at hp
      rw [history_concat]
      cases hq : ((Machine.new policy).after run).world.pollers[i]? with
      | none =>
          obtain ⟨fragments, interval, hact, rfl⟩ :=
            Act.made_of_getElem?_onPollers hpossible hq hp
          rw [hact]
          exact .start _ i fragments interval now
      | some q =>
          rw [Act.getElem?_onPollers hq, Option.some.injEq] at hp
          rw [← hp]
          exact (ih hq).onPoller hq hpossible

/-! ## Stops stay in force -/

theorem Act.state_onPoller {a : Act} {i : Nat} {p : Poller Callback} (now : Instant)
    (hact : a ≠ .restarted i) (hstopped : p.state = .stopped) :
    (a.onPoller now i p).state = .stopped := by
  unfold onPoller
  split
  · split <;> simp [Poller.stop, hstopped]
  · split
    · rename_i j hij
      exact absurd (by rw [hij]) hact
    · exact hstopped
  · split <;> simp [Poller.enqueue, hstopped]
  · split <;> simp [Poller.completed, hstopped]
  · exact hstopped

/-- A stopped poller stays stopped until it is restarted. -/
theorem Machine.stopped_run {m : Machine} {run : Run} {i : Nat} {p : Poller Callback}
    (hp : m.world.pollers[i]? = some p) (hstopped : p.state = .stopped)
    (hrestarted : ∀ e ∈ m.history run, e.2 ≠ .restarted i) :
    ∃ p', (m.after run).world.pollers[i]? = some p' ∧ p'.state = .stopped := by
  induction run generalizing m p with
  | nil => exact ⟨p, hp, hstopped⟩
  | cons head run ih =>
      obtain ⟨now, mv⟩ := head
      simp only [history, List.mem_cons, forall_eq_or_imp] at hrestarted
      apply ih _ (Act.state_onPoller now hrestarted.1 hstopped) hrestarted.2
      rw [(m.move_does now mv).pollers, Act.getElem?_onPollers hp]

/-- A completed cycle that is rejected leaves all pollers alone. -/
theorem Machine.move_cycle_rejected {m : Machine} {asker : Asker} {id fragment : String}
    {rest : List Task} {i : Nat} {p : Poller Callback} {now : Instant} {e : RefreshError}
    (hagenda : m.agenda = .command asker (.cycle id fragment) :: rest)
    (hfind : m.world.findPoller? id = some (i, p))
    (hrejected : p.complete fragment now = .error e) :
    (m.move now .perform).world.pollers = m.world.pollers := by
  rw [move_perform now hagenda]
  simp only [World.perform, World.begin, World.withPoller, hfind, hrejected,
    World.pollers_answer]

/-! ## Run state and deadline agree -/

theorem History.schedulings_le {h : History} {i : Nat} {start : Instant}
    (hclock : (h.map Prod.fst).Pairwise (· ≤ ·))
    (hlast : (h.schedulings i).getLast? = some start) : ∀ t ∈ h.schedulings i, t ≤ start := by
  have hsublist : (h.schedulings i).Sublist (h.map Prod.fst) := List.filter_sublist.map _
  have hsorted := hclock.sublist hsublist
  obtain ⟨earlier, heq⟩ := List.getLast?_eq_some_iff.mp hlast
  rw [heq] at hsorted ⊢
  intro t ht
  rcases List.mem_append.mp ht with hearlier | hstart
  · exact (List.pairwise_append.mp hsorted).2.2 t hearlier start (by simp)
  · obtain rfl : t = start := by simpa using hstart
    exact Nat.le_refl _

/-- How the state and the deadline of a poller stand at the end of a run. -/
structure StateAndDeadline (m : Machine) (run : Run) (i : Nat) (p : Poller Callback) : Prop where
  /-- The last order that the poller was given is in force. -/
  ordered : ((m.history run).orders i).getLast? = some p.state
  interval : ∃ now fragments, (now, Act.made i fragments p.interval) ∈ m.history run
  /-- A stopped poller has no deadline, and is never due. -/
  stopped : p.state = .stopped → p.deadline = none ∧ ∀ t, p.isDue t = false
  /-- A running one is due an interval after it was last scheduled, if the clock goes so far. -/
  running : p.state = .running → ∃ start ∈ (m.history run).schedulings i,
    (∀ t ∈ (m.history run).schedulings i, t ≤ start) ∧
      p.deadline = start.after? p.interval ∧
      (p.deadline = none ↔ Instant.limit ≤ start.nanos + p.interval.nanos) ∧
      ∀ t, p.isDue t = true ↔
        start.nanos + p.interval.nanos < Instant.limit ∧
          ⟨start.nanos + p.interval.nanos⟩ ≤ t
  /-- A stop stays in force until the next restart: cycles that go on after it change nothing. -/
  stays : ∀ before now mv later, run = before ++ (now, mv) :: later →
    (m.after before).act mv = .stopped i →
      (∀ e ∈ ((m.after before).move now mv).history later, e.2 ≠ .restarted i) →
        p.state = .stopped ∧ p.deadline = none
  /-- A rejected cycle moves no deadline. -/
  rejected : ∀ asker id fragment rest now e,
    (m.after run).agenda = .command asker (.cycle id fragment) :: rest →
      (m.after run).world.findPoller? id = some (i, p) → p.complete fragment now = .error e →
        ((m.after run).move now .perform).world.pollers = (m.after run).world.pollers

/-- A poller runs if it has a deadline that the clock can hold, and is due when it has passed. -/
theorem state_and_deadline_agree {policy : BroadcastPolicy} {run : Run} {i : Nat}
    {p : Poller Callback} (hp : ((Machine.new policy).after run).world.pollers[i]? = some p)
    (hclock : (run.map Prod.fst).Pairwise (· ≤ ·)) :
    StateAndDeadline (.new policy) run i p := by
  let h := (Machine.new policy).history run
  obtain ⟨hordered, hinterval, start, hlast, hdeadline⟩ := Machine.scheduled_run hp
  have hnone : p.state = .stopped → p.deadline = none := by
    intro hstopped
    simp [hdeadline, Poller.isRunning, hstopped]
  constructor
  case ordered => exact hordered
  case interval => exact hinterval
  case stopped => exact fun hstopped => ⟨hnone hstopped, Poller.isDue_of_stopped hstopped⟩
  case running =>
    intro hrunning
    have hdue : p.deadline = start.after? p.interval := by
      simp [hdeadline, Poller.isRunning, hrunning]
    have hsorted : (h.map Prod.fst).Pairwise (· ≤ ·) := by
      rwa [Machine.history_instants]
    refine ⟨start, List.mem_of_getLast? hlast, History.schedulings_le hsorted hlast, hdue, ?_,
      Poller.isDue_iff hrunning hdue⟩
    rw [hdue]
    exact Instant.after?_eq_none_iff
  case stays =>
    intro before now mv later hrun hact hrestarted
    have hdoes := ((Machine.new policy).after before).move_does now mv
    have hi : i < ((Machine.new policy).after before).world.pollers.length := by
      have hpossible := hdoes.possible
      rwa [hact] at hpossible
    obtain ⟨q, hq⟩ : ∃ q, ((Machine.new policy).after before).world.pollers[i]? = some q :=
      ⟨_, List.getElem?_eq_getElem hi⟩
    have hstop : (((Machine.new policy).after before).move now mv).world.pollers[i]? =
        some q.stop := by
      rw [hdoes.pollers, hact, Act.getElem?_onPollers hq]
      simp [Act.onPoller]
    obtain ⟨p', hp', hstopped⟩ := Machine.stopped_run hstop rfl hrestarted
    have hsame : p' = p := by
      rw [hrun, Machine.after_append, Machine.after, hp', Option.some.injEq] at hp
      exact hp
    subst hsame
    exact ⟨hstopped, hnone hstopped⟩
  case rejected =>
    exact fun asker id fragment rest now e hagenda hfind hrejected =>
      Machine.move_cycle_rejected hagenda hfind hrejected

/-- One poller is stopped in the middle of a cycle of its own, another one completes a cycle. -/
def stoppedInCycle : Run :=
  [(⟨1⟩, .issue none (.poller "p" ["f"] (.ofSecs 10))), (⟨1⟩, .perform),
    (⟨2⟩, .issue none (.poller "q" ["g"] (.ofSecs 10))), (⟨2⟩, .perform),
    (⟨3⟩, .issue none (.after "p" "f" (.mk "c" [.call .stop "p"]))), (⟨3⟩, .perform),
    (⟨3⟩, .perform),
    (⟨4⟩, .issue none (.cycle "p" "f")), (⟨4⟩, .perform), (⟨4⟩, .perform), (⟨5⟩, .perform),
    (⟨5⟩, .perform), (⟨6⟩, .perform),
    (⟨7⟩, .issue none (.cycle "q" "g")), (⟨7⟩, .perform), (⟨7⟩, .perform)]

theorem state_and_deadline_agree_stopped :
    let m := (Machine.new .isolate).after stoppedInCycle
    let h := (Machine.new .isolate).history stoppedInCycle
    (∃ p, m.world.pollers[0]? = some p ∧ p.deadline = none ∧ ∀ t, p.isDue t = false) ∧
      ∃ q, m.world.pollers[1]? = some q ∧
        ∃ start ∈ h.schedulings 1, (∀ t ∈ h.schedulings 1, t ≤ start) ∧
          q.deadline = start.after? q.interval := by
  have hp : ((Machine.new .isolate).after stoppedInCycle).world.pollers[0]? = some _ := rfl
  have hq : ((Machine.new .isolate).after stoppedInCycle).world.pollers[1]? = some _ := rfl
  have hclock : (stoppedInCycle.map Prod.fst).Pairwise (· ≤ ·) := by
    decide
  obtain ⟨start, hmem, hlatest, hdeadline, -⟩ :=
    (state_and_deadline_agree hq hclock).running rfl
  exact ⟨⟨_, hp, (state_and_deadline_agree hp hclock).stopped rfl⟩,
    ⟨_, hq, start, hmem, hlatest, hdeadline⟩⟩

end Session

end PageRefresh
