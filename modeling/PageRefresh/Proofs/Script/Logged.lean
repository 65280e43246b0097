import Mathlib.Data.List.Induction
import PageRefresh.Proofs.Broadcast.Nesting
import PageRefresh.Proofs.Script.Mirror

/-!
What scripts log.

The start and the end of the program, and whatever keeps it from running a script at all, are logged
by the program.  What the steps of a script log is ordinary, with one exception: a broadcast that is
aborted is logged as an error, and the step that called for it leaves the same error in the trace
(`simulate_logs`).
-/

namespace PageRefresh

/-- The events that the program logs at its start and at its end. -/
def Event.isFrame : Event → Bool
  | startupCompleted => true
  | shutdownStarted => true
  | _ => false

/-- Events that say nothing of an error, nor of the start or the end of the program. -/
def Event.isOrdinary (e : Event) : Bool :=
  !e.isFrame && e.level != .error

theorem Event.isFrame_of_isOrdinary {e : Event} (he : e.isOrdinary = true) : e.isFrame = false := by
  simp only [isOrdinary, Bool.and_eq_true, Bool.not_eq_true'] at he
  exact he.1

/-- An event of a script, of which broadcasts have failed so. -/
inductive Event.OfScript (policy : BroadcastPolicy) (failed : RefreshError → Prop) : Event → Prop
    where
  | ordinary {e : Event} (he : e.isOrdinary = true) : e.OfScript policy failed
  | aborted {kind : BroadcastKind} {index : Nat} {fragment : Option String} {error : RefreshError}
      (hpolicy : policy = .abort) (hfailed : failed (.broadcastAborted kind index error)) :
      (Event.broadcastAborted kind index fragment error).OfScript policy failed

theorem Event.OfScript.imp {policy : BroadcastPolicy} {failed failed' : RefreshError → Prop}
    {e : Event} (he : e.OfScript policy failed) (himp : ∀ error, failed error → failed' error) :
    e.OfScript policy failed' := by
  cases he with
  | ordinary he => exact .ordinary he
  | aborted hpolicy hfailed => exact .aborted hpolicy (himp _ hfailed)

/-- A broadcast that goes on after a call has logged nothing out of the ordinary. -/
theorem Report.settleEvents_ordinary {r next : Report} {policy : BroadcastPolicy}
    {fragment : Option String} {outcome : Except RefreshError Unit}
    (hnext : r.settle policy fragment outcome = .ok next) :
    ∀ e ∈ r.settleEvents policy fragment outcome, e.isOrdinary = true := by
  cases outcome with
  | ok value => simp [settleEvents]
  | error e =>
      cases policy with
      | isolate =>
          simp only [settleEvents, List.forall_mem_singleton]
          rfl
      | abort => contradiction

theorem Shell.enterPageEvents_ordinary {ρ : Type} (s : Shell ρ) (name : String) :
    ∀ e ∈ s.enterPageEvents name, e.isOrdinary = true := by
  simp only [enterPageEvents, leaveEvents, List.forall_mem_append]
  refine ⟨⟨⟨?_, ?_⟩, ?_⟩, ?_⟩
  · cases s.page <;> simp [Event.isOrdinary, Event.isFrame, Event.level]
  · split <;> simp [Event.isOrdinary, Event.isFrame, Event.level]
  · split <;> simp [Event.isOrdinary, Event.isFrame, Event.level, Registry.clearedEvent]
  · simp [Event.isOrdinary, Event.isFrame, Event.level]

namespace Script.Simulation

/-- Events with this property are added to the log, and none is taken out. -/
def Adds (p : Event → Prop) (s s' : Simulation) : Prop :=
  ∃ made, s'.events = s.events ++ made ∧ ∀ e ∈ made, p e

namespace Adds

variable {p q : Event → Prop} {s s' s'' : Simulation}

theorem of_eq (hevents : s'.events = s.events) : Adds p s s' :=
  ⟨[], by simp [hevents], by simp⟩

theorem trans (hfirst : Adds p s s') (hsecond : Adds p s' s'') : Adds p s s'' := by
  obtain ⟨made, hmade, hp⟩ := hfirst
  obtain ⟨more, hmore, hp'⟩ := hsecond
  exact ⟨made ++ more, by rw [hmore, hmade, List.append_assoc],
    List.forall_mem_append.mpr ⟨hp, hp'⟩⟩

theorem imp (hadds : Adds p s s') (himp : ∀ e, p e → q e) : Adds q s s' := by
  obtain ⟨made, hmade, hp⟩ := hadds
  exact ⟨made, hmade, fun e he => himp e (hp e he)⟩

theorem logAll {es : List Event} (hadds : Adds p s s') (hes : ∀ e ∈ es, p e) :
    Adds p s (s'.logAll es) :=
  hadds.trans ⟨es, rfl, hes⟩

theorem log {e : Event} (hadds : Adds p s s') (he : p e) : Adds p s (s'.log e) :=
  hadds.logAll (List.forall_mem_singleton.mpr he)

theorem record (hadds : Adds p s s') (action : String) (target : Option String)
    (detail : String) : Adds p s (s'.record action target detail) :=
  hadds.trans (.of_eq rfl)

theorem subset (hadds : Adds p s s') {e : Event} (he : e ∈ s.events) : e ∈ s'.events := by
  obtain ⟨made, hmade, -⟩ := hadds
  exact hmade ▸ List.mem_append_left _ he

end Adds

/-! ## Broadcasts -/

theorem call_adds (kind : BroadcastKind) (x : Participant) (s : Simulation) :
    Adds (·.isOrdinary = true) s (call kind x s).2 := by
  have hsame : Adds (·.isOrdinary = true) s s := .of_eq rfl
  cases x with
  | faulty name => cases kind <;> exact hsame.record _ _ _
  | poller i =>
      cases hp : s.pollers[i]? with
      | none => cases kind <;> simpa [call, hp] using hsame
      | some named =>
          have hset : ∀ p, Adds (·.isOrdinary = true) s (s.setPoller i p) := fun p => .of_eq rfl
          cases kind
          · simpa [call, hp] using ((hset _).log (e := named.poller.stoppedEvent) rfl).record _ _ _
          · simpa [call, hp] using
              ((hset _).log (e := named.poller.restartedEvent) rfl).record _ _ _

theorem broadcastRest_adds (policy : BroadcastPolicy) (r : Report) (entries : List Participant)
    (s : Simulation) :
    Adds (Event.OfScript policy fun e => (calls.broadcastRest policy r entries s).1 = .error e) s
      (calls.broadcastRest policy r entries s).2 := by
  induction entries generalizing r s with
  | nil =>
      have hsame : Adds (Event.OfScript policy fun e => Except.ok r = .error e) s s := .of_eq rfl
      exact hsame.log (.ordinary rfl)
  | cons x entries ih =>
      have hcall := call_adds r.kind x s
      simp only [Calls.broadcastRest, calls_logAll]
      cases hsettle : r.settle policy (calls.fragment x (calls.call r.kind x s).2)
          (calls.call r.kind x s).1 with
      | ok next =>
          have hsettled := hcall.logAll (Report.settleEvents_ordinary hsettle)
          exact (hsettled.imp fun _ he => .ordinary he).trans (ih next _)
      | error e =>
          obtain ⟨source, habort, -, rfl, hevents⟩ := Report.settle_eq_error hsettle
          rw [hevents]
          exact (hcall.imp fun _ he => .ordinary he).log (.aborted habort rfl)

theorem broadcast_adds (s : Simulation) (kind : BroadcastKind) :
    Adds (Event.OfScript s.policy fun e => (s.broadcast kind).1 = .error e) s
      (s.broadcast kind).2 := by
  have hsame : Adds (Event.OfScript s.policy fun e => (s.broadcast kind).1 = .error e) s s :=
    .of_eq rfl
  exact (hsame.log (.ordinary rfl)).trans (broadcastRest_adds ..)

/-! ## Steps -/

/-- All that is added to the log on the way to this result fits it. -/
def Logs (s : Simulation) (result : Except ShellError Unit × Simulation) : Prop :=
  Adds (Event.OfScript s.policy fun e => result.1 = .error (.refresh e)) s result.2

theorem logs_of_ordinary {s : Simulation} {result : Except ShellError Unit × Simulation}
    (hadds : Adds (·.isOrdinary = true) s result.2) : s.Logs result :=
  hadds.imp fun _ he => .ordinary he

theorem broadcastStep_logs (s : Simulation) (kind : BroadcastKind) :
    s.Logs (s.broadcastStep kind) := by
  have hbroadcast := s.broadcast_adds kind
  rw [broadcastStep, Logs]
  split
  · rename_i r s' hended
    rw [hended] at hbroadcast
    exact (hbroadcast.imp fun _ he => he.imp (by simp)).record _ _ _
  · rename_i error s' hended
    rw [hended] at hbroadcast
    exact hbroadcast.imp fun _ he => he.imp (by simp)

theorem modalStep_logs (s : Simulation) (action : String) (cause : Option BroadcastKind) :
    s.Logs (s.modalStep action cause) := by
  cases cause with
  | none => exact logs_of_ordinary (.of_eq rfl)
  | some kind =>
      have hbroadcast := s.broadcast_adds kind
      simp only [modalStep, Logs]
      split
      · rename_i r s' hended
        rw [hended] at hbroadcast
        exact ((hbroadcast.imp fun _ he => he.imp (by simp)).record _ _ _).record _ _ _
      · rename_i error s' hended
        rw [hended] at hbroadcast
        exact hbroadcast.imp fun _ he => he.imp (by simp)

theorem openModal_logs (s : Simulation) : s.Logs s.openModal := by
  refine Adds.trans ?_ (modalStep_logs _ _ _)
  exact ⟨[s.shell.openModal.openedEvent], rfl, by simpa using .ordinary rfl⟩

theorem closeModal_logs (s : Simulation) : s.Logs s.closeModal := by
  unfold closeModal
  split
  · exact logs_of_ordinary (.of_eq rfl)
  · refine Adds.trans ?_ (modalStep_logs _ _ _)
    exact ⟨[s.shell.closeModal.closedEvent], rfl, by simpa using .ordinary rfl⟩

theorem cycle_adds (s : Simulation) (fragment : String) :
    Adds (·.isOrdinary = true) s (s.cycle fragment).2 := by
  rw [cycle]
  split
  · exact .of_eq rfl
  · split
    · exact .of_eq rfl
    · rename_i i name p _ _ p' batch _
      have hran : Adds (·.isOrdinary = true) s
          (batch.callbacks.foldl runCallback (s.setPoller i p')) := by
        rw [foldl_runCallback]
        exact .of_eq rfl
      exact (hran.log rfl).record _ _ _

theorem after_adds (s : Simulation) (fragment : String) :
    Adds (·.isOrdinary = true) s (s.after fragment) := by
  have hsame : Adds (·.isOrdinary = true) s s := .of_eq rfl
  rw [after]
  split
  · exact ((hsame.record _ _ _).log rfl).record _ _ _
  · have hqueued : ∀ name, Adds (·.isOrdinary = true) s
        ((s.record "after" (some fragment) ("main refresher: " ++ name)).record "queue"
          (some fragment) ("callback queued on " ++ name)) := fun name => .of_eq rfl
    split
    · exact .of_eq rfl
    · exact ((hqueued _).log rfl).record _ _ _

theorem apply_logs (s : Simulation) (step : Step) : s.Logs (s.apply step) := by
  have hsame : Adds (·.isOrdinary = true) s s := .of_eq rfl
  have hlogged : ∀ e s', e.isOrdinary = true → s'.events = s.events ++ [e] →
      s.Logs (.ok (), s') :=
    fun e s' he hs' => logs_of_ordinary ⟨[e], hs', List.forall_mem_singleton.mpr he⟩
  cases step with
  | named verb name =>
      cases verb with
      | page => exact logs_of_ordinary ⟨_, rfl, s.shell.enterPageEvents_ordinary name⟩
      | after => exact logs_of_ordinary (s.after_adds name)
      | cycle => exact logs_of_ordinary (s.cycle_adds name)
      | add => exact hlogged _ _ rfl rfl
      | main => exact hlogged _ _ rfl rfl
      | fail => exact hlogged _ _ rfl rfl
  | bare verb =>
      cases verb with
      | disable => exact s.broadcastStep_logs .stop
      | enable => exact s.broadcastStep_logs .restart
      | modalOpen => exact s.openModal_logs
      | modalClose => exact s.closeModal_logs
      | clear => exact hlogged _ _ rfl rfl

/-- A step has failed so, and the trace says it. -/
def HasFailed (s : Simulation) (error : RefreshError) : Prop :=
  ∃ step, ⟨step, "error", none, error.message⟩ ∈ s.trace

theorem next_adds (s : Simulation) (step : Step) :
    Adds (Event.OfScript s.policy (s.next step).HasFailed) s (s.next step) := by
  have happlied := s.atNext.apply_logs step
  cases happly : s.atNext.apply step with
  | mk result s' =>
      rw [happly] at happlied
      cases result with
      | ok value =>
          rw [next_of_ok happly]
          exact happlied.imp fun _ he => he.imp (by simp)
      | error error =>
          rw [next_of_error happly]
          refine ((happlied.imp fun _ he => he.imp ?_).log (.ordinary rfl)).record _ _ _
          rintro cause hcause
          obtain rfl := Except.error.inj hcause
          exact ⟨s'.step, List.mem_append_right _ (List.mem_singleton.mpr rfl)⟩

end Script.Simulation

/-- All events of a script are ordinary, but for those of broadcasts that were aborted, each of
which has failed a step. -/
theorem Script.simulate_logs (policy : BroadcastPolicy) (interval : Duration) (now : Instant)
    (script : List Step) :
    let s := simulate policy interval now script
    ∀ e ∈ s.events, e.OfScript policy s.HasFailed := by
  induction script using List.reverseRecOn with
  | nil => simp [simulate, Simulation.run, Simulation.start]
  | append_singleton script step ih =>
      intro s e he
      let before := simulate policy interval now script
      have hs : s = before.next step := Simulation.run_append _ script [step]
      have hpolicy : before.policy = policy := (mirrors_simulate policy interval now script).keeps
      obtain ⟨made, hmade, hnew⟩ := before.next_adds step
      rw [hs, hmade] at he
      rw [hpolicy] at hnew
      rcases List.mem_append.mp he with hold | hlast
      · refine (ih e hold).imp ?_
        rintro error ⟨number, herror⟩
        refine ⟨number, ?_⟩
        rw [hs, (before.next_trace step).1]
        exact List.mem_append_left _ herror
      · rw [hs]
        exact hnew e hlast

end PageRefresh
