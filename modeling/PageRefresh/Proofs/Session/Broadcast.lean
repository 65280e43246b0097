import PageRefresh.Proofs.Session.Run

/-!
A session's broadcast is the broadcast over its refreshers.

A machine makes the calls of a broadcast one task after the other, so that a refresher may do
anything in between.  While the refreshers that are called run no programs of their own, all these
tasks together come to `Calls.broadcast` over the world: the same calls, events, report and error.
-/

namespace PageRefresh.Session

/-- Stopping or restarting the refresher runs no program. -/
def Refresher.Quiet : Refresher → Prop
  | .scripted script => ∀ kind, (script.reaction kind).body = []
  | _ => True

namespace World

/-- How the refreshers of a session answer a broadcast at `now`. -/
def calls (now : Instant) : Calls Refresher World where
  call kind x w := ((w.call now kind x).2.2, (w.call now kind x).1)
  fragment x w := w.fragmentOf x
  log e w := w.log e

theorem calls_logAll (now : Instant) (es : List Event) (w : World) :
    (calls now).logAll es w = w.logAll es := by
  induction es generalizing w with
  | nil => simp [Calls.logAll, logAll]
  | cons e es ih =>
      have hrest := ih (w.log e)
      rw [Calls.logAll] at hrest
      rw [Calls.logAll, List.foldl_cons]
      exact hrest.trans (by simp [logAll, log])

theorem call_shell (w : World) (now : Instant) (kind : BroadcastKind) (x : Refresher) :
    (w.call now kind x).1.shell = w.shell := by
  cases x with
  | poller i => cases hp : w.pollers[i]? <;> cases kind <;> simp [call, hp, setPoller, log]
  | _ => rfl

theorem call_program {x : Refresher} (hquiet : x.Quiet) (w : World) (now : Instant)
    (kind : BroadcastKind) : (w.call now kind x).2.1 = [] := by
  cases x with
  | noop => rfl
  | poller i => cases hp : w.pollers[i]? <;> cases kind <;> simp [call, hp]
  | scripted script => simp [call, hquiet kind, program]

/-- A broadcast goes on after a call, or the failure of the call ends it. -/
theorem broadcastRest_cons (now : Instant) (policy : BroadcastPolicy) (report : Report)
    (x : Refresher) (entries : List Refresher) (w : World) :
    let called := (w.call now report.kind x).1
    let outcome := (w.call now report.kind x).2.2
    let logged := called.logAll (report.settleEvents policy (called.fragmentOf x) outcome)
    (∀ next, report.settle policy (called.fragmentOf x) outcome = .ok next →
        (calls now).broadcastRest policy report (x :: entries) w =
          (calls now).broadcastRest policy next entries logged) ∧
      ∀ e, report.settle policy (called.fragmentOf x) outcome = .error e →
        (calls now).broadcastRest policy report (x :: entries) w = (.error e, logged) := by
  intro called outcome logged
  have hlogged : (calls now).logAll (report.settleEvents policy (called.fragmentOf x) outcome)
      called = logged := calls_logAll now _ called
  constructor
  · intro next hnext
    have hgoes : report.settle policy ((calls now).fragment x called) outcome = .ok next := hnext
    rw [← hlogged, Calls.broadcastRest]
    simp only [calls] at hgoes ⊢
    rw [hgoes]
  · intro e he
    have hends : report.settle policy ((calls now).fragment x called) outcome = .error e := he
    rw [← hlogged, Calls.broadcastRest]
    simp only [calls] at hends ⊢
    rw [hends]

end World

namespace Machine

theorem move_settling {m : Machine} {asker : Asker} {cause : Cause} {report : Report}
    {x : Refresher} {outcome : Except RefreshError Unit} {entries : List Refresher}
    {rest : List Task} (now : Instant)
    (hagenda : m.agenda = .settling asker cause report x outcome entries :: rest) :
    let logged := m.world.logAll
      (report.settleEvents m.world.policy (m.world.fragmentOf x) outcome)
    (∀ next, report.settle m.world.policy (m.world.fragmentOf x) outcome = .ok next →
        m.move now .perform = ⟨logged, .broadcasting asker cause next entries :: rest⟩) ∧
      ∀ e, report.settle m.world.policy (m.world.fragmentOf x) outcome = .error e →
        m.move now .perform = ⟨logged.answer asker (cause.reply (.error e)), rest⟩ := by
  constructor
  · intro next hnext
    rw [move_perform now hagenda]
    simp only [World.perform, hnext]
    rfl
  · intro e he
    rw [move_perform now hagenda]
    simp only [World.perform, he]
    rfl

theorem broadcasting_run (now : Instant) (asker : Asker) (cause : Cause) (rest : List Task)
    {entries : List Refresher} (hquiet : ∀ x ∈ entries, x.Quiet) (report : Report) (w : World) :
    let ended := (World.calls now).broadcastRest w.policy report entries w
    ∃ count, (⟨w, .broadcasting asker cause report entries :: rest⟩ : Machine).after
        (List.replicate count (now, .perform)) =
      ⟨ended.2.answer asker (cause.reply ended.1), rest⟩ := by
  induction entries generalizing report w with
  | nil => exact ⟨1, rfl⟩
  | cons x entries ih =>
      obtain ⟨hx, hentries⟩ := List.forall_mem_cons.mp hquiet
      let called := (w.call now report.kind x).1
      let outcome := (w.call now report.kind x).2.2
      let logged := called.logAll (report.settleEvents w.policy (called.fragmentOf x) outcome)
      let settling : Machine := ⟨called, .settling asker cause report x outcome entries :: rest⟩
      have hpolicy : called.policy = w.policy := by
        simp only [World.policy, called, World.call_shell]
      have hcall : (⟨w, .broadcasting asker cause report (x :: entries) :: rest⟩ : Machine).move now
          .perform = settling := by
        rw [move_perform now rfl]
        simp [World.perform, World.call_program hx, called, outcome, settling]
      obtain ⟨hgoes, hends⟩ := World.broadcastRest_cons now w.policy report x entries w
      obtain ⟨hmoves, hanswers⟩ := settling.move_settling now rfl
      rw [hpolicy] at hmoves hanswers
      cases hreport : report.settle w.policy (called.fragmentOf x) outcome with
      | error e =>
          refine ⟨2, ?_⟩
          rw [hends e hreport]
          simp only [List.replicate_succ, List.replicate_zero, after]
          rw [hcall]
          exact hanswers e hreport
      | ok next =>
          obtain ⟨count, hrest⟩ := ih hentries next logged
          refine ⟨count + 2, ?_⟩
          have hsame : logged.policy = w.policy := hpolicy
          rw [hsame] at hrest
          rw [hgoes next hreport, List.replicate_succ, List.replicate_succ, after, after, hcall,
            hmoves next hreport]
          exact hrest

/-- A broadcast that a session asks for, carried out. -/
theorem broadcast_run {m : Machine} {asker : Asker} {kind : BroadcastKind} {rest : List Task}
    (now : Instant) (hagenda : m.agenda = .command asker (.broadcast kind) :: rest)
    (hquiet : ∀ x ∈ m.world.shell.registry.entries, x.Quiet) :
    let registry := m.world.shell.registry
    let ended := (World.calls now).broadcast registry.policy kind registry.entries m.world
    ∃ count, m.after (List.replicate count (now, .perform)) =
      ⟨ended.2.answer asker (Cause.command.reply ended.1), rest⟩ := by
  intro registry ended
  let opened := m.world.log
    ((Report.start kind).startedEvent registry.policy registry.entries.length)
  obtain ⟨count, hrest⟩ := broadcasting_run now asker .command rest hquiet (.start kind) opened
  refine ⟨count + 1, ?_⟩
  rw [List.replicate_succ, after, move_perform now hagenda]
  exact hrest

end Machine

end PageRefresh.Session
