import PageRefresh.Proofs.Broadcast.Nesting
import PageRefresh.Proofs.Session.Stage

/-!
What a session logs.

The log of a play is what its turns add to the journal, whoever takes the journal out in between.
Events of broadcasts are logged by the tasks that are broadcasts, and otherwise only when one begins
(`begin_logged`).  So the broadcasts on the agenda and the opening events of the log that are not
yet closed are the same, innermost first, after every turn (`turn_unclosed`).
-/

namespace PageRefresh

theorem Shell.leaveEvents_beside {ρ : Type} (s : Shell ρ) : Beside s.leaveEvents := by
  intro e he
  simp only [leaveEvents, List.mem_append, Option.mem_toList, Option.map_eq_some_iff] at he
  rcases he with (⟨page, -, rfl⟩ | hmodal) | hcleared
  · rfl
  · split at hmodal
    · rw [List.mem_singleton.mp hmodal]
      rfl
    · contradiction
  · split at hcleared
    · contradiction
    · rw [List.mem_singleton.mp hcleared]
      rfl

theorem beside_append {first second : List Event} :
    Beside (first ++ second) ↔ Beside first ∧ Beside second :=
  List.forall_mem_append

theorem beside_singleton {e : Event} : Beside [e] ↔ e.isBroadcast = false := by
  simp [Beside]

namespace Session

namespace World

/-- The events in the journal, first to last. -/
def logged (w : World) : List Event :=
  events w.journal

@[simp]
theorem logged_log (w : World) (e : Event) : (w.log e).logged = w.logged ++ [e] := by
  simp [logged, log, events]

@[simp]
theorem logged_logAll (w : World) (es : List Event) : (w.logAll es).logged = w.logged ++ es := by
  simp [logged, logAll, events, List.filterMap_map]

@[simp]
theorem logged_note (w : World) (c : Call) : (w.note c).logged = w.logged := by
  simp [logged, note, events]

@[simp]
theorem logged_answer (w : World) (asker : Asker) (reply : Reply) :
    (w.answer asker reply).logged = w.logged := by
  cases asker with
  | none => rfl
  | some c => exact logged_note w _

/-- No event of a broadcast was logged on the way to `w'`. -/
def LogsBeside (w w' : World) : Prop :=
  ∃ es, Beside es ∧ w'.logged = w.logged ++ es

theorem LogsBeside.of_eq {w w' : World} (hlogged : w'.logged = w.logged) : w.LogsBeside w' :=
  ⟨[], by simp [Beside], by simp [hlogged]⟩

theorem LogsBeside.answer {w w' : World} (hbeside : w.LogsBeside w') (asker : Asker)
    (reply : Reply) : w.LogsBeside (w'.answer asker reply) := by
  obtain ⟨es, hes, hlogged⟩ := hbeside
  exact ⟨es, hes, by rw [logged_answer, hlogged]⟩

theorem logsBeside_answer (w : World) (asker : Asker) (reply : Reply) :
    w.LogsBeside (w.answer asker reply) :=
  .of_eq (logged_answer w asker reply)

theorem logsBeside_log (w : World) {e : Event} (he : e.isBroadcast = false) :
    w.LogsBeside (w.log e) :=
  ⟨[e], beside_singleton.mpr he, logged_log w e⟩

theorem logsBeside_logAll (w : World) {es : List Event} (hes : Beside es) :
    w.LogsBeside (w.logAll es) :=
  ⟨es, hes, logged_logAll w es⟩

theorem call_logsBeside (w : World) (now : Instant) (kind : BroadcastKind) (r : Refresher) :
    w.LogsBeside (w.call now kind r).1 := by
  cases r with
  | noop => exact .of_eq rfl
  | scripted script => exact .of_eq (logged_note w _)
  | poller i =>
      cases hp : w.pollers[i]? with
      | none =>
          simp only [call, hp]
          exact .of_eq rfl
      | some p =>
          cases kind with
          | stop =>
              simp only [call, hp]
              exact (w.setPoller i p.stop).logsBeside_log rfl
          | restart =>
              simp only [call, hp]
              exact (w.setPoller i (p.restart now)).logsBeside_log rfl

theorem after_logsBeside (w : World) (fragment : String) (callback : Callback) (r : Refresher) :
    w.LogsBeside (w.after fragment callback r).1 := by
  cases r with
  | noop => exact w.logsBeside_log rfl
  | scripted script => exact .of_eq (logged_note w _)
  | poller i =>
      cases hp : w.pollers[i]? with
      | none =>
          simp only [after, hp]
          exact .of_eq rfl
      | some p =>
          cases howns : p.owns fragment with
          | true =>
              simp only [after, hp, howns, ↓reduceIte]
              exact .of_eq rfl
          | false =>
              simp only [after, hp, howns, Bool.false_eq_true, ↓reduceIte]
              exact w.logsBeside_log rfl

/-- What beginning an operation logs about the broadcast that it begins, if it begins one, comes
last; nothing else that it logs is about a broadcast. -/
def BeginsLogging (w : World) (r : World × List Task) : Prop :=
  ∃ es, Beside es ∧ r.1.logged = w.logged ++ es ++ ((begunBy r.2).toList.map fun b =>
    .broadcastStarted b.kind b.entries.length w.policy)

theorem BeginsLogging.of_aside {w : World} {r : World × List Task} (hlogs : w.LogsBeside r.1)
    (haside : Aside r.2) : w.BeginsLogging r := by
  obtain ⟨es, hes, hlogged⟩ := hlogs
  exact ⟨es, hes, by rw [begunBy_aside haside, hlogged]; simp⟩

theorem beginBroadcast_logged {w w' : World} (hlogs : w.LogsBeside w')
    (hpolicy : w'.policy = w.policy) (asker : Asker) (cause : Cause) (kind : BroadcastKind) :
    w.BeginsLogging (w'.beginBroadcast asker cause kind) := by
  obtain ⟨es, hes, hlogged⟩ := hlogs
  refine ⟨es, hes, ?_⟩
  rw [← hlogged, ← hpolicy]
  exact logged_log w' _

theorem begin_logged (w : World) (now : Instant) (asker : Asker) (c : Command) :
    w.BeginsLogging (w.begin now asker c) := by
  have hanswers : ∀ w' reply, w.LogsBeside w' → w.BeginsLogging (w'.answer asker reply, []) :=
    fun w' reply hlogs => .of_aside (hlogs.answer asker reply) aside_nil
  have hsame : w.LogsBeside w := .of_eq rfl
  cases c with
  | broadcast kind => exact beginBroadcast_logged hsame rfl asker .command kind
  | openModal =>
      have hopened : w.LogsBeside ({ w with shell := w.shell.openModal }.log
          w.shell.openModal.openedEvent) := logsBeside_log { w with shell := _ } rfl
      simp only [begin, openModal]
      split
      · exact beginBroadcast_logged hopened rfl asker .modal _
      · exact hanswers _ _ hopened
  | closeModal =>
      have hclosed : w.LogsBeside ({ w with shell := w.shell.closeModal }.log
          w.shell.closeModal.closedEvent) := logsBeside_log { w with shell := _ } rfl
      simp only [begin, closeModal]
      split
      · exact hanswers _ _ hsame
      · split
        · exact beginBroadcast_logged hclosed rfl asker .modal _
        · exact hanswers _ _ hclosed
  | add id =>
      exact withRefresher_elim (fun r => hanswers _ _ (w.logsBeside_log rfl)) (hanswers _ _ hsame)
  | addMain id =>
      exact withRefresher_elim (fun r => hanswers _ _ (w.logsBeside_log rfl)) (hanswers _ _ hsame)
  | readdMain => exact hanswers _ _ (w.logsBeside_log rfl)
  | clear => exact hanswers _ _ (w.logsBeside_log rfl)
  | enterPage name =>
      have hevents : Beside (w.shell.enterPageEvents name) :=
        beside_append.mpr ⟨w.shell.leaveEvents_beside, beside_singleton.mpr rfl⟩
      exact hanswers _ _ (logsBeside_logAll { w with shell := w.shell.enterPage name } hevents)
  | leave =>
      exact hanswers _ _
        (logsBeside_logAll { w with shell := w.shell.leave } w.shell.leaveEvents_beside)
  | afterMain fragment callback =>
      exact .of_aside (w.after_logsBeside _ _ w.main) (w.handOver_aside asker _ _ w.main)
  | callMain kind =>
      exact .of_aside (w.call_logsBeside now kind w.main) (w.callAlone_aside now asker kind w.main)
  | after id fragment callback =>
      exact withRefresher_elim
        (fun r => .of_aside (w.after_logsBeside _ _ r) (w.handOver_aside asker _ _ r))
        (hanswers _ _ hsame)
  | call kind id =>
      exact withRefresher_elim
        (fun r => .of_aside (w.call_logsBeside now kind r) (w.callAlone_aside now asker kind r))
        (hanswers _ _ hsame)
  | cycle id fragment =>
      refine withPoller_elim (P := w.BeginsLogging) ?_ (hanswers _ _ hsame)
      intro i p
      split
      · exact hanswers _ _ hsame
      · refine .of_aside (.of_eq rfl) ?_
        simp [Aside, Task.isBroadcast]
  | query id fragment =>
      exact withPoller_elim (fun _ _ => hanswers _ _ hsame) (hanswers _ _ hsame)
  | due id offset =>
      exact withPoller_elim (fun _ _ => hanswers _ _ hsame) (hanswers _ _ hsame)
  | _ => exact hanswers _ _ (.of_eq rfl)

end World

/-! ## Broadcasts on the agenda -/

/-- The broadcast that a task is. -/
def Task.bracket? : Task → Option Bracket
  | .broadcasting _ _ report rest => some ⟨report, rest.length⟩
  | .settling _ _ report _ _ rest => some ⟨report, rest.length + 1⟩
  | _ => none

/-- The broadcasts among tasks. -/
def bracketsOf (tasks : List Task) : List Bracket :=
  tasks.filterMap Task.bracket?

theorem bracketsOf_aside {tasks : List Task} (haside : Aside tasks) : bracketsOf tasks = [] := by
  rw [bracketsOf, List.filterMap_eq_nil_iff]
  intro task htask
  have hbeside := haside task htask
  cases task with
  | broadcasting asker cause report rest => contradiction
  | settling asker cause report called outcome rest => contradiction
  | _ => rfl

theorem bracketsOf_cons (task : Task) (tasks : List Task) :
    bracketsOf (task :: tasks) = task.bracket?.toList ++ bracketsOf tasks :=
  filterMap_cons_eq_append _ _ _

theorem bracketsOf_append (first second : List Task) :
    bracketsOf (first ++ second) = bracketsOf first ++ bracketsOf second :=
  List.filterMap_append

namespace World

/-- The world and the tasks that come after these broadcasts keep the log as it should be. -/
def KeepsLog (w : World) (brackets : List Bracket) (r : World × List Task) : Prop :=
  ∃ es, r.1.logged = w.logged ++ es ∧ ∀ below log warnings,
    Unclosed w.policy (brackets ++ below) log warnings →
      Unclosed w.policy (bracketsOf r.2 ++ below) (log ++ es) warnings

/-- Whatever else is logged, the same broadcasts are under way. -/
theorem KeepsLog.of_beside {w : World} {brackets : List Bracket} {r : World × List Task}
    (hlogs : w.LogsBeside r.1) (hbrackets : bracketsOf r.2 = brackets) : w.KeepsLog brackets r := by
  obtain ⟨es, hes, hlogged⟩ := hlogs
  refine ⟨es, hlogged, fun below log warnings hlog => ?_⟩
  rw [hbrackets]
  exact hlog.append_beside hes

theorem begin_keepsLog (w : World) (now : Instant) (asker : Asker) (c : Command) :
    w.KeepsLog [] (w.begin now asker c) := by
  obtain ⟨es, hes, hlogged⟩ := w.begin_logged now asker c
  rcases w.begin_broadcast now asker c with ⟨cause, kind, htasks, -⟩ | haside
  · refine ⟨_, (hlogged.trans (List.append_assoc _ _ _)), fun below log warnings hlog => ?_⟩
    rw [htasks, ← List.append_assoc]
    exact (hlog.append_beside hes).start kind _
  · rw [begunBy_aside haside] at hlogged
    exact .of_beside ⟨es, hes, by simpa using hlogged⟩ (bracketsOf_aside haside)

theorem perform_keepsLog (w : World) (now : Instant) (task : Task) :
    w.KeepsLog task.bracket?.toList (w.perform now task) := by
  cases task with
  | command asker c => exact w.begin_keepsLog now asker c
  | start callback =>
      exact .of_beside (.of_eq (logged_note w _)) (bracketsOf_aside (aside_program _))
  | cycling asker poller fragment cycle count waiting =>
      cases waiting with
      | nil => exact .of_beside ((w.logsBeside_log rfl).answer asker _) rfl
      | cons callback waiting =>
          refine .of_beside (.of_eq (logged_note w _)) (bracketsOf_aside ?_)
          refine aside_append.mpr ⟨aside_program _, ?_⟩
          simp [Aside, Task.isBroadcast]
  | broadcasting asker cause report rest =>
      cases rest with
      | nil =>
          refine ⟨[report.completedEvent], (logged_answer _ _ _).trans (logged_log _ _), ?_⟩
          exact fun below log warnings hlog => hlog.complete
      | cons r rest =>
          refine .of_beside (w.call_logsBeside now report.kind r) ?_
          rw [perform, bracketsOf_append, bracketsOf_aside (w.call_aside now report.kind r)]
          rfl
  | settling asker cause report called outcome rest =>
      simp only [perform]
      split
      · rename_i next hnext
        exact ⟨_, logged_logAll _ _, fun below log warnings hlog => hlog.settle_ok hnext⟩
      · rename_i e hends
        refine ⟨_, (logged_answer _ _ _).trans (logged_logAll _ _), ?_⟩
        exact fun below log warnings hlog => hlog.settle_error hends
  | answer asker reply => exact .of_beside (w.logsBeside_answer asker reply) rfl

end World

/-! ## Turns and plays -/

/-- The turn leaves the tasks that are on the agenda as they are. -/
def Turn.isBeside : Turn → Bool
  | .move .perform => false
  | .move (.issue ..) => true
  | .move .collect => true
  | .decide _ => false

namespace Machine

/-- What a turn adds to the log.  A session that takes the journal out adds nothing. -/
def logged (m : Machine) (now : Instant) (t : Turn) : List Event :=
  (m.turn now t).world.logged.drop m.world.logged.length

/-- What is logged in a play. -/
def log (m : Machine) : Play → List Event
  | [] => []
  | (now, t) :: play => m.logged now t ++ (m.turn now t).log play

variable {m : Machine}

theorem logged_of_append {now : Instant} {t : Turn} {es : List Event}
    (hlogged : (m.turn now t).world.logged = m.world.logged ++ es) : m.logged now t = es := by
  rw [logged, hlogged, List.drop_left]

theorem logged_of_eq {now : Instant} {t : Turn}
    (hlogged : (m.turn now t).world.logged = m.world.logged) : m.logged now t = [] :=
  logged_of_append (by simp [hlogged])

theorem logged_decide (m : Machine) (now : Instant) (outcome : Except RefreshError Unit) :
    m.logged now (.decide outcome) = [] := by
  apply logged_of_eq
  rw [turn_decide_world]

theorem logged_beside {t : Turn} (ht : t.isBeside = true) (now : Instant) :
    m.logged now t = [] := by
  cases t with
  | decide outcome => contradiction
  | move mv =>
      cases mv with
      | perform => contradiction
      | issue asker c => exact logged_of_eq rfl
      | collect => exact List.drop_nil

/-- Only a session that takes the journal out makes it shorter. -/
theorem turn_logged {t : Turn} (ht : t ≠ .move .collect) (now : Instant) :
    (m.turn now t).world.logged = m.world.logged ++ m.logged now t := by
  cases t with
  | decide outcome => rw [logged_decide, List.append_nil, turn_decide_world]
  | move mv =>
      cases mv with
      | collect => exact absurd rfl ht
      | issue asker c =>
          rw [logged_beside rfl, List.append_nil]
          rfl
      | perform =>
          cases hagenda : m.agenda with
          | nil =>
              have hsame : m.turn now (.move .perform) = m := move_perform_nil now hagenda
              rw [logged_of_eq (by rw [hsame]), hsame, List.append_nil]
          | cons task rest =>
              obtain ⟨es, hlogged, -⟩ := m.world.perform_keepsLog now task
              have hadded : (m.turn now (.move .perform)).world.logged = m.world.logged ++ es := by
                rw [turn, move_perform now hagenda]
                exact hlogged
              rw [logged_of_append hadded, hadded]

/-- A turn keeps the log of what is on top of tasks that it leaves alone. -/
theorem turn_unclosed {above below : List Task} {log warnings : List Event} {t : Turn}
    (now : Instant) (hagenda : m.agenda = above ++ below)
    (ht : above = [] → below = [] ∨ t.isBeside = true)
    (hlog : Unclosed m.world.policy (bracketsOf above) log warnings) :
    ∃ above', (m.turn now t).agenda = above' ++ below ∧
      Unclosed m.world.policy (bracketsOf above') (log ++ m.logged now t) warnings := by
  cases t with
  | decide outcome =>
      rw [logged_decide, List.append_nil]
      rcases m.turn_decide now outcome with
        hsame | ⟨asker, cause, report, script, _, left, _, hsettling, hdecided⟩
      · exact ⟨above, by rw [hsame, hagenda], hlog⟩
      · rw [hagenda] at hsettling
        cases above with
        | nil =>
            obtain rfl | hbeside := ht rfl <;> contradiction
        | cons task above =>
            obtain ⟨rfl, rfl⟩ := List.cons.inj hsettling
            refine ⟨.settling asker cause report (.scripted script) outcome left :: above, ?_, hlog⟩
            rw [hdecided]
            rfl
  | move mv =>
      cases mv with
      | collect =>
          rw [logged_beside rfl, List.append_nil]
          exact ⟨above, hagenda, hlog⟩
      | issue asker c =>
          rw [logged_beside rfl, List.append_nil]
          exact ⟨.command asker c :: above, by simp [turn, move, hagenda], hlog⟩
      | perform =>
          cases above with
          | nil =>
              obtain rfl | hbeside := ht rfl
              · have hsame : m.turn now (.move .perform) = m := move_perform_nil now hagenda
                rw [logged_of_eq (by rw [hsame]), hsame, List.append_nil]
                exact ⟨[], hagenda, hlog⟩
              · contradiction
          | cons task above =>
              obtain ⟨es, hlogged, hkeeps⟩ := m.world.perform_keepsLog now task
              have hmoved := move_perform now hagenda
              have hadded : m.logged now (.move .perform) = es := by
                apply logged_of_append
                rw [turn, hmoved]
                exact hlogged
              refine ⟨(m.world.perform now task).2 ++ above, ?_, ?_⟩
              · rw [turn, hmoved]
                exact (List.append_assoc _ _ _).symm
              · rw [bracketsOf_cons] at hlog
                rw [hadded, bracketsOf_append]
                exact hkeeps _ _ _ hlog

/-- After every turn the log has an opening event for each broadcast on the agenda. -/
theorem played_unclosed {policy : BroadcastPolicy} {log warnings : List Event}
    (hpolicy : m.world.policy = policy)
    (hlog : Unclosed policy (bracketsOf m.agenda) log warnings) (play : Play) :
    Unclosed policy (bracketsOf (m.played play).agenda) (log ++ m.log play) warnings := by
  induction play generalizing m log with
  | nil => simpa [Machine.log, played] using hlog
  | cons head play ih =>
      obtain ⟨now, t⟩ := head
      subst hpolicy
      have hagenda : m.agenda = m.agenda ++ [] := (List.append_nil _).symm
      obtain ⟨agenda, hnext, hlog'⟩ := turn_unclosed (t := t) now hagenda (fun _ => .inl rfl) hlog
      rw [List.append_nil] at hnext
      rw [Machine.log, ← List.append_assoc]
      exact ih (m.turn_policy now t) (by rwa [hnext])

/-- What is logged is what is added to the journal, unless that is taken out meanwhile. -/
theorem played_logged {play : Play} (hplay : ∀ e ∈ play, e.2 ≠ .move .collect) :
    (m.played play).world.logged = m.world.logged ++ m.log play := by
  induction play generalizing m with
  | nil => exact (List.append_nil _).symm
  | cons head play ih =>
      obtain ⟨hhead, hrest⟩ := List.forall_mem_cons.mp hplay
      rw [played, ih hrest, m.turn_logged hhead, log, List.append_assoc]

end Machine

end Session

end PageRefresh
