import PageRefresh.Proofs.Session.Act
import PageRefresh.Proofs.Session.Broadcast

/-!
Plays: runs in which refreshers decide as they are called whether they fail.

A scripted refresher answers every call of one kind alike.  Refreshers at large need not: whether
one fails may hang on anything that happened before.  A play is a run in which, besides the moves
of the machine, the refresher that a broadcast has just called may answer otherwise than its script
says.  Pollers and the refresher that does nothing never fail, and no turn changes that.

What a play does to the page shell and to the names is said once: an operation changes them as
`World.shellAfter` and `World.namesAfter` say, and nothing else does (`turn_setting_of_none`).
-/

namespace PageRefresh.Session

/-- What moves a session whose refreshers decide for themselves. -/
inductive Turn where
  | move (mv : Move)
  /-- The refresher that was just called by a broadcast answers so. -/
  | decide (outcome : Except RefreshError Unit)

/-- Turns, each with what the clock reads at it. -/
abbrev Play := List (Instant × Turn)

namespace Machine

/-- The machine after a turn.  Only a scripted refresher whose program has ended can decide. -/
def turn (m : Machine) (now : Instant) : Turn → Machine
  | .move mv => m.move now mv
  | .decide outcome =>
      match m.agenda with
      | .settling asker cause report (.scripted script) _ rest :: below =>
          { m with
            agenda := .settling asker cause report (.scripted script) outcome rest :: below }
      | _ => m

/-- A refresher that decides changes the answer that waits to be taken in, or nothing. -/
theorem turn_decide (m : Machine) (now : Instant) (outcome : Except RefreshError Unit) :
    m.turn now (.decide outcome) = m ∨
      ∃ asker cause report script before left rest,
        m.agenda = .settling asker cause report (.scripted script) before left :: rest ∧
          m.turn now (.decide outcome) =
            ⟨m.world, .settling asker cause report (.scripted script) outcome left :: rest⟩ := by
  rw [turn]
  split
  · rename_i asker cause report script before left rest hagenda
    exact .inr ⟨asker, cause, report, script, before, left, rest, hagenda, rfl⟩
  · exact .inl rfl

@[simp]
theorem turn_decide_world (m : Machine) (now : Instant) (outcome : Except RefreshError Unit) :
    (m.turn now (.decide outcome)).world = m.world := by
  rcases m.turn_decide now outcome with hsame | ⟨_, _, _, _, _, _, _, -, hdecided⟩
  · rw [hsame]
  · rw [hdecided]

/-- The machine after a play. -/
def played (m : Machine) : Play → Machine
  | [] => m
  | (now, t) :: play => (m.turn now t).played play

/-- What is noted of the turns of a play, first to last. -/
def trail {α : Type} (note : Machine → Instant → Turn → Option α) (m : Machine) : Play → List α
  | [] => []
  | (now, t) :: play => (note m now t).toList ++ (m.turn now t).trail note play

/-- Every turn of the play meets a condition where it is made. -/
def Throughout (cond : Machine → Instant → Turn → Prop) (m : Machine) : Play → Prop
  | [] => True
  | (now, t) :: play => cond m now t ∧ (m.turn now t).Throughout cond play

instance Throughout.decidable {cond : Machine → Instant → Turn → Prop}
    [∀ m now t, Decidable (cond m now t)] (m : Machine) :
    ∀ play : Play, Decidable (m.Throughout cond play)
  | [] => .isTrue trivial
  | (now, t) :: play =>
      have : Decidable ((m.turn now t).Throughout cond play) :=
        Throughout.decidable (m.turn now t) play
      inferInstanceAs (Decidable (cond m now t ∧ (m.turn now t).Throughout cond play))

theorem played_append (m : Machine) (first second : Play) :
    m.played (first ++ second) = (m.played first).played second := by
  induction first generalizing m with
  | nil => rfl
  | cons head first ih => exact ih (m.turn head.1 head.2)

theorem trail_append {α : Type} (note : Machine → Instant → Turn → Option α) (m : Machine)
    (first second : Play) :
    m.trail note (first ++ second) = m.trail note first ++ (m.played first).trail note second := by
  induction first generalizing m with
  | nil => rfl
  | cons head first ih => simp only [List.cons_append, trail, played, ih, List.append_assoc]

theorem throughout_append {cond : Machine → Instant → Turn → Prop} (m : Machine)
    (first second : Play) :
    m.Throughout cond (first ++ second) ↔
      m.Throughout cond first ∧ (m.played first).Throughout cond second := by
  induction first generalizing m with
  | nil => simp [Throughout, played]
  | cons head first ih => simp only [List.cons_append, Throughout, played, ih, and_assoc]

/-- A run is a play in which every refresher keeps to its script. -/
theorem played_of_run (m : Machine) (run : Run) :
    m.played (run.map fun e => (e.1, .move e.2)) = m.after run := by
  induction run generalizing m with
  | nil => rfl
  | cons head run ih => exact ih (m.move head.1 head.2)

end Machine

/-! ## The page shell and the names, operation by operation -/

namespace World

/-- The page shell once an operation has begun to be carried out. -/
def shellAfter (w : World) : Command → Shell Refresher
  | .add id =>
      match w.find? id with
      | some r => w.shell.mapRegistry (·.add r)
      | none => w.shell
  | .addMain id =>
      match w.find? id with
      | some r => w.shell.mapRegistry (·.addMain r)
      | none => w.shell
  | .readdMain => w.shell.mapRegistry (·.addMain w.main)
  | .clear => w.shell.mapRegistry Registry.clear
  | .openModal => w.shell.openModal
  | .closeModal =>
      match w.shell.closesWith with
      | .ok _ => w.shell.closeModal
      | .error _ => w.shell
  | .enterPage name => w.shell.enterPage name
  | .leave => w.shell.leave
  | _ => w.shell

/-- The names once an operation has begun to be carried out. -/
def namesAfter (w : World) : Command → List (String × Refresher)
  | .poller id _ _ => (w.bind id (.poller w.pollers.length)).names
  | .scripted id script => (w.bind id (.scripted script)).names
  | .anonymous id script => (w.bind id (.scripted script.anonymous)).names
  | .noop id => (w.bind id .noop).names
  | _ => w.names

/-- What only operations change: the page shell and the names. -/
def setting (w : World) : Shell Refresher × List (String × Refresher) :=
  (w.shell, w.names)

@[simp]
theorem setting_answer (w : World) (asker : Asker) (reply : Reply) :
    (w.answer asker reply).setting = w.setting := by
  cases asker <;> rfl

theorem call_setting (w : World) (now : Instant) (kind : BroadcastKind) (r : Refresher) :
    (w.call now kind r).1.setting = w.setting := by
  cases r with
  | poller i => cases hp : w.pollers[i]? <;> cases kind <;> simp [call, hp, setting, setPoller, log]
  | _ => rfl

theorem after_setting (w : World) (fragment : String) (callback : Callback) (r : Refresher) :
    (w.after fragment callback r).1.setting = w.setting := by
  cases r with
  | noop => rfl
  | scripted script => rfl
  | poller i =>
      cases hp : w.pollers[i]? with
      | none => simp [after, hp]
      | some p =>
          cases howns : p.owns fragment <;> simp [after, hp, howns, setting, setPoller, log]

theorem withPoller_setting {w : World} {asker : Asker} {id : String}
    {f : Nat → Poller Callback → World × List Task} (hf : ∀ i p, (f i p).1.setting = w.setting) :
    (w.withPoller asker id f).1.setting = w.setting :=
  withPoller_elim (P := fun r => r.1.setting = w.setting) hf (setting_answer _ _ _)

theorem withRefresher_setting {w : World} {asker : Asker} {id : String}
    {f : Refresher → World × List Task} (hf : ∀ r, (f r).1.setting = w.setting) :
    (w.withRefresher asker id f).1.setting = w.setting :=
  withRefresher_elim (P := fun r => r.1.setting = w.setting) hf (setting_answer _ _ _)

theorem begin_setting (w : World) (now : Instant) (asker : Asker) (c : Command) :
    (w.begin now asker c).1.setting = (w.shellAfter c, w.namesAfter c) := by
  cases c with
  | add id =>
      simp only [begin, shellAfter, namesAfter, withRefresher]
      cases w.find? id <;> exact setting_answer _ _ _
  | addMain id =>
      simp only [begin, shellAfter, namesAfter, withRefresher]
      cases w.find? id <;> exact setting_answer _ _ _
  | openModal =>
      simp only [begin, shellAfter, openModal]
      split
      · rfl
      · exact setting_answer _ _ _
  | closeModal =>
      simp only [begin, shellAfter, closeModal]
      cases w.shell.closesWith with
      | error e => exact setting_answer _ _ _
      | ok cause =>
          cases cause with
          | none => exact setting_answer _ _ _
          | some kind => rfl
  | afterMain fragment callback => exact w.after_setting fragment callback w.main
  | callMain kind => exact w.call_setting now kind w.main
  | after id fragment callback => exact withRefresher_setting fun r => w.after_setting _ _ r
  | call kind id => exact withRefresher_setting fun r => w.call_setting now kind r
  | query id fragment => exact withPoller_setting fun i p => setting_answer _ _ _
  | due id offset => exact withPoller_setting fun i p => setting_answer _ _ _
  | cycle id fragment =>
      apply withPoller_setting
      intro i p
      split
      · exact setting_answer _ _ _
      · rfl
  | broadcast kind => rfl
  | _ => exact setting_answer _ _ _

theorem perform_setting {w : World} {now : Instant} {task : Task}
    (htask : ∀ asker c, task ≠ .command asker c) :
    (w.perform now task).1.setting = w.setting := by
  cases task with
  | command asker c => exact absurd rfl (htask asker c)
  | start callback => rfl
  | cycling asker poller fragment cycle count waiting =>
      cases waiting with
      | nil => exact setting_answer _ _ _
      | cons callback waiting => rfl
  | broadcasting asker cause report rest =>
      cases rest with
      | nil => exact setting_answer _ _ _
      | cons r rest => exact w.call_setting now report.kind r
  | settling asker cause report called outcome rest =>
      simp only [perform]
      split
      · rfl
      · exact setting_answer _ _ _
  | answer asker reply => exact setting_answer _ _ _

end World

namespace Machine

/-- The operation that a turn begins to carry out. -/
def command? (m : Machine) : Turn → Option Command
  | .move .perform =>
      match m.agenda with
      | .command _ c :: _ => some c
      | _ => none
  | _ => none

theorem agenda_of_command? {m : Machine} {t : Turn} {c : Command}
    (hcommand : m.command? t = some c) :
    t = .move .perform ∧ ∃ asker rest, m.agenda = .command asker c :: rest := by
  unfold command? at hcommand
  split at hcommand
  · split at hcommand
    · rename_i asker c' rest hagenda
      rw [Option.some.injEq] at hcommand
      rw [← hcommand]
      exact ⟨rfl, asker, rest, hagenda⟩
    · contradiction
  · contradiction

theorem turn_setting_of_none {m : Machine} {t : Turn} (now : Instant)
    (hcommand : m.command? t = none) : (m.turn now t).world.setting = m.world.setting := by
  cases t with
  | decide outcome => rw [turn_decide_world]
  | move mv =>
      cases mv with
      | issue asker c => rfl
      | collect => rfl
      | perform =>
          cases hagenda : m.agenda with
          | nil => rw [turn, move_perform_nil now hagenda]
          | cons task rest =>
              rw [turn, move_perform now hagenda]
              apply World.perform_setting
              rintro asker c rfl
              simp [command?, hagenda] at hcommand

theorem turn_setting_of_some {m : Machine} {t : Turn} {c : Command} (now : Instant)
    (hcommand : m.command? t = some c) :
    (m.turn now t).world.setting = (m.world.shellAfter c, m.world.namesAfter c) := by
  obtain ⟨rfl, asker, rest, hagenda⟩ := agenda_of_command? hcommand
  rw [turn, move_perform now hagenda]
  exact m.world.begin_setting now asker c

/-- An operation changes the shell as it should, and nothing else changes it. -/
theorem turn_shell (m : Machine) (now : Instant) (t : Turn) :
    (m.turn now t).world.shell = ((m.command? t).map m.world.shellAfter).getD m.world.shell := by
  cases hcommand : m.command? t with
  | none => exact congrArg Prod.fst (turn_setting_of_none now hcommand)
  | some c => exact congrArg Prod.fst (turn_setting_of_some now hcommand)

end Machine

/-! ## The broadcasts that a play begins -/

/-- A broadcast as it begins. -/
structure Broadcast where
  cause : Cause
  kind : BroadcastKind
  /-- The refreshers registered at that moment. -/
  entries : List Refresher

/-- The broadcast that these tasks begin. -/
def begunBy : List Task → Option Broadcast
  | [.broadcasting _ cause report entries] => some ⟨cause, report.kind, entries⟩
  | _ => none

namespace Machine

/-- The broadcast that a turn begins. -/
def begun? (m : Machine) (now : Instant) : Turn → Option Broadcast
  | .move .perform =>
      match m.agenda with
      | .command asker c :: _ => begunBy (m.world.begin now asker c).2
      | _ => none
  | _ => none

theorem begun?_command {m : Machine} {asker : Asker} {c : Command} {rest : List Task}
    (now : Instant) (hagenda : m.agenda = .command asker c :: rest) :
    m.begun? now (.move .perform) = begunBy (m.world.begin now asker c).2 := by
  simp [begun?, hagenda]

/-- The broadcasts that a play begins, first to last. -/
def broadcasts (m : Machine) (play : Play) : List Broadcast :=
  m.trail begun? play

end Machine

end PageRefresh.Session
