import PageRefresh.Session.View

/-!
Runs of a session's machine.

A machine moves by performing the first task of its agenda.  Whoever is in control may also ask for
an operation that no program announced, whatever is under way, and a session takes the journal out
between two operations.  A run is any sequence of such moves, each with a reading of the clock.  So
runs cover sessions, callbacks and refreshers that decide only as they run what to do next; the
programs written down in commands are the case in which nobody asks for more.

The agenda is a stack.  A task that lies in it stays where it is, together with all that lies below
it, until it has come to the top and is performed.  A call that returns leaves its reply where
whoever asked for it finds it: a program in the journal, the session in the world (`Replied`).
-/

namespace PageRefresh.Session

/-- What moves a machine. -/
inductive Move where
  /-- The first task of the agenda is performed. -/
  | perform
  /-- An operation is asked for, to be carried out before anything else. -/
  | issue (asker : Asker) (c : Command)
  /-- The session takes out the journal and the reply. -/
  | collect

/-- Moves, each with what the clock reads at it. -/
abbrev Run := List (Instant × Move)

namespace Machine

/-- A session in which nothing has happened and nothing is to be done. -/
def new (policy : BroadcastPolicy) : Machine :=
  ⟨.empty policy, []⟩

/-- The machine after a move.  With an empty agenda there is nothing to perform. -/
def move (m : Machine) (now : Instant) : Move → Machine
  | .perform => (m.step now).getD m
  | .issue asker c => { m with agenda := .command asker c :: m.agenda }
  | .collect => { m with world := { m.world with journal := [], reply := none } }

/-- The machine after a run. -/
def after (m : Machine) : Run → Machine
  | [] => m
  | (now, mv) :: run => (m.move now mv).after run

/-- All through the run, until its last move is made, more than `depth` tasks are to be done.  For
a call that was made on top of `depth` tasks this is the part of a run before it has returned. -/
def StaysAbove (depth : Nat) (m : Machine) : Run → Prop
  | [] => True
  | (now, mv) :: run =>
      depth < m.agenda.length ∧ (m.move now mv).StaysAbove depth run

instance StaysAbove.decidable (depth : Nat) (m : Machine) :
    ∀ run : Run, Decidable (m.StaysAbove depth run)
  | [] => .isTrue trivial
  | (now, mv) :: run =>
      have := decidable depth (m.move now mv) run
      inferInstanceAs (Decidable (_ ∧ _))

theorem move_perform {m : Machine} {task : Task} {rest : List Task} (now : Instant)
    (hagenda : m.agenda = task :: rest) :
    m.move now .perform =
      ⟨(m.world.perform now task).1, (m.world.perform now task).2 ++ rest⟩ := by
  simp [move, step, hagenda]

theorem move_perform_nil {m : Machine} (now : Instant) (hagenda : m.agenda = []) :
    m.move now .perform = m := by
  simp [move, step, hagenda]

/-! ## Replies -/

/-- A call has returned to the tasks in `rest`.  It has given this reply, and these are the records
that were made until then. -/
structure Replied (m : Machine) (asker : Asker) (records : List Record) (reply : Reply)
    (rest : List Task) : Prop where
  agenda : m.agenda = rest
  /-- For a program that asked the reply is noted, as the last record. -/
  journal : m.world.journal = records ++ asker.toList.map fun c => .call (.nested c reply)
  /-- The session is told, if it is the one that asked. -/
  told : asker = none → m.world.reply = some reply

theorem replied_answer (w : World) (asker : Asker) (reply : Reply) (rest : List Task) :
    Replied ⟨w.answer asker reply, rest⟩ asker w.journal reply rest := by
  cases asker with
  | none => exact ⟨rfl, (List.append_nil _).symm, fun _ => rfl⟩
  | some c => exact ⟨rfl, rfl, fun hnone => by contradiction⟩

/-! ## One run after the other -/

theorem after_append (m : Machine) (first second : Run) :
    m.after (first ++ second) = (m.after first).after second := by
  induction first generalizing m with
  | nil => rfl
  | cons head first ih => exact ih (m.move head.1 head.2)

theorem after_concat (m : Machine) (run : Run) (now : Instant) (mv : Move) :
    m.after (run ++ [(now, mv)]) = (m.after run).move now mv :=
  after_append m run [(now, mv)]

theorem staysAbove_append (depth : Nat) (m : Machine) (first second : Run) :
    m.StaysAbove depth (first ++ second) ↔
      m.StaysAbove depth first ∧ (m.after first).StaysAbove depth second := by
  induction first generalizing m with
  | nil => simp [StaysAbove, after]
  | cons head first ih =>
      simp only [List.cons_append, StaysAbove, after, ih, and_assoc]

/-- A run cannot go on above `depth` once only that many tasks are left. -/
theorem StaysAbove.eq_nil {depth : Nat} {m : Machine} {run : Run}
    (habove : m.StaysAbove depth run) (hlength : m.agenda.length = depth) : run = [] := by
  cases run with
  | nil => rfl
  | cons head run =>
      have hlonger := habove.1
      omega

/-- Carrying a machine out to its end is a run that only performs. -/
theorem run_eq_after {m : Machine} {now : Instant} {limit : Nat} {w : World}
    (hrun : m.run now limit = some w) :
    ∃ count, m.after (List.replicate count (now, .perform)) = ⟨w, []⟩ := by
  induction limit generalizing m with
  | zero =>
      obtain ⟨world, agenda⟩ := m
      cases agenda with
      | nil =>
          simp only [run, List.isEmpty_nil, ↓reduceIte, Option.some.injEq] at hrun
          exact ⟨0, by rw [← hrun]; rfl⟩
      | cons task rest => simp [run] at hrun
  | succ limit ih =>
      obtain ⟨world, agenda⟩ := m
      cases agenda with
      | nil =>
          simp only [run, step, Option.some.injEq] at hrun
          exact ⟨0, by rw [← hrun]; rfl⟩
      | cons task rest =>
          obtain ⟨count, hafter⟩ := ih hrun
          refine ⟨count + 1, ?_⟩
          rw [List.replicate_succ]
          exact hafter

end Machine

/-- What a session carries out is a run: the journal is taken out, the operation is asked for, and
tasks are performed until none is left. -/
theorem State.perform_eq_after {s s' : State} {now : Instant} {limit : Nat} {c : Command}
    {view : StepView} (hperform : s.perform now limit c = some (view, s')) :
    ∃ count, (⟨s.world, []⟩ : Machine).after
        ((now, .collect) :: (now, .issue none c) :: List.replicate count (now, .perform)) =
      ⟨s'.world, []⟩ := by
  unfold perform at hperform
  simp only at hperform
  split at hperform
  · contradiction
  · rename_i w hrun
    simp only [Option.some.injEq, Prod.mk.injEq] at hperform
    rw [← hperform.2]
    exact Machine.run_eq_after hrun

namespace Machine

/-- How many tasks lie below what a move performs or adds. -/
def depthOf (m : Machine) : Move → Nat
  | .perform => m.agenda.length - 1
  | .issue .. => m.agenda.length
  | .collect => m.agenda.length

/-- Every move of the run leaves the lowest `depth + 1` tasks alone. -/
def WorksAbove (depth : Nat) (m : Machine) : Run → Prop
  | [] => True
  | (now, mv) :: run => depth < m.depthOf mv ∧ (m.move now mv).WorksAbove depth run

/-- A task of the agenda stays where it is until it has come to the top and is performed. -/
theorem kept_or_performed {m : Machine} {above : List Task} {task : Task} {below : List Task}
    (run : Run) (hagenda : m.agenda = above ++ task :: below) :
    (m.WorksAbove below.length run ∧
        ∃ above, (m.after run).agenda = above ++ task :: below) ∨
      ∃ before now later, run = before ++ (now, .perform) :: later ∧
        m.WorksAbove below.length before ∧ (m.after before).agenda = task :: below := by
  induction run generalizing m above with
  | nil => exact Or.inl ⟨trivial, above, hagenda⟩
  | cons head run ih =>
      obtain ⟨now, mv⟩ := head
      have hnext : ∀ above', below.length < m.depthOf mv →
          (m.move now mv).agenda = above' ++ task :: below →
          (m.WorksAbove below.length ((now, mv) :: run) ∧
              ∃ above, (m.after ((now, mv) :: run)).agenda = above ++ task :: below) ∨
            ∃ before now' later, (now, mv) :: run = before ++ (now', .perform) :: later ∧
              m.WorksAbove below.length before ∧
              (m.after before).agenda = task :: below := by
        intro above' hdepth hmoved
        rcases ih hmoved with ⟨hworks, hkept⟩ | ⟨before, now', later, hrun, hworks, htop⟩
        · exact Or.inl ⟨⟨hdepth, hworks⟩, hkept⟩
        · exact Or.inr ⟨(now, mv) :: before, now', later, by rw [hrun]; rfl,
            ⟨hdepth, hworks⟩, htop⟩
      cases mv with
      | issue asker c =>
          apply hnext (.command asker c :: above)
          · simp only [depthOf, hagenda, List.length_append, List.length_cons]
            omega
          · simp [move, hagenda]
      | collect =>
          apply hnext above
          · simp only [depthOf, hagenda, List.length_append, List.length_cons]
            omega
          · exact hagenda
      | perform =>
          cases above with
          | nil => exact Or.inr ⟨[], now, run, rfl, trivial, hagenda⟩
          | cons first above =>
              apply hnext ((m.world.perform now first).2 ++ above)
              · simp only [depthOf, hagenda, List.cons_append, List.length_cons,
                  List.length_append]
                omega
              · rw [move_perform now hagenda]
                simp

end Machine

end PageRefresh.Session
