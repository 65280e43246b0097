import Mathlib.Algebra.GroupWithZero.Nat
import PageRefresh.Proofs.Session.Journal
import PageRefresh.Proofs.Session.Occurrences

/-!
Programs come to an end.

A callback may queue more than the cycle that started it has taken, and may complete further cycles
on top of that one, so neither queues nor the agenda get shorter from one move to the next.  What
goes down is, first, how many occurrences of callbacks are held, then how many operations lie on the
agenda, and then what is left of the tasks that hold neither (`Plain.lightens`).  So every finite
program over pollers ends (`Plain.ends`), whatever the clock reads meanwhile, and a session answers
all of its operations.
-/

namespace PageRefresh.Session

/-- How many further tasks a task can come to by itself. -/
def Task.chores : Task → Nat
  | .cycling .. => 1
  | .broadcasting _ _ _ rest => 2 * rest.length + 1
  | .settling _ _ _ _ _ rest => 2 * rest.length + 2
  | .answer .. => 1
  | _ => 0

/-- A task that carries out no operation and starts no callback comes to less than before. -/
theorem World.perform_chores (w : World) (now : Instant) (depth : Nat) {task : Task}
    (htask : ∀ r ∈ task.toCall, r.isPlain = true) (hcommand : task.command? = none)
    (hstarted : (w.act depth task).callback? = none) :
    ((w.perform now task).2.map Task.chores).sum < task.chores := by
  cases task with
  | command asker c => contradiction
  | start callback => contradiction
  | cycling asker poller fragment cycle count waiting =>
      cases waiting with
      | nil => simp [perform, Task.chores]
      | cons callback waiting => contradiction
  | broadcasting asker cause report rest =>
      cases rest with
      | nil => simp [perform, Task.chores]
      | cons r rest =>
          have hr : r.isPlain = true := htask r List.mem_cons_self
          have hprogram := call_program (Refresher.quiet_of_isPlain hr) w now report.kind
          simp only [perform, hprogram, List.nil_append, List.map_cons, List.map_nil,
            List.sum_cons, List.sum_nil, Task.chores, List.length_cons]
          omega
  | settling asker cause report called outcome rest =>
      simp only [perform]
      split <;> simp [Task.chores]
  | answer asker reply => simp [perform, Task.chores]

namespace Machine

def chores (m : Machine) : Nat :=
  (m.agenda.map Task.chores).sum

variable {m : Machine}

/-- Every move makes a machine lighter: fewer callbacks, or else fewer operations on the agenda, or
else fewer chores. -/
theorem Plain.lightens {task : Task} {rest : List Task} (hplain : m.Plain) (now : Instant)
    (hagenda : m.agenda = task :: rest) :
    let m' := m.move now .perform
    Prod.Lex (· < ·) (Prod.Lex (· < ·) (· < ·))
      (m'.held.length, (m'.agenda.filterMap Task.command?).length, m'.chores)
      (m.held.length, (m.agenda.filterMap Task.command?).length, m.chores) := by
  intro m'
  obtain ⟨hheld, hcommands⟩ := hplain.performs now hagenda
  have hlength := hheld.length_le
  have hbefore : m.agenda.filterMap Task.command? =
      task.command?.toList ++ rest.filterMap Task.command? := by
    rw [hagenda, filterMap_cons_eq_append]
  cases hstarted : (m.act .perform).callback? with
  | some callback =>
      rw [hstarted, Option.toList_some, List.singleton_append, List.length_cons] at hlength
      exact .left _ _ hlength
  | none =>
      rw [hstarted, Option.toList_none, List.nil_append] at hlength
      have hafter : m'.agenda.filterMap Task.command? = rest.filterMap Task.command? := by
        simpa [hstarted] using hcommands
      rcases Nat.lt_or_eq_of_le hlength with hless | hsame
      · exact .left _ _ hless
      · rw [hsame, hbefore, hafter]
        refine .right _ ?_
        cases hcommand : task.command? with
        | some c => exact .left _ _ (by simp)
        | none =>
            refine .right _ ?_
            rw [act_perform hagenda] at hstarted
            have hless := m.world.perform_chores now rest.length (hplain.next_calls hagenda)
              hcommand hstarted
            simp only [m', chores]
            rw [move_perform now hagenda, hagenda, List.map_append, List.sum_append, List.map_cons,
              List.sum_cons]
            omega

/-- Whatever the clock reads, nothing is left to be done after so many moves. -/
theorem Plain.ends {m : Machine} (hplain : m.Plain) (clock : Nat → Instant) :
    ∃ count, (m.after (performing ((List.range count).map clock))).agenda = [] := by
  cases hagenda : m.agenda with
  | nil => exact ⟨0, hagenda⟩
  | cons task rest =>
      obtain ⟨count, hcount⟩ := Plain.ends (hplain.next (clock 0) hagenda) fun i => clock (i + 1)
      refine ⟨count + 1, ?_⟩
      rw [List.range_succ_eq_map, List.map_cons, List.map_map]
      exact hcount
termination_by (m.held.length, (m.agenda.filterMap Task.command?).length, m.chores)
decreasing_by exact hplain.lightens (clock 0) hagenda

/-- Any limit that lets a machine come to its end is high enough. -/
theorem run_of_after {m : Machine} {now : Instant} {count limit : Nat}
    (hended : (m.after (performing (List.replicate count now))).agenda = [])
    (hlimit : count ≤ limit) :
    m.run now limit = some (m.after (performing (List.replicate count now))).world := by
  induction limit generalizing m count with
  | zero =>
      obtain rfl : count = 0 := by omega
      have hnone : m.agenda = [] := hended
      simp [run, hnone, performing, after]
  | succ limit ih =>
      cases hagenda : m.agenda with
      | nil =>
          have hstays : ∀ clock : List Instant, m.after (performing clock) = m := by
            intro clock
            induction clock with
            | nil => rfl
            | cons now clock ih =>
                rw [performing, List.map_cons, after, move_perform_nil now hagenda]
                exact ih
          rw [hstays]
          simp [run, step, hagenda]
      | cons task rest =>
          cases count with
          | zero =>
              have hnone : m.agenda = [] := hended
              rw [hagenda] at hnone
              contradiction
          | succ count =>
              have hstep : m.step now = some (m.move now .perform) := by
                simp [move, step, hagenda]
              rw [run, hstep, List.replicate_succ]
              exact ih hended (by omega)

theorem started_labels (m : Machine) (run : Run) :
    ((m.history run).filterMap fun e => e.2.label?) = (m.started run).map Callback.label := by
  rw [started, List.map_filterMap]
  refine List.filterMap_congr fun e _ => ?_
  cases e.2 <;> rfl

end Machine

/-! ## Sessions -/

/-- The labels of the callbacks that a step started, first to last. -/
def StepView.started (view : StepView) : List String :=
  view.calls.filterMap fun
    | .callback label => some label
    | _ => none

theorem started_calls (journal : List Record) :
    ((calls journal).filterMap fun
      | .callback label => some label
      | _ => none) = journal.filterMap Record.callback? := by
  rw [calls, List.filterMap_filterMap]
  refine List.filterMap_congr fun r _ => ?_
  cases r with
  | event e => rfl
  | call c => cases c <;> rfl

/-- A session that is asked for these operations, one after the other. -/
def World.asked (w : World) (ops : List Command) : Machine :=
  ⟨w, ops.map (.command none)⟩

namespace World

variable (w : World) (ops : List Command)

theorem asked_commands : (w.asked ops).agenda.filterMap Task.command? = ops := by
  simp [asked, Task.command?, Function.comp_def]

theorem asked_held : (w.asked ops).held = callbacksIn ops ++ w.held := by
  rw [Machine.held, asked, callbacksIn_eq_flatMap, List.flatMap_map]
  rfl

theorem asked_operations :
    (w.asked ops).operations = operationsIn ops ++ w.held.flatMap Callback.body := by
  rw [Machine.operations, asked_commands, asked_held, operationsIn, List.flatMap_append,
    List.append_assoc]

variable {w ops}

theorem asked_plain (hplain : w.Plain)
    (hops : ∀ c ∈ operationsIn ops ++ w.held.flatMap Callback.body, c.isPlain = true) :
    (w.asked ops).Plain := by
  refine ⟨hplain, ?_, ?_⟩
  · intro r hr
    cases ops <;> simp [asked, Machine.toCall, Task.toCall] at hr
  · rwa [asked_operations]

/-- Of an operation and those after it, each part is plain. -/
theorem asked_plain_cons {c : Command} (hplain : (w.asked (c :: ops)).Plain) :
    (w.asked [c]).Plain ∧ ∀ c ∈ operationsIn ops, c.isPlain = true := by
  have hops := hplain.operations
  rw [asked_operations, operationsIn, callbacksIn] at hops
  constructor
  · refine asked_plain hplain.world fun d hd => hops d ?_
    simp only [operationsIn, callbacksIn, List.mem_append, List.flatMap_append, List.mem_cons,
      List.append_nil, List.not_mem_nil, or_false] at hd ⊢
    tauto
  · intro d hd
    refine hops d ?_
    simp only [operationsIn, List.mem_append, List.flatMap_append, List.mem_cons] at hd ⊢
    tauto

end World

/-- An operation of a session is carried out, under any limit that is high enough.  What it started
and what is held afterwards the operation handed over or the session held before. -/
theorem State.perform_plain {s : State} {c : Command} (hplain : (s.world.asked [c]).Plain)
    (now : Instant) :
    ∃ count view s' started, (∀ limit, count ≤ limit → s.perform now limit c = some (view, s')) ∧
      s'.world.Plain ∧ view.started = started.map Callback.label ∧
        (started ++ s'.world.held).Subperm (c.callbacks ++ s.world.held) := by
  let m : Machine := World.asked { s.world with journal := [], reply := none } [c]
  have hm : m.Plain := ⟨⟨hplain.world.names, hplain.world.entries, hplain.world.main⟩,
    hplain.calls, hplain.operations⟩
  have hheld : m.held = c.callbacks ++ s.world.held := by
    rw [World.asked_held, callbacksIn, callbacksIn, List.append_nil]
    rfl
  obtain ⟨count, hended⟩ := hm.ends fun _ => now
  rw [List.map_const', List.length_range] at hended
  let run := Machine.performing (List.replicate count now)
  obtain ⟨hlater, hspent⟩ := hm.run (List.replicate count now)
  rw [hheld] at hspent
  let w := (m.after run).world
  let shown := showVisit s.shown w.shell.visit
  refine ⟨count, ⟨w.reply.getD .done, calls w.journal, events w.journal, w.view shown⟩, ⟨w, shown⟩,
    m.started run, ?_, hlater.world, ?_, ?_⟩
  · intro limit hlimit
    have hrun : Machine.run now limit ⟨_, [.command none c]⟩ = some w :=
      Machine.run_of_after hended hlimit
    simp only [perform, hrun]
    rfl
  · have hnoted := m.noted_run run (by simp [run, Machine.performing])
    rw [Machine.started_labels] at hnoted
    rw [StepView.started, started_calls]
    exact hnoted
  · have hend : (m.after run).held = w.held := by
      rw [Machine.held, hended]
      rfl
    rw [hend] at hspent
    exact hspent

theorem State.performAll_plain {s : State} {ops : List Command}
    (hplain : (s.world.asked ops).Plain) (now : Instant) :
    ∃ count views, (∀ limit, count ≤ limit → s.performAll now limit ops = some views) ∧
      ∃ started : List Callback, views.flatMap StepView.started = started.map Callback.label ∧
        started.Subperm (callbacksIn ops ++ s.world.held) := by
  induction ops generalizing s with
  | nil => exact ⟨0, [], fun _ _ => rfl, [], rfl, List.nil_subperm⟩
  | cons c ops ih =>
      obtain ⟨hfirst, hrest⟩ := World.asked_plain_cons hplain
      obtain ⟨count, view, s', started, hperform, hworld, hlabels, hheld⟩ :=
        perform_plain hfirst now
      have hsubset := hheld.subset
      have hnext : (s'.world.asked ops).Plain := by
        refine World.asked_plain hworld fun d hd => ?_
        rcases List.mem_append.mp hd with hop | hwaits
        · exact hrest d hop
        · obtain ⟨callback, hcallback, hbody⟩ := List.mem_flatMap.mp hwaits
          have hbefore := hsubset (List.mem_append_right _ hcallback)
          refine hplain.operations d (List.mem_append_right _ (List.mem_flatMap.mpr
            ⟨callback, ?_, hbody⟩))
          rw [World.asked_held, callbacksIn]
          simp only [List.mem_append] at hbefore ⊢
          tauto
      obtain ⟨more, views, hperformAll, later, hlaterLabels, hlater⟩ := ih hnext
      refine ⟨max count more, view :: views, ?_, started ++ later, ?_, ?_⟩
      · intro limit hlimit
        rw [performAll, hperform limit (by omega)]
        simp [hperformAll limit (by omega)]
      · rw [List.flatMap_cons, hlabels, hlaterLabels, List.map_append]
      · rw [callbacksIn, List.append_assoc]
        refine ((List.subperm_append_left started).mpr hlater).trans ?_
        refine (List.perm_append_comm_assoc _ _ _).subperm.trans ?_
        refine ((List.subperm_append_left (callbacksIn ops)).mpr hheld).trans ?_
        exact (List.perm_append_comm_assoc _ _ _).subperm

/-- The operations that a machine was asked for come to an end.  The callbacks of its text are those
that occur in the operations and those that already wait. -/
structure Machine.Ends (m : Machine) (text : List Callback) : Prop where
  /-- Whatever the clock reads, nothing is left to be done in the end. -/
  ended : ∀ clock : Nat → Instant, ∃ count,
    (m.after (performing ((List.range count).map clock))).agenda = []
  /-- At every point, what was started and what is still held occurred in the text, each at its own
  place, ... -/
  spent : ∀ clock : List Instant,
    (m.started (performing clock) ++ (m.after (performing clock)).held).Subperm text
  /-- ... so no more is started than occurred, ... -/
  bounded : ∀ clock : List Instant, (m.started (performing clock)).length ≤ text.length
  /-- ... and none twice that occurred once. -/
  distinct : text.Nodup → ∀ clock : List Instant, (m.started (performing clock)).Nodup

/-- Of pollers and refreshers that do nothing, every finite program comes to an end, and starts each
callback of its text at most once; a session answers all of its operations, and shows no more starts
than the text has callbacks. -/
theorem finite_programs_end {w : World} (hplain : w.Plain) (ops : List Command)
    (hops : ∀ c ∈ operationsIn ops ++ w.held.flatMap Callback.body, c.isPlain = true) :
    (w.asked ops).Ends (callbacksIn ops ++ w.held) ∧
      ∀ shown now, ∃ count views,
        (∀ limit, count ≤ limit → State.performAll ⟨w, shown⟩ now limit ops = some views) ∧
          (views.flatMap StepView.started).Subperm
            ((callbacksIn ops ++ w.held).map Callback.label) := by
  let m := w.asked ops
  let text := callbacksIn ops ++ w.held
  have hm : m.Plain := World.asked_plain hplain hops
  have hheld : m.held = text := w.asked_held ops
  have hspent : ∀ clock : List Instant,
      (m.started (Machine.performing clock) ++
        (m.after (Machine.performing clock)).held).Subperm text :=
    fun clock => hheld ▸ (hm.run clock).2
  have hstarted : ∀ clock : List Instant, (m.started (Machine.performing clock)).Subperm text :=
    fun clock => (List.sublist_append_left _ _).subperm.trans (hspent clock)
  refine ⟨⟨hm.ends, hspent, fun clock => (hstarted clock).length_le, ?_⟩, ?_⟩
  · intro hdistinct clock
    obtain ⟨chosen, hperm, hsublist⟩ := hstarted clock
    exact hperm.nodup_iff.mp (hdistinct.sublist hsublist)
  · intro shown now
    obtain ⟨count, views, hperform, started, hlabels, hshown⟩ :=
      State.performAll_plain (s := ⟨w, shown⟩) hm now
    refine ⟨count, views, hperform, ?_⟩
    rw [hlabels]
    obtain ⟨chosen, hperm, hsublist⟩ := hshown
    exact ⟨chosen.map Callback.label, hperm.map _, hsublist.map _⟩

/-- A callback that queues another one for the fragment whose cycle runs it, completes that cycle
once more and calls for a broadcast. -/
def renewing : Callback :=
  .mk "renewing" [.after "p" "f" (.mk "renewed" [.cycle "p" "f"]), .cycle "p" "f",
    .broadcast .restart, .enterPage "home"]

/-- A cycle is completed for which `renewing` waits. -/
def renewingProgram : List Command :=
  [.poller "p" ["f"] (.ofSecs 10), .addMain "p", .after "p" "f" renewing, .cycle "p" "f"]

/-- Three cycles of one fragment, each within the one before. -/
theorem renewing_program_ends :
    let m := (World.empty .isolate).asked renewingProgram
    (∃ count, (m.after (Machine.performing (List.replicate count ⟨0⟩))).agenda = []) ∧
      (m.started (Machine.performing (List.replicate 12 ⟨0⟩))).map Callback.label =
        ["renewing", "renewed"] ∧
      (m.started (Machine.performing (List.replicate 12 ⟨0⟩))).length ≤ 2 ∧
      ∃ count views, State.performAll (.start .isolate) ⟨0⟩ count renewingProgram = some views := by
  intro m
  obtain ⟨hends, hsession⟩ :=
    finite_programs_end (World.plain_empty .isolate) renewingProgram (by decide)
  obtain ⟨count, hended⟩ := hends.ended fun _ => ⟨0⟩
  rw [List.map_const', List.length_range] at hended
  obtain ⟨limit, views, hviews, -⟩ := hsession [] ⟨0⟩
  exact ⟨⟨count, hended⟩, by decide +kernel, hends.bounded (List.replicate 12 ⟨0⟩), limit, views,
    hviews limit le_rfl⟩

end PageRefresh.Session
