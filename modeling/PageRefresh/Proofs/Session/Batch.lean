import PageRefresh.Proofs.Session.Custody

/-!
What one completed cycle starts.

A cycle that was accepted works through the batch of callbacks that it took.  Between two of them
anything may happen above its task: cycles of the same fragment, callbacks queued again, the poller
stopped, the registry cleared.  The task itself is out of reach, so what it has started, followed by
what it still holds, stays the batch (`loop_run`).
-/

namespace PageRefresh.Session

/-! ## The starts of one loop -/

namespace History

/-- The callbacks that cycles with so many tasks below them started. -/
def startsAt (h : History) (depth : Nat) : List Start :=
  h.starts.filter fun s => s.depth == depth

/-- The callbacks of a fragment that other cycles started. -/
def startedElsewhere (h : History) (i : Nat) (fragment : String) (depth : Nat) : List Callback :=
  (h.starts.filter fun s => s.isFor i fragment && s.depth != depth).map Start.callback

theorem startsAt_append (first second : History) (depth : Nat) :
    (first ++ second).startsAt depth = first.startsAt depth ++ second.startsAt depth := by
  simp [startsAt, starts]

theorem startsAt_cons (now : Instant) (a : Act) (h : History) (depth : Nat) :
    startsAt ((now, a) :: h) depth =
      a.start?.toList.filter (fun s => s.depth == depth) ++ h.startsAt depth := by
  simp [startsAt, starts, filterMap_cons_eq_append]

theorem startedFor_eq (h : History) (i : Nat) (fragment : String) :
    h.startedFor i fragment =
      (h.starts.filter fun s => s.isFor i fragment).map Start.callback := by
  induction h with
  | nil => rfl
  | cons head h ih =>
      simp only [startedFor, starts, filterMap_cons_eq_append] at ih ⊢
      rw [ih, List.filter_append, List.map_append]
      congr 1
      cases head.2 with
      | started s => cases hfor : s.isFor i fragment <;> simp [Act.startedFor?, Act.start?, hfor]
      | _ => rfl

end History

theorem Machine.WorksAbove.startsAt_eq_nil {depth : Nat} {m : Machine} {run : Run}
    (hworks : m.WorksAbove depth run) : (m.history run).startsAt depth = [] := by
  rw [History.startsAt, List.filter_eq_nil_iff]
  intro s hs
  have hlt := hworks.depth_lt.1 s hs
  simp only [beq_iff_eq]
  omega

/-- What a loop starts, whoever makes the machine move and however: first the callbacks of its
batch that it does not hold any more, and, when it has returned, all of them. -/
theorem Machine.loop_run {m : Machine} {above rest : List Task} {asker : Asker}
    {i cycle count : Nat} {fragment : String} {waiting : List Callback} {run : Run}
    (hagenda : m.agenda = above ++ .cycling asker i fragment cycle count waiting :: rest)
    (habove : m.StaysAbove rest.length run) :
    (∃ above left,
        (m.after run).agenda = above ++ .cycling asker i fragment cycle count left :: rest ∧
          (m.history run).startsAt rest.length ++ left.map (⟨i, fragment, rest.length, ·⟩) =
            waiting.map (⟨i, fragment, rest.length, ·⟩)) ∨
      (m.history run).startsAt rest.length = waiting.map (⟨i, fragment, rest.length, ·⟩) ∧
        ∃ records, (m.after run).Replied asker
          (records ++ [.event (.cycleCompleted fragment cycle count)]) (.ran count) rest := by
  induction waiting generalizing m above run with
  | nil =>
      rcases kept_or_performed run hagenda with
        ⟨hworks, above', hkept⟩ | ⟨before, now, later, rfl, hworks, htop⟩
      · exact Or.inl ⟨above', [], hkept, by simp [hworks.startsAt_eq_nil]⟩
      have hact : (m.after before).act .perform = .finished i fragment count := by
        rw [act_perform htop]
        rfl
      have hreturned := move_perform now htop
      obtain ⟨-, hlaterAbove⟩ := (staysAbove_append _ _ _ _).mp habove
      obtain rfl : later = [] := hlaterAbove.2.eq_nil (by rw [hreturned]; rfl)
      rw [after_append, history_append, History.startsAt_append, hworks.startsAt_eq_nil, after,
        hreturned]
      refine Or.inr ⟨?_, _, replied_answer _ asker (.ran count) rest⟩
      simp [history, hact, Act.start?, History.startsAt, History.starts]
  | cons callback waiting ih =>
      rcases kept_or_performed run hagenda with
        ⟨hworks, above', hkept⟩ | ⟨before, now, later, rfl, hworks, htop⟩
      · exact Or.inl ⟨above', callback :: waiting, hkept, by simp [hworks.startsAt_eq_nil]⟩
      have hact : (m.after before).act .perform =
          .started ⟨i, fragment, rest.length, callback⟩ := by
        rw [act_perform htop]
        rfl
      have hstarted : ((m.after before).move now .perform).agenda =
          program callback.body ++ .cycling asker i fragment cycle count waiting :: rest := by
        rw [move_perform now htop]
        simp [World.perform, World.startCallback]
      obtain ⟨-, hlaterAbove⟩ := (staysAbove_append _ _ _ _).mp habove
      have hstarts : (m.history (before ++ (now, .perform) :: later)).startsAt rest.length =
          ⟨i, fragment, rest.length, callback⟩ ::
            (((m.after before).move now .perform).history later).startsAt rest.length := by
        rw [history_append, History.startsAt_append, hworks.startsAt_eq_nil, history,
          History.startsAt_cons, hact]
        simp [Act.start?]
      rw [hstarts, after_append, after]
      rcases ih hstarted hlaterAbove.2 with ⟨above', left, hkept, hbatch⟩ | ⟨hbatch, hreplied⟩
      · refine Or.inl ⟨above', left, hkept, ?_⟩
        rw [List.map_cons, List.cons_append, hbatch]
      · refine Or.inr ⟨?_, hreplied⟩
        rw [List.map_cons, hbatch]

/-! ## A completed cycle and its batch -/

namespace Machine

variable {m : Machine} {asker : Asker} {id fragment : String} {rest : List Task}
  {i : Nat} {p : Poller Callback}

/-- An accepted cycle takes the queue of its fragment as its batch. -/
theorem move_cycle (now : Instant)
    (hagenda : m.agenda = .command asker (.cycle id fragment) :: rest)
    (hfind : m.world.findPoller? id = some (i, p)) (howns : p.owns fragment = true)
    (hrunning : p.isRunning = true) :
    m.act .perform = .began i fragment ∧
      (m.move now .perform).agenda =
        .cycling asker i fragment (p.cycles fragment + 1) (p.queue fragment).length
          (p.queue fragment) :: rest := by
  constructor
  · rw [act_perform hagenda]
    simp [World.act, World.commandAct, hfind, howns, hrunning]
  · rw [move_perform now hagenda]
    simp [World.perform, World.begin, World.withPoller, hfind, Poller.complete, howns, hrunning]

end Machine

/-- The callbacks that a history starts for a fragment are those started at a depth, which all are
for the fragment, and the others. -/
theorem History.startedFor_perm (h : History) {i depth : Nat} {fragment : String}
    (hown : ∀ s ∈ h.startsAt depth, s.isFor i fragment = true) :
    (h.startedFor i fragment).Perm
      ((h.startsAt depth).map Start.callback ++ h.startedElsewhere i fragment depth) := by
  have hat : h.startsAt depth =
      (h.starts.filter fun s => s.isFor i fragment).filter fun s => s.depth == depth := by
    rw [← List.filter_eq_self.mpr hown, startsAt, List.filter_filter, List.filter_filter]
    simp only [Bool.and_comm]
  have helsewhere : (h.starts.filter fun s => s.isFor i fragment && s.depth != depth) =
      (h.starts.filter fun s => s.isFor i fragment).filter fun s => !(s.depth == depth) := by
    rw [List.filter_filter]
    simp only [Bool.and_comm, bne]
  rw [startedFor_eq, startedElsewhere, helsewhere, hat, ← List.map_append]
  exact (List.filter_append_perm _ _).symm.map _

/-- In the run a cycle of the fragment works through its batch, on top of the tasks in `rest`. -/
structure Machine.WorksThrough (m : Machine) (asker : Asker) (i : Nat) (fragment : String)
    (cycle : Nat) (batch : List Callback) (rest : List Task) (run : Run) : Prop where
  /-- As long as the call has not returned, it has started the first callbacks of the batch. -/
  begun : (m.history run).startsAt rest.length <+: batch.map (⟨i, fragment, rest.length, ·⟩)
  /-- When it has returned, it has started all of them, each once and in order. -/
  started : (m.after run).agenda.length = rest.length →
    (m.history run).startsAt rest.length = batch.map (⟨i, fragment, rest.length, ·⟩)
  /-- It logs the cycle and replies how many there were. -/
  replied : (m.after run).agenda.length = rest.length →
    ∃ records, (m.after run).Replied asker
      (records ++ [.event (.cycleCompleted fragment cycle batch.length)]) (.ran batch.length) rest
  /-- What was queued meanwhile was started by another cycle, or waits. -/
  requeued : (m.after run).agenda.length = rest.length →
    ((m.history run).queuedFor i fragment).Perm
      ((m.history run).startedElsewhere i fragment rest.length ++
        (m.after run).queue i fragment)

/-- A completed cycle starts the callbacks that waited when it was called, each once and in order,
and replies how many there were; nothing that happens meanwhile changes that. -/
theorem cycle_isolates_batch {m : Machine} {now : Instant} {asker : Asker} {id fragment : String}
    {rest : List Task} {i : Nat} {p : Poller Callback} {run : Run}
    (hagenda : m.agenda = .command asker (.cycle id fragment) :: rest)
    (hfind : m.world.findPoller? id = some (i, p)) (howns : p.owns fragment = true)
    (hrunning : p.isRunning = true)
    (habove : (m.move now .perform).StaysAbove rest.length run) :
    (m.move now .perform).WorksThrough asker i fragment (p.cycles fragment + 1)
      (p.queue fragment) rest run := by
  let called := m.move now .perform
  let ended := called.after run
  let h := called.history run
  obtain ⟨hact, hcalled⟩ := Machine.move_cycle now hagenda hfind howns hrunning
  have hloop : called.agenda =
      [] ++ .cycling asker i fragment (p.cycles fragment + 1) (p.queue fragment).length
        (p.queue fragment) :: rest := hcalled
  rcases Machine.loop_run hloop habove with ⟨above, left, hkept, hbatch⟩ | ⟨hbatch, hreplied⟩
  · have hopen : ended.agenda.length ≠ rest.length := by
      simp only [ended, hkept, List.length_append, List.length_cons]
      omega
    exact ⟨⟨_, hbatch⟩, fun hend => absurd hend hopen, fun hend => absurd hend hopen,
      fun hend => absurd hend hopen⟩
  refine ⟨⟨[], (List.append_nil _).trans hbatch⟩, fun _ => hbatch, fun _ => hreplied, fun _ => ?_⟩
  have hend : ended.agenda = rest := by
    obtain ⟨records, hlast⟩ := hreplied
    exact hlast.agenda
  have hqueue : m.queue i fragment = p.queue fragment := by
    simp only [Machine.queue, queueAt]
    rw [World.getElem?_of_findPoller? hfind]
  have hflight : ended.inFlight i fragment = m.inFlight i fragment := by
    rw [Machine.inFlight, Machine.inFlight, Machine.frames, Machine.frames, hagenda, hend]
    rfl
  have hcustody : (p.queue fragment ++ m.inFlight i fragment ++ h.queuedFor i fragment).Perm
      (h.startedFor i fragment ++ (m.inFlight i fragment ++ ended.queue i fragment)) := by
    have hrun := called.custody_run_perm i fragment run
    rwa [m.custody_began now .perform i fragment hact, hqueue, Machine.custody, hflight] at hrun
  have hstarted : (h.startedFor i fragment).Perm
      (p.queue fragment ++ h.startedElsewhere i fragment rest.length) := by
    have hown : ∀ s ∈ h.startsAt rest.length, s.isFor i fragment = true := by
      intro s hs
      rw [hbatch, List.mem_map] at hs
      obtain ⟨c, -, rfl⟩ := hs
      simp [Start.isFor]
    have hperm := h.startedFor_perm hown
    rw [hbatch, List.map_map] at hperm
    simpa [Function.comp_def] using hperm
  have hall : (p.queue fragment ++ (m.inFlight i fragment ++ h.queuedFor i fragment)).Perm
      (p.queue fragment ++ (m.inFlight i fragment ++
        (h.startedElsewhere i fragment rest.length ++ ended.queue i fragment))) := by
    rw [← List.append_assoc]
    refine hcustody.trans ((hstarted.append_right _).trans ?_)
    rw [List.append_assoc]
    refine List.Perm.append_left _ ?_
    rw [← List.append_assoc, ← List.append_assoc]
    exact List.perm_append_comm.append_right _
  exact (List.perm_append_left_iff _).mp ((List.perm_append_left_iff _).mp hall)

/-- A callback that works against the cycle that started it. -/
def interfere : Callback :=
  .mk "c" [.call .stop "p", .clear, .call .restart "p", .after "p" "f" followUp, .cycle "p" "f",
    .call .stop "p"]

/-- A cycle of a fragment is called for which `interfere` and `requeue` wait. -/
def interferedRun : Run :=
  [.issue none (.poller "p" ["f"] (.ofSecs 10)), .perform,
    .issue none (.after "p" "f" interfere), .perform, .perform,
    .issue none (.after "p" "f" requeue), .perform, .perform,
    .issue none (.cycle "p" "f")].map (⟨0⟩, ·)

theorem cycle_isolates_batch_interfere :
    let called := ((Machine.new .isolate).after interferedRun).move ⟨0⟩ .perform
    let run := List.replicate 17 (⟨0⟩, Move.perform)
    let h := called.history run
    (called.after run).agenda = [] ∧ (called.after run).world.reply = some (.ran 2) ∧
      h.startsAt 0 = [⟨0, "f", 0, interfere⟩, ⟨0, "f", 0, requeue⟩] ∧
      (h.queuedFor 0 "f").Perm ([followUp] ++ [followUp]) := by
  have hagenda : ((Machine.new .isolate).after interferedRun).agenda =
      .command none (.cycle "p" "f") :: [] := rfl
  have hfind : ((Machine.new .isolate).after interferedRun).world.findPoller? "p" =
      some (0, _) := rfl
  have habove : (((Machine.new .isolate).after interferedRun).move ⟨0⟩ .perform).StaysAbove
      ([] : List Task).length (List.replicate 17 (⟨0⟩, Move.perform)) := by
    decide
  have hworks := cycle_isolates_batch hagenda hfind rfl rfl habove
  obtain ⟨records, hreplied⟩ := hworks.replied rfl
  exact ⟨hreplied.agenda, hreplied.told rfl, hworks.started rfl, hworks.requeued rfl⟩

end PageRefresh.Session
