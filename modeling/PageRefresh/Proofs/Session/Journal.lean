import PageRefresh.Proofs.Session.History

/-!
Histories and journals agree.

A history says which callbacks were started.  What a session shows of them are the notes in its
journal: one for each start, in the same order, and no others (`noted_run`).  A callback that is
started is also carried out: its program is what comes next (`move_started`).  A cycle that finishes
replies with the number that the history gives for it (`move_finished`, `cycleReplies_run`).
-/

namespace PageRefresh.Session

/-- The label of the callback that was started, if one was. -/
def Act.label? : Act → Option String
  | .started s => some s.callback.label
  | .startedAtOnce _ callback => some callback.label
  | _ => none

theorem Act.Opens.label?_eq_none {a : Act} (hopens : a.Opens) : a.label? = none := by
  cases a with
  | started s => exact hopens.elim
  | startedAtOnce depth callback => exact hopens.elim
  | _ => rfl

def Record.callback? : Record → Option String
  | .call (.callback label) => some label
  | _ => none

namespace World

/-- The callbacks noted in the journal, first to last. -/
def noted (w : World) : List String :=
  w.journal.filterMap Record.callback?

@[simp]
theorem noted_log (w : World) (e : Event) : (w.log e).noted = w.noted := by
  simp [noted, log, Record.callback?]

@[simp]
theorem noted_logAll (w : World) (es : List Event) : (w.logAll es).noted = w.noted := by
  simp [noted, logAll, Record.callback?, List.filterMap_eq_nil_iff]

@[simp]
theorem noted_answer (w : World) (asker : Asker) (reply : Reply) :
    (w.answer asker reply).noted = w.noted := by
  cases asker <;> simp [noted, answer, note, Record.callback?]

@[simp]
theorem noted_setPoller (w : World) (i : Nat) (p : Poller Callback) :
    (w.setPoller i p).noted = w.noted := rfl

theorem noted_note (w : World) (label : String) :
    (w.note (.callback label)).noted = w.noted ++ [label] := by
  simp [noted, note, Record.callback?]

theorem call_noted (w : World) (now : Instant) (kind : BroadcastKind) (r : Refresher) :
    (w.call now kind r).1.noted = w.noted := by
  cases r with
  | noop => rfl
  | scripted script => cases kind <;> simp [call, noted, note, Call.ofKind, Record.callback?]
  | poller i =>
      cases hp : w.pollers[i]? <;> cases kind <;> simp [call, hp]

theorem after_noted (w : World) (fragment : String) (callback : Callback) (r : Refresher) :
    (w.after fragment callback r).1.noted = w.noted := by
  cases r with
  | noop => simp [after]
  | scripted script => simp [after, noted, note, Record.callback?]
  | poller i =>
      cases hp : w.pollers[i]? with
      | none => simp [after, hp]
      | some p => cases howns : p.owns fragment <;> simp [after, hp, howns]

theorem withRefresher_noted {w : World} {asker : Asker} {id : String}
    {f : Refresher → World × List Task} (hf : ∀ r, (f r).1.noted = w.noted) :
    (w.withRefresher asker id f).1.noted = w.noted :=
  withRefresher_elim (P := fun r => r.1.noted = w.noted) hf (noted_answer _ _ _)

theorem withPoller_noted {w : World} {asker : Asker} {id : String}
    {f : Nat → Poller Callback → World × List Task} (hf : ∀ i p, (f i p).1.noted = w.noted) :
    (w.withPoller asker id f).1.noted = w.noted :=
  withPoller_elim (P := fun r => r.1.noted = w.noted) hf (noted_answer _ _ _)

theorem begin_noted (w : World) (now : Instant) (asker : Asker) (c : Command) :
    (w.begin now asker c).1.noted = w.noted := by
  cases c with
  | afterMain fragment callback => exact w.after_noted fragment callback w.main
  | callMain kind => exact w.call_noted now kind w.main
  | after id fragment callback => exact withRefresher_noted fun r => w.after_noted _ _ r
  | call kind id => exact withRefresher_noted fun r => w.call_noted now kind r
  | add id =>
      exact withRefresher_noted fun r => (noted_answer _ _ _).trans (noted_log w _)
  | addMain id =>
      exact withRefresher_noted fun r => (noted_answer _ _ _).trans (noted_log w _)
  | query id fragment => exact withPoller_noted fun i p => noted_answer _ _ _
  | due id offset => exact withPoller_noted fun i p => noted_answer _ _ _
  | cycle id fragment =>
      apply withPoller_noted
      intro i p
      split <;> simp
  | broadcast kind => exact noted_log w _
  | openModal =>
      simp only [begin, openModal]
      split
      · exact (noted_log _ _).trans (noted_log _ _)
      · exact (noted_answer _ _ _).trans (noted_log _ _)
  | closeModal =>
      simp only [begin, closeModal]
      split
      · exact noted_answer _ _ _
      · split
        · exact (noted_log _ _).trans (noted_log _ _)
        · exact (noted_answer _ _ _).trans (noted_log _ _)
  | readdMain => exact (noted_answer _ _ _).trans (noted_log w _)
  | clear => exact (noted_answer _ _ _).trans (noted_log w _)
  | enterPage name => exact (noted_answer _ _ _).trans (noted_logAll _ _)
  | leave => exact (noted_answer _ _ _).trans (noted_logAll _ _)
  | _ => exact noted_answer _ _ _

theorem perform_noted (w : World) (now : Instant) (depth : Nat) (task : Task) :
    (w.perform now task).1.noted = w.noted ++ (w.act depth task).label?.toList := by
  cases task with
  | command asker c => simp [perform, act, begin_noted, (w.commandAct_opens c).label?_eq_none]
  | start callback => exact noted_note w callback.label
  | cycling asker poller fragment cycle count waiting =>
      cases waiting with
      | nil => simp [perform, act, Act.label?]
      | cons callback waiting => exact noted_note w callback.label
  | broadcasting asker cause report rest =>
      cases rest with
      | nil => simp [perform, act, Act.label?]
      | cons r rest =>
          simp [perform, act, call_noted, (w.callAct_opens report.kind r).label?_eq_none]
  | settling asker cause report called outcome rest =>
      simp only [perform, act, Act.label?]
      split <;> simp
  | answer asker reply => simp [perform, act, Act.label?]

/-- Only a cycle that still holds a callback starts one, and only one that holds none finishes. -/
theorem act_cycling {w : World} {depth : Nat} {task : Task} (hopens : ¬ (w.act depth task).Opens) :
    (∃ callback, task = .start callback) ∨
      ∃ asker i fragment cycle count waiting,
        task = .cycling asker i fragment cycle count waiting := by
  cases task with
  | start callback => exact Or.inl ⟨callback, rfl⟩
  | cycling asker i fragment cycle count waiting =>
      exact Or.inr ⟨asker, i, fragment, cycle, count, waiting, rfl⟩
  | command asker c => exact absurd (w.commandAct_opens c) hopens
  | broadcasting asker cause report rest =>
      cases rest with
      | nil => exact absurd trivial hopens
      | cons r rest => exact absurd (w.callAct_opens report.kind r) hopens
  | _ => exact absurd trivial hopens

end World

namespace Machine

theorem move_noted (m : Machine) (now : Instant) {mv : Move} (hmove : mv ≠ .collect) :
    (m.move now mv).world.noted = m.world.noted ++ (m.act mv).label?.toList := by
  cases mv with
  | collect => contradiction
  | issue asker c => simp [move, act, Act.label?]
  | perform =>
      cases hagenda : m.agenda with
      | nil => simp [move_perform_nil now hagenda, act, hagenda, Act.label?]
      | cons task rest =>
          rw [move_perform now hagenda, act_perform hagenda]
          exact m.world.perform_noted now rest.length task

/-- A journal that is not taken out has a note of every start, and no other note of a callback. -/
theorem noted_run (m : Machine) (run : Run) (hrun : ∀ e ∈ run, e.2 ≠ .collect) :
    (m.after run).world.noted =
      m.world.noted ++ (m.history run).filterMap fun e => e.2.label? := by
  induction run generalizing m with
  | nil => simp [after, history]
  | cons head run ih =>
      obtain ⟨now, mv⟩ := head
      simp only [List.mem_cons, forall_eq_or_imp] at hrun
      rw [after, ih _ hrun.2, m.move_noted now hrun.1, history, filterMap_cons_eq_append,
        List.append_assoc]

/-- Only a callback's own task and a cycle do more than begin an operation. -/
theorem agenda_of_not_opens {m : Machine} {mv : Move} (hopens : ¬ (m.act mv).Opens) :
    mv = .perform ∧ ∃ task rest, m.agenda = task :: rest ∧
      ((∃ callback, task = .start callback) ∨
        ∃ asker i fragment cycle count waiting,
          task = .cycling asker i fragment cycle count waiting) := by
  cases mv with
  | perform =>
      cases hagenda : m.agenda with
      | nil => exact absurd (by simp [act, hagenda, Act.Opens]) hopens
      | cons task rest =>
          rw [act_perform hagenda] at hopens
          exact ⟨rfl, task, rest, rfl, World.act_cycling hopens⟩
  | _ => exact absurd trivial hopens

/-- A callback that a cycle starts is noted, and its program is what comes next. -/
theorem move_started {m : Machine} {mv : Move} {s : Start} (now : Instant)
    (hact : m.act mv = .started s) :
    ∃ rest, m.move now mv =
      ⟨m.world.note (.callback s.callback.label), program s.callback.body ++ rest⟩ := by
  have hopens : ¬ (m.act mv).Opens := by
    simp [hact, Act.Opens]
  obtain ⟨rfl, task, rest, hagenda, ⟨callback, rfl⟩ |
    ⟨asker, i, fragment, cycle, count, waiting, rfl⟩⟩ := agenda_of_not_opens hopens
  · simp [act_perform hagenda, World.act] at hact
  · rw [act_perform hagenda] at hact
    rw [move_perform now hagenda]
    cases waiting with
    | nil => simp [World.act] at hact
    | cons callback waiting =>
        simp only [World.act, Act.started.injEq] at hact
        rw [← hact]
        exact ⟨.cycling asker i fragment cycle count waiting :: rest, by
          simp [World.perform, World.startCallback]⟩

/-- A cycle that finishes replies how many callbacks it took, and does nothing more. -/
theorem move_finished {m : Machine} {mv : Move} {i count : Nat} {fragment : String} (now : Instant)
    (hact : m.act mv = .finished i fragment count) :
    mv = .perform ∧ ∃ asker cycle rest,
      m.agenda = .cycling asker i fragment cycle count [] :: rest ∧
        m.move now mv = ⟨(m.world.log (.cycleCompleted fragment cycle count)).answer asker
          (.ran count), rest⟩ := by
  have hopens : ¬ (m.act mv).Opens := by
    simp [hact, Act.Opens]
  obtain ⟨rfl, task, rest, hagenda, ⟨callback, rfl⟩ |
    ⟨asker, j, g, cycle, n, waiting, rfl⟩⟩ := agenda_of_not_opens hopens
  · simp [act_perform hagenda, World.act] at hact
  · rw [act_perform hagenda] at hact
    rw [move_perform now hagenda]
    cases waiting with
    | cons callback waiting => simp [World.act] at hact
    | nil =>
        simp only [World.act, Act.finished.injEq] at hact
        obtain ⟨rfl, rfl, rfl⟩ := hact
        exact ⟨rfl, asker, cycle, rest, hagenda, rfl⟩

end Machine

/-! ## What cycles reply -/

/-- What whoever asked was last told. -/
def World.toldTo (w : World) : Asker → Option Reply
  | none => w.reply
  | some _ =>
      match w.journal.getLast? with
      | some (.call (.nested _ reply)) => some reply
      | _ => none

namespace Machine

theorem Replied.toldTo {m : Machine} {asker : Asker} {records : List Record} {reply : Reply}
    {rest : List Task} (hreplied : m.Replied asker records reply rest) :
    m.world.toldTo asker = some reply := by
  cases asker with
  | none => exact hreplied.told rfl
  | some c => simp [World.toldTo, hreplied.journal]

/-- The reply of a cycle of the fragment that has nothing left to do and ends with the move. -/
def cycleReply? (m : Machine) (now : Instant) (i : Nat) (fragment : String) : Move → Option Reply
  | .perform =>
      match m.agenda with
      | .cycling asker j g _ _ [] :: _ =>
          if j == i && g == fragment then (m.move now .perform).world.toldTo asker else none
      | _ => none
  | _ => none

/-- The replies of the cycles of the fragment that end in a run, first to last. -/
def cycleReplies (m : Machine) (i : Nat) (fragment : String) : Run → List Reply
  | [] => []
  | (now, mv) :: run =>
      (m.cycleReply? now i fragment mv).toList ++ (m.move now mv).cycleReplies i fragment run

theorem cycleReply?_eq (m : Machine) (now : Instant) (i : Nat) (fragment : String) (mv : Move) :
    m.cycleReply? now i fragment mv = ((m.act mv).returned? i fragment).map .ran := by
  cases hact : m.act mv with
  | finished j g count =>
      obtain ⟨rfl, asker, cycle, rest, hagenda, hmoved⟩ := move_finished now hact
      have htold : (m.move now .perform).world.toldTo asker = some (.ran count) := by
        rw [hmoved]
        exact (replied_answer _ _ _ rest).toldTo
      by_cases hfor : j = i ∧ g = fragment <;>
        simp [cycleReply?, hagenda, Act.returned?, htold, hfor]
  | _ =>
      simp only [Act.returned?, Option.map_none]
      unfold cycleReply?
      split
      · split
        · rename_i hagenda
          rw [act_perform hagenda] at hact
          contradiction
        · rfl
      · rfl

/-- Cycles reply the numbers that the history gives for them, in this order. -/
theorem cycleReplies_run (m : Machine) (i : Nat) (fragment : String) (run : Run) :
    m.cycleReplies i fragment run = ((m.history run).returnedFor i fragment).map .ran := by
  induction run generalizing m with
  | nil => rfl
  | cons head run ih =>
      obtain ⟨now, mv⟩ := head
      have hnext := ih (m.move now mv)
      rw [History.returnedFor] at hnext ⊢
      rw [cycleReplies, history, filterMap_cons_eq_append, List.map_append, hnext,
        cycleReply?_eq, Option.toList_map]

end Machine

end PageRefresh.Session
