import PageRefresh.Proofs.Session.History

/-!
Callbacks that do not have to wait.

Whoever runs a callback at once puts it on the agenda right above the answer of the call that it
was handed over with.  No other callback is ever started right above that answer
(`startsAtOnce_ne`), so the call starts its callback, starts it once, and starts it before it
returns (`startsAtOnce_call`).
-/

namespace PageRefresh.Session

/-- The task that comes last of these is not the start of a callback. -/
def EndsWithoutStart (tasks : List Task) : Prop :=
  ∀ callback, tasks.getLast? ≠ some (.start callback)

theorem endsWithoutStart_nil : EndsWithoutStart [] := by
  intro callback
  simp

theorem endsWithoutStart_concat (tasks : List Task) {task : Task}
    (htask : ∀ callback, task ≠ .start callback) : EndsWithoutStart (tasks ++ [task]) := by
  intro callback hlast
  rw [List.getLast?_concat, Option.some.injEq] at hlast
  exact htask callback hlast

theorem endsWithoutStart_program (body : List Command) : EndsWithoutStart (program body) := by
  intro callback hlast
  have hmem := List.mem_of_getLast? hlast
  simp [program] at hmem

/-- What comes last is what came last below, if something did. -/
theorem EndsWithoutStart.append {tasks : List Task} (first : List Task)
    (htasks : EndsWithoutStart tasks) (hne : tasks ≠ []) : EndsWithoutStart (first ++ tasks) := by
  intro callback hlast
  rw [List.getLast?_append, List.getLast?_eq_some_getLast hne] at hlast
  exact htasks callback ((List.getLast?_eq_some_getLast hne).trans hlast)

namespace World

theorem withRefresher_ends {w : World} {asker : Asker} {id : String}
    {f : Refresher → World × List Task} (hf : ∀ r, EndsWithoutStart (f r).2) :
    EndsWithoutStart (w.withRefresher asker id f).2 :=
  withRefresher_elim (P := fun r => EndsWithoutStart r.2) hf endsWithoutStart_nil

theorem withPoller_ends {w : World} {asker : Asker} {id : String}
    {f : Nat → Poller Callback → World × List Task} (hf : ∀ i p, EndsWithoutStart (f i p).2) :
    EndsWithoutStart (w.withPoller asker id f).2 :=
  withPoller_elim (P := fun r => EndsWithoutStart r.2) hf endsWithoutStart_nil

theorem openModal_ends (w : World) (asker : Asker) : EndsWithoutStart (w.openModal asker).2 := by
  unfold openModal
  simp only
  split
  · exact endsWithoutStart_concat [] (by simp)
  · exact endsWithoutStart_nil

theorem closeModal_ends (w : World) (asker : Asker) :
    EndsWithoutStart (w.closeModal asker).2 := by
  unfold closeModal
  simp only
  split
  · exact endsWithoutStart_nil
  · split
    · exact endsWithoutStart_concat [] (by simp)
    · exact endsWithoutStart_nil

theorem handOver_ends (w : World) (asker : Asker) (fragment : String) (callback : Callback)
    (r : Refresher) : EndsWithoutStart (w.handOver asker fragment callback r).2 :=
  endsWithoutStart_concat _ (by simp)

theorem callAlone_ends (w : World) (now : Instant) (asker : Asker) (kind : BroadcastKind)
    (r : Refresher) : EndsWithoutStart (w.callAlone now asker kind r).2 :=
  endsWithoutStart_concat _ (by simp)

theorem begin_ends (w : World) (now : Instant) (asker : Asker) (c : Command) :
    EndsWithoutStart (w.begin now asker c).2 := by
  cases c with
  | afterMain fragment callback => exact w.handOver_ends asker fragment callback w.main
  | callMain kind => exact w.callAlone_ends now asker kind w.main
  | after id fragment callback =>
      exact withRefresher_ends fun r => w.handOver_ends asker fragment callback r
  | call kind id => exact withRefresher_ends fun r => w.callAlone_ends now asker kind r
  | cycle id fragment =>
      apply withPoller_ends
      intro i p
      split
      · exact endsWithoutStart_nil
      · exact endsWithoutStart_concat [] (by simp)
  | openModal => exact w.openModal_ends asker
  | closeModal => exact w.closeModal_ends asker
  | broadcast kind => exact endsWithoutStart_concat [] (by simp)
  | add id => exact withRefresher_ends fun r => endsWithoutStart_nil
  | addMain id => exact withRefresher_ends fun r => endsWithoutStart_nil
  | query id fragment => exact withPoller_ends fun i p => endsWithoutStart_nil
  | due id offset => exact withPoller_ends fun i p => endsWithoutStart_nil
  | _ => exact endsWithoutStart_nil

theorem perform_ends (w : World) (now : Instant) (task : Task) :
    EndsWithoutStart (w.perform now task).2 := by
  cases task with
  | command asker c => exact w.begin_ends now asker c
  | start callback => exact endsWithoutStart_program callback.body
  | cycling asker poller fragment cycle count waiting =>
      cases waiting with
      | nil => exact endsWithoutStart_nil
      | cons callback waiting => exact endsWithoutStart_concat _ (by simp)
  | broadcasting asker cause report rest =>
      cases rest with
      | nil => exact endsWithoutStart_nil
      | cons r rest => exact endsWithoutStart_concat _ (by simp)
  | settling asker cause report called outcome rest =>
      simp only [perform]
      split
      · exact endsWithoutStart_concat [] (by simp)
      · exact endsWithoutStart_nil
  | answer asker reply => exact endsWithoutStart_nil

end World

namespace Machine

/-- As long as a task stays where it is, no callback is started at once right above it, unless one
was about to be when the task got there. -/
theorem startsAtOnce_ne {m : Machine} {above : List Task} {task : Task} {below : List Task}
    {run : Run} (hagenda : m.agenda = above ++ task :: below) (hends : EndsWithoutStart above)
    (hworks : m.WorksAbove below.length run) :
    ∀ e ∈ (m.history run).startsAtOnce, e.1 ≠ below.length + 1 := by
  induction run generalizing m above with
  | nil => simp [history, History.startsAtOnce]
  | cons head run ih =>
      obtain ⟨now, mv⟩ := head
      obtain ⟨hdepth, hrest⟩ := hworks
      simp only [history, History.startsAtOnce, filterMap_cons_eq_append, List.mem_append,
        Option.mem_toList]
      cases mv with
      | issue asker c =>
          rintro e (he | he)
          · simp [act, Act.startedAtOnce?] at he
          · have hmoved : (m.move now (.issue asker c)).agenda =
                (.command asker c :: above) ++ task :: below := by
              simp [move, hagenda]
            refine ih hmoved ?_ hrest e he
            cases above with
            | nil => exact endsWithoutStart_concat [] (by simp)
            | cons first above => exact hends.append [.command asker c] (by simp)
      | collect =>
          rintro e (he | he)
          · simp [act, Act.startedAtOnce?] at he
          · have hmoved : (m.move now .collect).agenda = above ++ task :: below := hagenda
            exact ih hmoved hends hrest e he
      | perform =>
          cases above with
          | nil =>
              simp only [depthOf, hagenda, List.nil_append, List.length_cons] at hdepth
              omega
          | cons first above =>
              rintro e (he | he)
              · rw [act_perform hagenda] at he
                obtain ⟨hlevel, rfl⟩ := (m.world.act_depth _ first).2 e he
                intro heq
                have hlength : (above ++ task :: below).length = below.length + 1 :=
                  hlevel.symm.trans heq
                have habove : above = [] := by
                  rw [List.length_append, List.length_cons] at hlength
                  exact List.eq_nil_of_length_eq_zero (by omega)
                exact hends e.2 (by simp [habove])
              · have hmoved : (m.move now .perform).agenda =
                    ((m.world.perform now first).2 ++ above) ++ task :: below := by
                  rw [move_perform now hagenda]
                  simp
                refine ih hmoved ?_ hrest e he
                cases above with
                | nil => simpa using m.world.perform_ends now first
                | cons second above =>
                    have htail : EndsWithoutStart (second :: above) := by
                      intro callback
                      simpa using hends callback
                    exact htail.append _ (by simp)

theorem startsAtOnce_filter {h : History} {depth : Nat}
    (hne : ∀ e ∈ h.startsAtOnce, e.1 ≠ depth) :
    h.startsAtOnce.filter (fun e => e.1 == depth) = [] := by
  simpa [List.filter_eq_nil_iff] using hne

/-- A call whose callback is under way starts nothing more of its own until it returns. -/
theorem startsAtOnce_answer {m : Machine} {above : List Task} {asker : Asker} {reply : Reply}
    {rest : List Task} {run : Run} (hagenda : m.agenda = above ++ .answer asker reply :: rest)
    (hends : EndsWithoutStart above) (habove : m.StaysAbove rest.length run)
    (hreturned : (m.after run).agenda.length = rest.length) :
    (m.history run).startsAtOnce.filter (fun e => e.1 == rest.length + 1) = [] := by
  rcases kept_or_performed run hagenda with
    ⟨-, above', hkept⟩ | ⟨before, now, last, rfl, hbefore, htop⟩
  · rw [hkept] at hreturned
    simp at hreturned
    omega
  have hnone := startsAtOnce_filter (startsAtOnce_ne hagenda hends hbefore)
  have hanswered : ((m.after before).move now .perform).agenda = rest := by
    rw [move_perform now htop]
    rfl
  obtain ⟨-, hlastAbove⟩ := (staysAbove_append _ _ _ _).mp habove
  obtain rfl : last = [] := hlastAbove.2.eq_nil (by rw [hanswered])
  have hact : (m.after before).act .perform = .quiet := by
    rw [act_perform htop]
    rfl
  rw [history_append, history, hact]
  simp only [History.startsAtOnce, List.filterMap_append, filterMap_cons_eq_append,
    List.filter_append] at hnone ⊢
  rw [hnone]
  simp [Act.startedAtOnce?, history]

/-- A call that runs a callback at once starts it exactly once before it returns. -/
theorem startsAtOnce_call {m : Machine} {callback : Callback} {asker : Asker} {reply : Reply}
    {rest : List Task} {run : Run}
    (hagenda : m.agenda = .start callback :: .answer asker reply :: rest)
    (habove : m.StaysAbove rest.length run)
    (hreturned : (m.after run).agenda.length = rest.length) :
    (m.history run).startsAtOnce.filter (fun e => e.1 == rest.length + 1) =
      [(rest.length + 1, callback)] := by
  have hagenda' : m.agenda = [] ++ .start callback :: .answer asker reply :: rest := hagenda
  rcases kept_or_performed run hagenda' with
    ⟨-, above, hkept⟩ | ⟨before, now, later, rfl, hworks, htop⟩
  · rw [hkept] at hreturned
    simp at hreturned
    omega
  have hbefore : (m.history before).startsAtOnce.filter (fun e => e.1 == rest.length + 1) = [] := by
    apply startsAtOnce_filter
    intro e he
    have hlt := hworks.depth_lt.2 e he
    simp only [List.length_cons] at hlt
    omega
  have hstarted : ((m.after before).move now .perform).agenda =
      program callback.body ++ .answer asker reply :: rest := by
    rw [move_perform now htop]
    rfl
  have hact : (m.after before).act .perform = .startedAtOnce (rest.length + 1) callback := by
    rw [act_perform htop]
    rfl
  obtain ⟨-, hlaterAbove⟩ := (staysAbove_append _ _ _ _).mp habove
  rw [after_append] at hreturned
  have hlater := startsAtOnce_answer hstarted (endsWithoutStart_program callback.body)
    hlaterAbove.2 hreturned
  rw [history_append, history, hact]
  simp only [History.startsAtOnce, List.filterMap_append, filterMap_cons_eq_append,
    List.filter_append] at hbefore hlater ⊢
  rw [hbefore, hlater]
  simp [Act.startedAtOnce?]

end Machine

end PageRefresh.Session
