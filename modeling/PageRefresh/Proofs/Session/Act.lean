import PageRefresh.Proofs.Session.Run

/-!
What the moves of a machine do to pollers and callbacks.

A move comes to one act, which the machine before it determines.  `move_does` says all that a move
can do: its act is possible where it happens, the pollers change as the act says, and so do the
cycles that are under way.  What holds of callbacks, run states and deadlines over a whole run is
derived from it and does not look at tasks and commands again.
-/

namespace PageRefresh

/-- The poller after a completed cycle of a fragment, with the callbacks that waited taken out. -/
def Poller.completed {κ : Type} (p : Poller κ) (fragment : String) (now : Instant) : Poller κ :=
  { p with
    deadline := now.after? p.interval
    cycles := fun f => if f = fragment then p.cycles fragment + 1 else p.cycles f
    queue := fun f => if f = fragment then [] else p.queue f }

namespace Session

/-- A callback started by a cycle that had taken it, with the number of tasks below the cycle.  Of
the cycles under way at one time no two have the same number of tasks below them. -/
structure Start where
  poller : Nat
  fragment : String
  depth : Nat
  callback : Callback

/-- What a move comes to for pollers and callbacks. -/
inductive Act where
  | quiet
  | made (poller : Nat) (fragments : List String) (interval : Duration)
  | stopped (poller : Nat)
  | restarted (poller : Nat)
  /-- A callback began to wait for the next cycle of a fragment. -/
  | queued (poller : Nat) (fragment : String) (callback : Callback)
  /-- A completed cycle was accepted, and it took the callbacks that waited for it. -/
  | began (poller : Nat) (fragment : String)
  | started (start : Start)
  /-- A cycle answered how many callbacks it had run. -/
  | finished (poller : Nat) (fragment : String) (count : Nat)
  /-- A callback that did not have to wait was started, on top of so many tasks. -/
  | startedAtOnce (depth : Nat) (callback : Callback)

namespace World

/-- What stopping or restarting a refresher comes to. -/
def callAct (w : World) (kind : BroadcastKind) : Refresher → Act
  | .poller i =>
      match w.pollers[i]?, kind with
      | none, _ => .quiet
      | some _, .stop => .stopped i
      | some _, .restart => .restarted i
  | _ => .quiet

/-- What handing a callback to a refresher comes to. -/
def afterAct (w : World) (fragment : String) (callback : Callback) : Refresher → Act
  | .poller i =>
      match w.pollers[i]? with
      | none => .quiet
      | some p => if p.owns fragment then .queued i fragment callback else .quiet
  | _ => .quiet

/-- What beginning to carry out an operation comes to. -/
def commandAct (w : World) : Command → Act
  | .poller _ fragments interval => .made w.pollers.length fragments interval
  | .afterMain fragment callback => w.afterAct fragment callback w.main
  | .callMain kind => w.callAct kind w.main
  | .after id fragment callback =>
      match w.find? id with
      | some r => w.afterAct fragment callback r
      | none => .quiet
  | .call kind id =>
      match w.find? id with
      | some r => w.callAct kind r
      | none => .quiet
  | .cycle id fragment =>
      match w.findPoller? id with
      | some (i, p) => if p.owns fragment && p.isRunning then .began i fragment else .quiet
      | none => .quiet
  | _ => .quiet

/-- What performing a task on top of `depth` others comes to. -/
def act (w : World) (depth : Nat) : Task → Act
  | .command _ c => w.commandAct c
  | .start callback => .startedAtOnce depth callback
  | .cycling _ poller fragment _ count [] => .finished poller fragment count
  | .cycling _ poller fragment _ _ (callback :: _) =>
      .started ⟨poller, fragment, depth, callback⟩
  | .broadcasting _ _ report (r :: _) => w.callAct report.kind r
  | _ => .quiet

end World

/-- What a move comes to. -/
def Machine.act (m : Machine) : Move → Act
  | .perform =>
      match m.agenda with
      | [] => .quiet
      | task :: rest => m.world.act rest.length task
  | _ => .quiet

theorem Machine.act_perform {m : Machine} {task : Task} {rest : List Task}
    (hagenda : m.agenda = task :: rest) : m.act .perform = m.world.act rest.length task := by
  simp [act, hagenda]

/-! ## What an act does -/

/-- A cycle under way: how many callbacks it took, and those that it has not started yet. -/
structure Frame where
  poller : Nat
  fragment : String
  count : Nat
  waiting : List Callback

def Task.frame? : Task → Option Frame
  | .cycling _ poller fragment _ count waiting => some ⟨poller, fragment, count, waiting⟩
  | _ => none

/-- The cycles under way, innermost first. -/
def Machine.frames (m : Machine) : List Frame :=
  m.agenda.filterMap Task.frame?

/-- The callbacks that wait for the next cycle of a fragment. -/
def queueAt (pollers : List (Poller Callback)) (i : Nat) (fragment : String) : List Callback :=
  match pollers[i]? with
  | some p => p.queue fragment
  | none => []

namespace Act

/-- What can happen while these are the pollers. -/
def Possible (pollers : List (Poller Callback)) : Act → Prop
  | .made i _ _ => i = pollers.length
  | .stopped i => i < pollers.length
  | .restarted i => i < pollers.length
  | .queued i fragment _ => ∃ p, pollers[i]? = some p ∧ p.owns fragment = true
  | .began i fragment =>
      ∃ p, pollers[i]? = some p ∧ p.owns fragment = true ∧ p.isRunning = true
  | _ => True

/-- What becomes of the poller with index `i`. -/
def onPoller (now : Instant) (i : Nat) (p : Poller Callback) : Act → Poller Callback
  | .stopped j => if i = j then p.stop else p
  | .restarted j => if i = j then p.restart now else p
  | .queued j fragment callback => if i = j then p.enqueue fragment callback else p
  | .began j fragment => if i = j then p.completed fragment now else p
  | _ => p

/-- The pollers that come to be. -/
def newPollers (now : Instant) : Act → List (Poller Callback)
  | .made _ fragments interval => [.start fragments interval now]
  | _ => []

/-- What becomes of all pollers. -/
def onPollers (now : Instant) (pollers : List (Poller Callback)) (a : Act) :
    List (Poller Callback) :=
  pollers.mapIdx (fun i p => a.onPoller now i p) ++ a.newPollers now

/-- What becomes of the cycles under way. -/
def OnFrames (pollers : List (Poller Callback)) (before after : List Frame) : Act → Prop
  | .began i fragment =>
      let batch := queueAt pollers i fragment
      after = ⟨i, fragment, batch.length, batch⟩ :: before
  | .started s =>
      ∃ count waiting rest,
        before = ⟨s.poller, s.fragment, count, s.callback :: waiting⟩ :: rest ∧
          after = ⟨s.poller, s.fragment, count, waiting⟩ :: rest
  | .finished i fragment count => before = ⟨i, fragment, count, []⟩ :: after
  | _ => after = before

end Act

theorem set_eq_mapIdx {α : Type} {xs : List α} {i : Nat} {x : α} (f : α → α)
    (hx : xs[i]? = some x) :
    xs.set i (f x) = xs.mapIdx fun j y => if j = i then f y else y := by
  symm
  rw [List.mapIdx_eq_iff]
  intro j
  rw [List.getElem?_set]
  by_cases hij : i = j
  · obtain ⟨hi, rfl⟩ := List.getElem?_eq_some_iff.mp hx
    subst hij
    simp [hi]
  · have hji : ¬ j = i := fun h => hij h.symm
    simp [hij, hji]

theorem mapIdx_same {α : Type} (xs : List α) : xs.mapIdx (fun _ x => x) = xs := by
  rw [List.mapIdx_eq_iff]
  simp

/-- An act that touches no poller leaves all of them as they are. -/
theorem Act.onPollers_same {a : Act} {now : Instant} (pollers : List (Poller Callback))
    (honPoller : ∀ i p, a.onPoller now i p = p) (hnew : a.newPollers now = []) :
    a.onPollers now pollers = pollers := by
  simp only [onPollers, honPoller, hnew, mapIdx_same, List.append_nil]

theorem frames_program (body : List Command) : (program body).filterMap Task.frame? = [] := by
  simp [program, List.filterMap_eq_nil_iff, Task.frame?]

namespace World

@[simp]
theorem pollers_note (w : World) (c : Call) : (w.note c).pollers = w.pollers := rfl

@[simp]
theorem pollers_answer (w : World) (asker : Asker) (reply : Reply) :
    (w.answer asker reply).pollers = w.pollers := by
  cases asker <;> rfl

/-- The act `a` is all that happens to pollers and cycles when, in the world `w` and with a task at
hand that is the cycle `own` or none, the world and the tasks of `r` come about. -/
structure Does (w : World) (now : Instant) (own : Option Frame) (a : Act)
    (r : World × List Task) : Prop where
  possible : a.Possible w.pollers
  pollers : r.1.pollers = a.onPollers now w.pollers
  frames : ∀ fs, a.OnFrames w.pollers (own.toList ++ fs) (r.2.filterMap Task.frame? ++ fs)

theorem Does.quiet {w : World} {now : Instant} {r : World × List Task}
    (hpollers : r.1.pollers = w.pollers) (hframes : r.2.filterMap Task.frame? = []) :
    w.Does now none .quiet r where
  possible := trivial
  pollers := by
    rw [hpollers, Act.onPollers_same _ (fun _ _ => rfl) rfl]
  frames := by
    intro fs
    simp [hframes, Act.OnFrames]

/-- Tasks that are no cycles may be added. -/
theorem Does.append {w : World} {now : Instant} {a : Act} {r : World × List Task}
    {tasks : List Task} (hdoes : w.Does now none a r) (hframes : tasks.filterMap Task.frame? = []) :
    w.Does now none a (r.1, r.2 ++ tasks) where
  possible := hdoes.possible
  pollers := hdoes.pollers
  frames := by
    intro fs
    simpa [hframes] using hdoes.frames fs

/-- One poller is changed and nothing else. -/
theorem Does.setPoller {w : World} {now : Instant} {a : Act} {r : World × List Task} {i : Nat}
    {p : Poller Callback} (f : Poller Callback → Poller Callback) (hp : w.pollers[i]? = some p)
    (hpossible : a.Possible w.pollers)
    (honPoller : ∀ j q, a.onPoller now j q = if j = i then f q else q)
    (hnew : a.newPollers now = []) (hpollers : r.1.pollers = w.pollers.set i (f p))
    (hframes : ∀ fs, a.OnFrames w.pollers fs (r.2.filterMap Task.frame? ++ fs)) :
    w.Does now none a r where
  possible := hpossible
  pollers := by
    rw [hpollers, set_eq_mapIdx f hp]
    simp only [Act.onPollers, honPoller, hnew, List.append_nil]
  frames := hframes

theorem call_does (w : World) (now : Instant) (kind : BroadcastKind) (r : Refresher) :
    w.Does now none (w.callAct kind r) ((w.call now kind r).1, (w.call now kind r).2.1) := by
  cases r with
  | noop => exact .quiet rfl rfl
  | scripted script => exact .quiet rfl (frames_program _)
  | poller i =>
      cases hp : w.pollers[i]? with
      | none =>
          simp only [call, callAct, hp]
          exact .quiet rfl rfl
      | some p =>
          have hi : i < w.pollers.length := (List.getElem?_eq_some_iff.mp hp).1
          cases kind with
          | stop =>
              simp only [call, callAct, hp]
              exact .setPoller Poller.stop hp hi (fun _ _ => rfl) rfl rfl (fun _ => rfl)
          | restart =>
              simp only [call, callAct, hp]
              exact .setPoller (·.restart now) hp hi (fun _ _ => rfl) rfl rfl (fun _ => rfl)

theorem after_does (w : World) (now : Instant) (fragment : String) (callback : Callback)
    (r : Refresher) :
    w.Does now none (w.afterAct fragment callback r) (w.after fragment callback r) := by
  cases r with
  | noop => exact .quiet rfl rfl
  | scripted script =>
      refine Does.quiet (pollers_note _ _) ?_
      cases hruns : script.runsCallbacks <;> simp [after, hruns, Task.frame?]
  | poller i =>
      cases hp : w.pollers[i]? with
      | none =>
          simp only [after, afterAct, hp]
          exact .quiet rfl rfl
      | some p =>
          cases howns : p.owns fragment with
          | false =>
              simp only [after, afterAct, hp, howns]
              exact .quiet rfl rfl
          | true =>
              simp only [after, afterAct, hp, howns, ↓reduceIte]
              exact .setPoller (·.enqueue fragment callback) hp ⟨p, hp, howns⟩
                (fun _ _ => rfl) rfl rfl (fun _ => rfl)

/-- A poller that has a name stands at its index. -/
theorem getElem?_of_findPoller? {w : World} {id : String} {i : Nat} {p : Poller Callback}
    (hfind : w.findPoller? id = some (i, p)) : w.pollers[i]? = some p := by
  unfold findPoller? at hfind
  split at hfind
  · simp only [Option.map_eq_some_iff, Prod.mk.injEq] at hfind
    obtain ⟨q, hq, rfl, rfl⟩ := hfind
    exact hq
  · contradiction

theorem handOver_does (w : World) (now : Instant) (asker : Asker) (fragment : String)
    (callback : Callback) (r : Refresher) :
    w.Does now none (w.afterAct fragment callback r) (w.handOver asker fragment callback r) :=
  (w.after_does now fragment callback r).append rfl

theorem callAlone_does (w : World) (now : Instant) (asker : Asker) (kind : BroadcastKind)
    (r : Refresher) :
    w.Does now none (w.callAct kind r) (w.callAlone now asker kind r) :=
  (w.call_does now kind r).append rfl

theorem openModal_does (w : World) (now : Instant) (asker : Asker) :
    w.Does now none .quiet (w.openModal asker) := by
  unfold openModal
  simp only
  split
  · exact .quiet rfl rfl
  · exact .quiet (pollers_answer _ _ _) rfl

theorem closeModal_does (w : World) (now : Instant) (asker : Asker) :
    w.Does now none .quiet (w.closeModal asker) := by
  unfold closeModal
  simp only
  split
  · exact .quiet (pollers_answer _ _ _) rfl
  · split
    · exact .quiet rfl rfl
    · exact .quiet (pollers_answer _ _ _) rfl

/-- A command that needs a refresher does its work, or answers that there is none. -/
theorem withRefresher_elim {w : World} {asker : Asker} {id : String}
    {f : Refresher → World × List Task} {P : World × List Task → Prop} (hf : ∀ r, P (f r))
    (hunbound : P (w.answer asker (.unbound id), [])) : P (w.withRefresher asker id f) := by
  unfold withRefresher
  split
  · exact hf _
  · exact hunbound

theorem withPoller_elim {w : World} {asker : Asker} {id : String}
    {f : Nat → Poller Callback → World × List Task} {P : World × List Task → Prop}
    (hf : ∀ i p, P (f i p)) (hunbound : P (w.answer asker (.unbound id), [])) :
    P (w.withPoller asker id f) := by
  unfold withPoller
  split
  · exact hf _ _
  · exact hunbound

theorem withRefresher_does {w : World} {now : Instant} {asker : Asker} {id : String}
    {f : Refresher → World × List Task} (hf : ∀ r, w.Does now none .quiet (f r)) :
    w.Does now none .quiet (w.withRefresher asker id f) :=
  withRefresher_elim hf (.quiet (pollers_answer _ _ _) rfl)

theorem withPoller_does {w : World} {now : Instant} {asker : Asker} {id : String}
    {f : Nat → Poller Callback → World × List Task}
    (hf : ∀ i p, w.Does now none .quiet (f i p)) :
    w.Does now none .quiet (w.withPoller asker id f) :=
  withPoller_elim hf (.quiet (pollers_answer _ _ _) rfl)

theorem cycle_does (w : World) (now : Instant) (asker : Asker) (id fragment : String) :
    w.Does now none (w.commandAct (.cycle id fragment))
      (w.begin now asker (.cycle id fragment)) := by
  cases hp : w.findPoller? id with
  | none =>
      simp only [begin, commandAct, withPoller, hp]
      exact .quiet (pollers_answer _ _ _) rfl
  | some found =>
      obtain ⟨i, p⟩ := found
      have hi := getElem?_of_findPoller? hp
      simp only [begin, commandAct, withPoller, hp, Poller.complete]
      cases howns : p.owns fragment with
      | false => exact .quiet (pollers_answer _ _ _) rfl
      | true =>
          cases hrunning : p.isRunning with
          | false => exact .quiet (pollers_answer _ _ _) rfl
          | true =>
              simp only [Bool.and_self, ↓reduceIte]
              refine .setPoller (·.completed fragment now) hi ⟨p, hi, howns, hrunning⟩
                (fun _ _ => rfl) rfl rfl ?_
              intro fs
              simp [Act.OnFrames, queueAt, hi, Task.frame?]

theorem begin_does (w : World) (now : Instant) (asker : Asker) (c : Command) :
    w.Does now none (w.commandAct c) (w.begin now asker c) := by
  cases c with
  | poller id fragments interval =>
      refine ⟨rfl, ?_, fun _ => rfl⟩
      simp [begin, commandAct, addPoller, bind, Act.onPollers, Act.onPoller, Act.newPollers,
        mapIdx_same]
  | afterMain fragment callback => exact w.handOver_does now asker fragment callback w.main
  | callMain kind => exact w.callAlone_does now asker kind w.main
  | after id fragment callback =>
      simp only [begin, commandAct, withRefresher]
      cases w.find? id with
      | some r => exact w.handOver_does now asker fragment callback r
      | none => exact .quiet (pollers_answer _ _ _) rfl
  | call kind id =>
      simp only [begin, commandAct, withRefresher]
      cases w.find? id with
      | some r => exact w.callAlone_does now asker kind r
      | none => exact .quiet (pollers_answer _ _ _) rfl
  | cycle id fragment => exact w.cycle_does now asker id fragment
  | openModal => exact w.openModal_does now asker
  | closeModal => exact w.closeModal_does now asker
  | add id => exact withRefresher_does fun r => .quiet (pollers_answer _ _ _) rfl
  | addMain id => exact withRefresher_does fun r => .quiet (pollers_answer _ _ _) rfl
  | query id fragment => exact withPoller_does fun i p => .quiet (pollers_answer _ _ _) rfl
  | due id offset => exact withPoller_does fun i p => .quiet (pollers_answer _ _ _) rfl
  | broadcast kind => exact .quiet rfl rfl
  | _ => exact .quiet (pollers_answer _ _ _) rfl

theorem perform_does (w : World) (now : Instant) (depth : Nat) (task : Task) :
    w.Does now task.frame? (w.act depth task) (w.perform now task) := by
  cases task with
  | command asker c => exact w.begin_does now asker c
  | start callback =>
      refine ⟨trivial, (Act.onPollers_same _ (fun _ _ => rfl) rfl).symm, ?_⟩
      intro fs
      simp [perform, startCallback, act, Act.OnFrames, Task.frame?, frames_program]
  | cycling asker poller fragment cycle count waiting =>
      cases waiting with
      | nil =>
          refine ⟨trivial, ?_, fun _ => rfl⟩
          exact (pollers_answer _ _ _).trans (Act.onPollers_same _ (fun _ _ => rfl) rfl).symm
      | cons callback waiting =>
          refine ⟨trivial, (Act.onPollers_same _ (fun _ _ => rfl) rfl).symm, ?_⟩
          intro fs
          simp [perform, startCallback, act, Act.OnFrames, Task.frame?, frames_program]
  | broadcasting asker cause report rest =>
      cases rest with
      | nil => exact .quiet (pollers_answer _ _ _) rfl
      | cons r rest => exact (w.call_does now report.kind r).append rfl
  | settling asker cause report called outcome rest =>
      simp only [perform]
      split
      · exact .quiet rfl rfl
      · exact .quiet (pollers_answer _ _ _) rfl
  | answer asker reply => exact .quiet (pollers_answer _ _ _) rfl

end World

/-- All that a move does: it performs a possible act, which says what becomes of the pollers and of
the cycles under way. -/
structure Machine.MoveDoes (m : Machine) (now : Instant) (mv : Move) : Prop where
  possible : (m.act mv).Possible m.world.pollers
  pollers : (m.move now mv).world.pollers = (m.act mv).onPollers now m.world.pollers
  frames : (m.act mv).OnFrames m.world.pollers m.frames (m.move now mv).frames

theorem Machine.move_does (m : Machine) (now : Instant) (mv : Move) : m.MoveDoes now mv := by
  cases mv with
  | issue asker c =>
      exact ⟨trivial, (Act.onPollers_same _ (fun _ _ => rfl) rfl).symm, rfl⟩
  | collect => exact ⟨trivial, (Act.onPollers_same _ (fun _ _ => rfl) rfl).symm, rfl⟩
  | perform =>
      cases hagenda : m.agenda with
      | nil =>
          have hact : m.act .perform = .quiet := by simp [act, hagenda]
          refine ⟨hact ▸ trivial, ?_, ?_⟩
          · rw [hact, move_perform_nil now hagenda, Act.onPollers_same _ (fun _ _ => rfl) rfl]
          · rw [hact, move_perform_nil now hagenda]
            rfl
      | cons task rest =>
          have hdoes := m.world.perform_does now rest.length task
          rw [← act_perform hagenda] at hdoes
          refine ⟨hdoes.possible, ?_, ?_⟩
          · rw [move_perform now hagenda]
            exact hdoes.pollers
          · have hbefore : m.frames = task.frame?.toList ++ rest.filterMap Task.frame? := by
              rw [frames, hagenda, List.filterMap_cons]
              cases task.frame? <;> rfl
            rw [move_perform now hagenda, hbefore, frames, List.filterMap_append]
            exact hdoes.frames (rest.filterMap Task.frame?)

end Session

end PageRefresh
