import Mathlib.Data.List.Dedup
import Mathlib.Data.List.Perm.Subperm
import PageRefresh.Proofs.Session.Registered

/-!
The callbacks of a program text, and where they are while it is carried out.

A callback that a program hands over is written in its text, perhaps in the body of another one.  A
machine holds such an occurrence as long as it has not been started: in an operation that is still
to be carried out, in a cycle that has taken it, or in the queue of a poller.  Refreshers that run
no programs of their own add none.  What a move starts it held before, and holds no more afterwards
(`Plain.performs`), so in a run no occurrence is started twice (`Plain.run`).
-/

namespace PageRefresh.Session

/-! ## Occurrences in a text -/

mutual

/-- The callbacks that an operation hands over, each in front of those that its own body does. -/
def Command.callbacks : Command → List Callback
  | .afterMain _ callback => callback.occurrences
  | .after _ _ callback => callback.occurrences
  | _ => []

/-- A callback and all that its body hands over, at any depth. -/
def Callback.occurrences : Callback → List Callback
  | .mk label body => .mk label body :: callbacksIn body

/-- The callbacks that occur in a program. -/
def callbacksIn : List Command → List Callback
  | [] => []
  | c :: body => c.callbacks ++ callbacksIn body

end

theorem occurrences_eq (callback : Callback) :
    callback.occurrences = callback :: callbacksIn callback.body := by
  cases callback
  rw [Callback.occurrences, Callback.body]

theorem callbacksIn_eq_flatMap (body : List Command) :
    callbacksIn body = body.flatMap Command.callbacks := by
  induction body with
  | nil => rw [callbacksIn, List.flatMap_nil]
  | cons c body ih => rw [callbacksIn, ih, List.flatMap_cons]

/-- The operations of a program, at any depth. -/
def operationsIn (body : List Command) : List Command :=
  body ++ (callbacksIn body).flatMap Callback.body

/-! ## What is held -/

/-- The callbacks in a poller's queues, with all that their bodies hand over. -/
def heldBy (p : Poller Callback) : List Callback :=
  p.fragments.dedup.flatMap fun fragment => (p.queue fragment).flatMap Callback.occurrences

/-- The callbacks in the queues of all pollers. -/
def World.held (w : World) : List Callback :=
  w.pollers.flatMap heldBy

/-- The callbacks in a task. -/
def Task.callbacks : Task → List Callback
  | .command _ c => c.callbacks
  | .start callback => callback.occurrences
  | .cycling _ _ _ _ _ waiting => waiting.flatMap Callback.occurrences
  | _ => []

/-- The callbacks that are still to be started, if ever. -/
def Machine.held (m : Machine) : List Callback :=
  m.agenda.flatMap Task.callbacks ++ m.world.held

theorem callbacks_program (body : List Command) :
    (program body).flatMap Task.callbacks = callbacksIn body := by
  rw [callbacksIn_eq_flatMap, program, List.flatMap_map]
  rfl

/-- Two functions that differ at one place of a list give the same but for that place. -/
theorem flatMap_perm_of_nodup {α β : Type} {xs : List α} {x : α} (hx : x ∈ xs) (hxs : xs.Nodup)
    {f g : α → List β} (hfg : ∀ y, y ≠ x → f y = g y) :
    ∃ rest, (xs.flatMap f).Perm (f x ++ rest) ∧ (xs.flatMap g).Perm (g x ++ rest) := by
  obtain ⟨before, later, rfl⟩ := List.append_of_mem hx
  have hother : ∀ y ∈ before ++ later, f y = g y := by
    rintro y hy
    refine hfg y ?_
    rintro rfl
    rw [List.nodup_middle, List.nodup_cons] at hxs
    exact hxs.1 hy
  have hbefore : before.flatMap f = before.flatMap g :=
    List.flatMap_congr fun y hy => hother y (List.mem_append_left _ hy)
  have hlater : later.flatMap f = later.flatMap g :=
    List.flatMap_congr fun y hy => hother y (List.mem_append_right _ hy)
  refine ⟨before.flatMap f ++ later.flatMap f, ?_, ?_⟩
  · rw [List.flatMap_append, List.flatMap_cons]
    exact List.perm_append_comm_assoc _ _ _
  · rw [List.flatMap_append, List.flatMap_cons, hbefore, hlater]
    exact List.perm_append_comm_assoc _ _ _

/-- Another element in the place of one leaves the others as they are. -/
theorem flatMap_set_perm {α β : Type} {xs : List α} {i : Nat} {x : α} (hx : xs[i]? = some x)
    (y : α) (f : α → List β) :
    ∃ rest, (xs.flatMap f).Perm (f x ++ rest) ∧ ((xs.set i y).flatMap f).Perm (f y ++ rest) := by
  obtain ⟨hi, rfl⟩ := List.getElem?_eq_some_iff.mp hx
  refine ⟨(xs.take i).flatMap f ++ (xs.drop (i + 1)).flatMap f, ?_, ?_⟩
  · conv_lhs => rw [← List.take_append_drop i xs, List.drop_eq_getElem_cons hi]
    rw [List.flatMap_append, List.flatMap_cons]
    exact List.perm_append_comm_assoc _ _ _
  · rw [List.set_eq_take_append_cons_drop, if_pos hi, List.flatMap_append, List.flatMap_cons]
    exact List.perm_append_comm_assoc _ _ _

section Poller

variable {p : Poller Callback} {fragment : String}

/-- What happens to the queue of an owned fragment is all that happens to what is held. -/
theorem heldBy_perm (p' : Poller Callback) (howns : p.owns fragment = true)
    (hfragments : p'.fragments = p.fragments)
    (hother : ∀ g, g ≠ fragment → p.queue g = p'.queue g) :
    ∃ rest, (heldBy p).Perm ((p.queue fragment).flatMap Callback.occurrences ++ rest) ∧
      (heldBy p').Perm ((p'.queue fragment).flatMap Callback.occurrences ++ rest) := by
  have hmem : fragment ∈ p.fragments.dedup := List.mem_dedup.mpr (Poller.owns_iff.mp howns)
  rw [heldBy, heldBy, hfragments]
  exact flatMap_perm_of_nodup hmem (List.nodup_dedup _) fun g hg => by rw [hother g hg]

theorem heldBy_enqueue (howns : p.owns fragment = true) (callback : Callback) :
    (heldBy (p.enqueue fragment callback)).Perm (callback.occurrences ++ heldBy p) := by
  obtain ⟨rest, hbefore, hafter⟩ := heldBy_perm (p.enqueue fragment callback) howns rfl
    fun g hg => by simp [Poller.enqueue, hg]
  have hqueue : (p.enqueue fragment callback).queue fragment = p.queue fragment ++ [callback] := by
    simp [Poller.enqueue]
  rw [hqueue, List.flatMap_append, List.flatMap_singleton, List.append_assoc] at hafter
  exact hafter.trans ((List.perm_append_comm_assoc _ _ _).trans (hbefore.symm.append_left _))

theorem heldBy_completed (howns : p.owns fragment = true) (now : Instant) :
    (heldBy p).Perm
      ((p.queue fragment).flatMap Callback.occurrences ++ heldBy (p.completed fragment now)) := by
  obtain ⟨rest, hbefore, hafter⟩ := heldBy_perm (p.completed fragment now) howns rfl
    fun g hg => by simp [Poller.completed, hg]
  have hqueue : (p.completed fragment now).queue fragment = [] := by
    simp [Poller.completed]
  rw [hqueue, List.flatMap_nil, List.nil_append] at hafter
  exact hbefore.trans (hafter.symm.append_left _)

end Poller

namespace World

theorem held_of_pollers {w w' : World} (hpollers : w'.pollers = w.pollers) : w'.held = w.held := by
  rw [held, held, hpollers]

@[simp]
theorem held_log (w : World) (e : Event) : (w.log e).held = w.held := rfl

@[simp]
theorem held_note (w : World) (c : Call) : (w.note c).held = w.held := rfl

@[simp]
theorem held_answer (w : World) (asker : Asker) (reply : Reply) :
    (w.answer asker reply).held = w.held :=
  held_of_pollers (pollers_answer w asker reply)

/-- What one poller has more or less, all together have. -/
theorem held_setPoller {w : World} {i : Nat} {p p' : Poller Callback} {more less : List Callback}
    (hp : w.pollers[i]? = some p) (hheld : (heldBy p' ++ less).Perm (more ++ heldBy p)) :
    ((w.setPoller i p').held ++ less).Perm (more ++ w.held) := by
  obtain ⟨rest, hbefore, hafter⟩ := flatMap_set_perm hp p' heldBy
  calc (w.setPoller i p').held ++ less
    _ |>.Perm ((heldBy p' ++ rest) ++ less) := hafter.append_right _
    _ |>.Perm ((heldBy p' ++ less) ++ rest) := by
        rw [List.append_assoc, List.append_assoc]
        exact List.perm_append_comm.append_left _
    _ |>.Perm ((more ++ heldBy p) ++ rest) := hheld.append_right _
    _ |>.Perm (more ++ w.held) := by
        rw [List.append_assoc]
        exact hbefore.symm.append_left _

end World

/-! ## Refreshers that run no programs -/

/-- The refresher is a poller, or does nothing. -/
def Refresher.isPlain : Refresher → Bool
  | .scripted _ => false
  | _ => true

/-- The operation makes no refresher but pollers and those that do nothing. -/
def Command.isPlain : Command → Bool
  | .scripted _ _ => false
  | .anonymous _ _ => false
  | _ => true

theorem Refresher.quiet_of_isPlain {r : Refresher} (hplain : r.isPlain = true) : r.Quiet := by
  cases r with
  | scripted script => contradiction
  | _ => trivial

namespace World

/-- Whatever has a name or is registered is plain. -/
abbrev Plain (w : World) : Prop :=
  w.All fun r => r.isPlain = true

theorem plain_empty (policy : BroadcastPolicy) : (empty policy).Plain := by
  constructor <;> simp [empty, Shell.empty, Registry.empty]

variable {w : World}

theorem Plain.of_setting {w' : World} (hplain : w.Plain) (hsetting : w'.setting = w.setting) :
    w'.Plain := by
  obtain ⟨hshell, hnames⟩ := Prod.mk.inj hsetting
  exact ⟨by rw [hnames]; exact hplain.names, by rw [hshell]; exact hplain.entries,
    by rw [hshell]; exact hplain.main⟩

theorem Plain.begin (hplain : w.Plain) {c : Command} (hc : c.isPlain = true) (now : Instant)
    (asker : Asker) : (w.begin now asker c).1.Plain := by
  obtain ⟨hshell, hnames⟩ := Prod.mk.inj (w.begin_setting now asker c)
  obtain ⟨hentries, hmain⟩ := hplain.shellAfter rfl c
  have hnamed : ∀ e ∈ w.namesAfter c, e.2.isPlain = true := by
    apply namesAfter_all (P := fun r => r.isPlain = true) hplain.names
    intro r hr
    cases c with
    | poller id fragments interval =>
        obtain rfl : .poller w.pollers.length = r := Option.some.inj hr
        rfl
    | noop id =>
        obtain rfl : .noop = r := Option.some.inj hr
        rfl
    | _ => contradiction
  exact ⟨by rw [hnames]; exact hnamed, by rw [hshell]; exact hentries, by rw [hshell]; exact hmain⟩

end World

/-! ## What a task does to what is held -/

/-- The callback that was started, if one was. -/
def Act.callback? : Act → Option Callback
  | .started s => some s.callback
  | .startedAtOnce _ callback => some callback
  | _ => none

theorem Act.Opens.callback?_eq_none {a : Act} (hopens : a.Opens) : a.callback? = none := by
  cases a with
  | started s => exact hopens.elim
  | startedAtOnce depth callback => exact hopens.elim
  | _ => rfl

/-- The operation that a task carries out. -/
def Task.command? : Task → Option Command
  | .command _ c => some c
  | _ => none

theorem commands_program (body : List Command) :
    (program body).filterMap Task.command? = body := by
  simp [program, Task.command?, Function.comp_def]

namespace World

/-- These callbacks and those in the world `w` are enough for the callbacks that were started and
those that the world and the tasks of `r` hold.  The operations among the tasks are what the started
ones are made of. -/
structure Spends (w : World) (callbacks started : List Callback) (r : World × List Task) :
    Prop where
  held : (started ++ (r.2.flatMap Task.callbacks ++ r.1.held)).Subperm (callbacks ++ w.held)
  commands : r.2.filterMap Task.command? = started.flatMap Callback.body

variable {w : World}

theorem Spends.of_eq {callbacks started : List Callback} {r : World × List Task}
    (hheld : started ++ (r.2.flatMap Task.callbacks ++ r.1.held) = callbacks ++ w.held)
    (hcommands : r.2.filterMap Task.command? = started.flatMap Callback.body) :
    w.Spends callbacks started r :=
  ⟨hheld ▸ .refl _, hcommands⟩

/-- What is given away is no trouble. -/
theorem Spends.drops (callbacks : List Callback) {r : World × List Task}
    (htasks : r.2.flatMap Task.callbacks = []) (hcommands : r.2.filterMap Task.command? = [])
    (hheld : r.1.held = w.held) : w.Spends callbacks [] r := by
  refine ⟨?_, hcommands⟩
  rw [htasks, hheld]
  exact (List.sublist_append_right _ _).subperm

/-- An answer and no more. -/
theorem Spends.answers (callbacks : List Callback) {w' : World} (asker : Asker) (reply : Reply)
    (hheld : w'.held = w.held) : w.Spends callbacks [] (w'.answer asker reply, []) :=
  .drops callbacks rfl rfl ((held_answer _ _ _).trans hheld)

theorem call_held (w : World) (now : Instant) (kind : BroadcastKind) (r : Refresher) :
    (w.call now kind r).1.held = w.held := by
  cases r with
  | noop => rfl
  | scripted script => rfl
  | poller i =>
      cases hp : w.pollers[i]? with
      | none => simp [call, hp]
      | some p =>
          have hset : ∀ p', heldBy p' = heldBy p → (w.setPoller i p').held = w.held := by
            intro p' hsame
            obtain ⟨hi, rfl⟩ := List.getElem?_eq_some_iff.mp hp
            rw [held, held, setPoller, List.flatMap_def, List.flatMap_def, List.map_set, hsame,
              ← List.getElem_map heldBy, List.set_getElem_self]
            simpa using hi
          cases kind with
          | stop => simpa [call, hp] using hset p.stop rfl
          | restart => simpa [call, hp] using hset (p.restart now) rfl

theorem callAlone_spends {r : Refresher} (hr : r.isPlain = true) (now : Instant) (asker : Asker)
    (kind : BroadcastKind) (callbacks : List Callback) :
    w.Spends callbacks [] (w.callAlone now asker kind r) := by
  have hprogram := call_program (Refresher.quiet_of_isPlain hr) w now kind
  apply Spends.drops callbacks ?_ ?_ (w.call_held now kind r)
  · simp [callAlone, hprogram, Task.callbacks]
  · simp [callAlone, hprogram, Task.command?]

/-- A callback that is handed over is held afterwards, or dropped. -/
theorem handOver_spends (w : World) (asker : Asker) (fragment : String) (callback : Callback)
    (r : Refresher) : w.Spends callback.occurrences [] (w.handOver asker fragment callback r) := by
  cases r with
  | noop => exact .of_eq (by simp [handOver, after, Task.callbacks]) rfl
  | scripted script =>
      cases hruns : script.runsCallbacks with
      | false =>
          apply Spends.drops <;> simp [handOver, after, hruns, Task.callbacks, Task.command?]
      | true => apply Spends.of_eq <;> simp [handOver, after, hruns, Task.callbacks, Task.command?]
  | poller i =>
      cases hp : w.pollers[i]? with
      | none => apply Spends.drops <;> simp [handOver, after, hp, Task.callbacks, Task.command?]
      | some p =>
          cases howns : p.owns fragment with
          | false =>
              apply Spends.of_eq <;>
                simp [handOver, after, hp, howns, Task.callbacks, Task.command?]
          | true =>
              have hheld : (heldBy (p.enqueue fragment callback) ++ []).Perm
                  (callback.occurrences ++ heldBy p) := by
                rw [List.append_nil]
                exact heldBy_enqueue howns callback
              simp only [handOver, after, hp, howns, ↓reduceIte]
              exact ⟨by simpa [Task.callbacks] using (held_setPoller hp hheld).subperm, rfl⟩

/-- An accepted cycle holds what waited for it. -/
theorem cycle_spends (w : World) (now : Instant) (asker : Asker) (id fragment : String) :
    w.Spends [] [] (w.begin now asker (.cycle id fragment)) := by
  cases hfind : w.findPoller? id with
  | none =>
      simp only [begin, withPoller, hfind]
      exact .answers _ _ _ rfl
  | some found =>
      obtain ⟨i, p⟩ := found
      have hp := getElem?_of_findPoller? hfind
      simp only [begin, withPoller, hfind, Poller.complete]
      cases howns : p.owns fragment with
      | false => exact .answers _ _ _ rfl
      | true =>
          cases p.isRunning with
          | false => exact .answers _ _ _ rfl
          | true =>
              have htaken : (heldBy (p.completed fragment now) ++
                  (p.queue fragment).flatMap Callback.occurrences).Perm ([] ++ heldBy p) :=
                List.perm_append_comm.trans (heldBy_completed howns now).symm
              have hheld := List.perm_append_comm.trans (held_setPoller hp htaken)
              refine ⟨?_, rfl⟩
              simp only [↓reduceIte, List.nil_append, List.flatMap_cons, List.flatMap_nil,
                List.append_nil]
              exact hheld.subperm

/-- What beginning an operation hands over is held afterwards, or dropped. -/
theorem begin_spends (hplain : w.Plain) (now : Instant) (asker : Asker) (c : Command) :
    w.Spends c.callbacks [] (w.begin now asker c) := by
  cases c with
  | afterMain fragment callback => exact w.handOver_spends asker fragment callback w.main
  | after id fragment callback =>
      exact withRefresher_elim (P := w.Spends _ _) (w.handOver_spends asker fragment callback)
        (.answers _ _ _ rfl)
  | callMain kind => exact callAlone_spends (hplain.registeredMain rfl) now asker kind _
  | call kind id =>
      simp only [begin, withRefresher]
      cases hfind : w.find? id with
      | none => exact .answers _ _ _ rfl
      | some r => exact callAlone_spends (hplain.find hfind) now asker kind _
  | cycle id fragment => exact w.cycle_spends now asker id fragment
  | poller id fragments interval =>
      refine .answers _ _ _ ?_
      simp [held, addPoller, bind, heldBy, Poller.start]
  | openModal =>
      simp only [begin, openModal]
      split
      · exact .drops _ rfl rfl rfl
      · exact .answers _ _ _ rfl
  | closeModal =>
      simp only [begin, closeModal]
      split
      · exact .answers _ _ _ rfl
      · split
        · exact .drops _ rfl rfl rfl
        · exact .answers _ _ _ rfl
  | add id =>
      exact withRefresher_elim (P := w.Spends _ _) (fun _ => .answers _ _ _ rfl)
        (.answers _ _ _ rfl)
  | addMain id =>
      exact withRefresher_elim (P := w.Spends _ _) (fun _ => .answers _ _ _ rfl)
        (.answers _ _ _ rfl)
  | query id fragment =>
      exact withPoller_elim (P := w.Spends _ _) (fun _ _ => .answers _ _ _ rfl)
        (.answers _ _ _ rfl)
  | due id offset =>
      exact withPoller_elim (P := w.Spends _ _) (fun _ _ => .answers _ _ _ rfl)
        (.answers _ _ _ rfl)
  | broadcast kind => exact .drops _ rfl rfl rfl
  | _ => exact .answers _ _ _ rfl

/-- What a task starts it held, and what is held afterwards was held besides. -/
theorem perform_spends (hplain : w.Plain) (now : Instant) (depth : Nat) {task : Task}
    (htask : ∀ r ∈ task.toCall, r.isPlain = true) :
    w.Spends task.callbacks (w.act depth task).callback?.toList (w.perform now task) := by
  cases task with
  | command asker c =>
      simp only [act, (w.commandAct_opens c).callback?_eq_none, Option.toList_none]
      exact begin_spends hplain now asker c
  | start callback =>
      apply Spends.of_eq <;> simp [act, Act.callback?, perform, startCallback, callbacks_program,
        commands_program, Task.callbacks, occurrences_eq callback]
  | cycling asker poller fragment cycle count waiting =>
      cases waiting with
      | nil => exact .answers _ _ _ rfl
      | cons callback waiting =>
          apply Spends.of_eq <;> simp [act, Act.callback?, perform, startCallback,
            callbacks_program, commands_program, Task.callbacks, Task.command?,
            occurrences_eq callback]
  | broadcasting asker cause report rest =>
      cases rest with
      | nil => exact .answers _ _ _ rfl
      | cons r rest =>
          have hr : r.isPlain = true := htask r List.mem_cons_self
          have hprogram := call_program (Refresher.quiet_of_isPlain hr) w now report.kind
          rw [act, (w.callAct_opens report.kind r).callback?_eq_none]
          apply Spends.drops <;> simp [perform, hprogram, call_held, Task.callbacks, Task.command?]
  | settling asker cause report called outcome rest =>
      simp only [perform]
      split
      · exact .drops _ rfl rfl rfl
      · exact .answers _ _ _ rfl
  | answer asker reply => exact .answers _ _ _ rfl

end World

/-! ## Runs -/

namespace Machine

/-- The operations that are still to be carried out, if ever: those on the agenda, and those that
the callbacks which are held are made of. -/
def operations (m : Machine) : List Command :=
  m.agenda.filterMap Task.command? ++ m.held.flatMap Callback.body

/-- No refresher runs a program of its own, and none that does is ever made. -/
structure Plain (m : Machine) : Prop where
  world : m.world.Plain
  calls : ∀ r ∈ m.toCall, r.isPlain = true
  operations : ∀ c ∈ m.operations, c.isPlain = true

variable {m : Machine}

section Step

variable {task : Task} {rest : List Task}

/-- What a task does to the operations on the agenda and to what is held. -/
structure Performs (m : Machine) (task : Task) (rest : List Task) (m' : Machine) : Prop where
  held : ((m.act .perform).callback?.toList ++ m'.held).Subperm m.held
  commands : m'.agenda.filterMap Task.command? =
    (m.act .perform).callback?.toList.flatMap Callback.body ++ rest.filterMap Task.command?

theorem Plain.next_calls (hplain : m.Plain) (hagenda : m.agenda = task :: rest) :
    ∀ r ∈ task.toCall, r.isPlain = true := by
  intro r hr
  refine hplain.calls r ?_
  simp [toCall, hagenda, hr]

theorem Plain.performs (hplain : m.Plain) (now : Instant) (hagenda : m.agenda = task :: rest) :
    m.Performs task rest (m.move now .perform) := by
  obtain ⟨hheld, hcommands⟩ :=
    World.perform_spends hplain.world now rest.length (hplain.next_calls hagenda)
  rw [← act_perform hagenda] at hheld hcommands
  constructor
  · have hbefore : m.held.Perm
        (rest.flatMap Task.callbacks ++ (task.callbacks ++ m.world.held)) := by
      rw [held, hagenda, List.flatMap_cons, List.append_assoc]
      exact List.perm_append_comm_assoc _ _ _
    have hafter : ((m.act .perform).callback?.toList ++ (m.move now .perform).held).Perm
        (rest.flatMap Task.callbacks ++ ((m.act .perform).callback?.toList ++
          ((m.world.perform now task).2.flatMap Task.callbacks ++
            (m.world.perform now task).1.held))) := by
      rw [move_perform now hagenda, held, List.flatMap_append, List.append_assoc]
      refine ((List.perm_append_comm_assoc _ _ _).append_left _).trans ?_
      exact List.perm_append_comm_assoc _ _ _
    exact hafter.subperm.trans (((List.subperm_append_left _).mpr hheld).trans hbefore.symm.subperm)
  · rw [move_perform now hagenda, List.filterMap_append, hcommands]

/-- A task leaves everything plain. -/
theorem Plain.next (hplain : m.Plain) (now : Instant) (hagenda : m.agenda = task :: rest) :
    (m.move now .perform).Plain := by
  obtain ⟨hheld, hcommands⟩ := hplain.performs now hagenda
  have hsubset := hheld.subset
  have hmember : ∀ callback ∈ m.held, ∀ c ∈ callback.body, c.isPlain = true := by
    intro callback hcallback c hc
    exact hplain.operations c
      (List.mem_append_right _ (List.mem_flatMap.mpr ⟨callback, hcallback, hc⟩))
  have hagendaPlain : ∀ c ∈ m.agenda.filterMap Task.command?, c.isPlain = true :=
    fun c hc => hplain.operations c (List.mem_append_left _ hc)
  refine ⟨?_, ?_, ?_⟩
  · rw [move_perform now hagenda]
    cases task with
    | command asker c =>
        exact World.Plain.begin hplain.world (hagendaPlain c (by simp [hagenda, Task.command?])) now
          asker
    | _ => exact World.Plain.of_setting hplain.world (World.perform_setting (by simp))
  · intro r hr
    rcases List.mem_append.mp (m.turn_toCall now (.move .perform) hr) with hcall | hentry
    · exact hplain.calls r hcall
    · exact hplain.world.entries r hentry
  · intro c hc
    rw [Machine.operations, hcommands, List.mem_append, List.mem_append] at hc
    rcases hc with (hstarted | hrest) | hlater
    · obtain ⟨callback, hcallback, hbody⟩ := List.mem_flatMap.mp hstarted
      exact hmember callback (hsubset (List.mem_append_left _ hcallback)) c hbody
    · refine hagendaPlain c ?_
      rw [hagenda, filterMap_cons_eq_append]
      exact List.mem_append_right _ hrest
    · obtain ⟨callback, hcallback, hbody⟩ := List.mem_flatMap.mp hlater
      exact hmember callback (hsubset (List.mem_append_right _ hcallback)) c hbody

end Step

/-- The callbacks that a run started, first to last. -/
def started (m : Machine) (run : Run) : List Callback :=
  (m.history run).filterMap fun e => e.2.callback?

/-- Tasks are performed at these readings of the clock. -/
def performing (clock : List Instant) : Run :=
  clock.map fun now => (now, .perform)

/-- What was started and what is still held was held at the start, each occurrence once. -/
theorem Plain.run (hplain : m.Plain) (clock : List Instant) :
    (m.after (performing clock)).Plain ∧
      (m.started (performing clock) ++ (m.after (performing clock)).held).Subperm m.held := by
  induction clock generalizing m with
  | nil => exact ⟨hplain, .refl _⟩
  | cons now clock ih =>
      cases hagenda : m.agenda with
      | nil =>
          obtain ⟨hlater, hheld⟩ := ih hplain
          have hact : m.act .perform = .quiet := by simp [act, hagenda]
          rw [started, performing, List.map_cons, after, history, move_perform_nil now hagenda,
            hact]
          exact ⟨hlater, hheld⟩
      | cons task rest =>
          obtain ⟨hlater, hheld⟩ := ih (hplain.next now hagenda)
          refine ⟨hlater, ?_⟩
          rw [started, performing, List.map_cons, after, history, filterMap_cons_eq_append,
            List.append_assoc]
          exact ((List.subperm_append_left _).mpr hheld).trans (hplain.performs now hagenda).held

end Machine

end PageRefresh.Session
