import PageRefresh.Proofs.Session.Act

/-!
What a run comes to, act by act.

A history is the list of the acts of a run.  What was queued, started and answered for a fragment,
and when pollers were stopped and restarted, is read off it.  A run that leaves the lowest tasks of
an agenda alone starts nothing at their depth, so within a call the depth tells the starts of its
own loop from those of the calls that are made inside it.
-/

namespace PageRefresh.Session

/-- The acts of a run, each with what the clock read at it. -/
abbrev History := List (Instant × Act)

/-- What a run comes to, move by move. -/
def Machine.history (m : Machine) : Run → History
  | [] => []
  | (now, mv) :: run => (now, m.act mv) :: (m.move now mv).history run

theorem Machine.history_append (m : Machine) (first second : Run) :
    m.history (first ++ second) = m.history first ++ (m.after first).history second := by
  induction first generalizing m with
  | nil => rfl
  | cons head first ih => simp only [List.cons_append, history, after, ih]

theorem Machine.history_concat (m : Machine) (run : Run) (now : Instant) (mv : Move) :
    m.history (run ++ [(now, mv)]) = m.history run ++ [(now, (m.after run).act mv)] :=
  history_append m run [(now, mv)]

theorem Machine.history_instants (m : Machine) (run : Run) :
    (m.history run).map Prod.fst = run.map Prod.fst := by
  induction run generalizing m with
  | nil => rfl
  | cons head run ih => simp only [history, List.map_cons, ih]

theorem filterMap_cons_eq_append {α β : Type} (f : α → Option β) (x : α) (xs : List α) :
    (x :: xs).filterMap f = (f x).toList ++ xs.filterMap f := by
  cases hx : f x <;> simp [hx]

/-! ## What a history tells -/

def Start.isFor (i : Nat) (fragment : String) (s : Start) : Bool :=
  s.poller == i && s.fragment == fragment

def Frame.isFor (i : Nat) (fragment : String) (frame : Frame) : Bool :=
  frame.poller == i && frame.fragment == fragment

namespace Act

/-- The callback that began to wait for a fragment. -/
def queued? (i : Nat) (fragment : String) : Act → Option Callback
  | .queued j g callback => if j == i && g == fragment then some callback else none
  | _ => none

/-- A cycle of the fragment was accepted. -/
def begins (i : Nat) (fragment : String) : Act → Bool
  | .began j g => j == i && g == fragment
  | _ => false

def start? : Act → Option Start
  | .started s => some s
  | _ => none

/-- The callback that a cycle of the fragment started. -/
def startedFor? (i : Nat) (fragment : String) : Act → Option Callback
  | .started s => if s.isFor i fragment then some s.callback else none
  | _ => none

/-- The number that a cycle of the fragment answered. -/
def returned? (i : Nat) (fragment : String) : Act → Option Nat
  | .finished j g count => if j == i && g == fragment then some count else none
  | _ => none

def startedAtOnce? : Act → Option (Nat × Callback)
  | .startedAtOnce depth callback => some (depth, callback)
  | _ => none

end Act

namespace History

/-- The callbacks ever queued for a fragment of a poller, first to last. -/
def queuedFor (h : History) (i : Nat) (fragment : String) : List Callback :=
  h.filterMap fun e => e.2.queued? i fragment

/-- The callbacks that cycles started, first to last. -/
def starts (h : History) : List Start :=
  h.filterMap fun e => e.2.start?

/-- The callbacks that cycles of a fragment started, first to last. -/
def startedFor (h : History) (i : Nat) (fragment : String) : List Callback :=
  h.filterMap fun e => e.2.startedFor? i fragment

/-- What completed cycles of a fragment answered, first to last. -/
def returnedFor (h : History) (i : Nat) (fragment : String) : List Nat :=
  h.filterMap fun e => e.2.returned? i fragment

/-- The callbacks started without waiting, with the number of tasks each was started on top of. -/
def startsAtOnce (h : History) : List (Nat × Callback) :=
  h.filterMap fun e => e.2.startedAtOnce?

end History

/-! ## Pollers, act by act -/

namespace Act

variable {a : Act} {pollers : List (Poller Callback)} {now : Instant} {i : Nat}

/-- The poller that an act is about. -/
def poller? : Act → Option Nat
  | .made j _ _ => some j
  | .stopped j => some j
  | .restarted j => some j
  | .queued j _ _ => some j
  | .began j _ => some j
  | _ => none

theorem onPoller_other {p : Poller Callback} (hother : a.poller? ≠ some i) :
    a.onPoller now i p = p := by
  cases a with
  | stopped j => exact if_neg fun hij => hother (by rw [poller?, hij])
  | restarted j => exact if_neg fun hij => hother (by rw [poller?, hij])
  | queued j g callback => exact if_neg fun hij => hother (by rw [poller?, hij])
  | began j g => exact if_neg fun hij => hother (by rw [poller?, hij])
  | _ => rfl

theorem queued?_other {fragment : String} (hother : a.poller? ≠ some i) :
    a.queued? i fragment = none := by
  cases a with
  | queued j g callback =>
      have hji : ¬ j = i := fun h => hother (congrArg some h)
      simp [queued?, hji]
  | _ => rfl

/-- An act that can happen to a poller that is there does not make it. -/
theorem ne_made {p : Poller Callback} {fragments : List String} {interval : Duration}
    (hpossible : a.Possible pollers) (hp : pollers[i]? = some p) :
    a ≠ .made i fragments interval := by
  rintro rfl
  have hi := (List.getElem?_eq_some_iff.mp hp).1
  rw [hpossible] at hi
  exact Nat.lt_irrefl _ hi

theorem getElem?_onPollers {p : Poller Callback} (hp : pollers[i]? = some p) :
    (a.onPollers now pollers)[i]? = some (a.onPoller now i p) := by
  have hi : i < pollers.length := (List.getElem?_eq_some_iff.mp hp).1
  rw [onPollers, List.getElem?_append_left (by simpa using hi), List.getElem?_mapIdx, hp]
  rfl

/-- A poller that was not there before has just been made. -/
theorem made_of_getElem?_onPollers {p : Poller Callback} (hpossible : a.Possible pollers)
    (hnone : pollers[i]? = none) (hp : (a.onPollers now pollers)[i]? = some p) :
    ∃ fragments interval, a = .made i fragments interval ∧
      p = .start fragments interval now := by
  have hi : pollers.length ≤ i := List.getElem?_eq_none_iff.mp hnone
  rw [onPollers, List.getElem?_append_right (by simpa using hi)] at hp
  cases a with
  | made j fragments interval =>
      obtain rfl : j = pollers.length := hpossible
      simp only [newPollers, List.length_mapIdx, List.getElem?_singleton] at hp
      split at hp
      · refine ⟨fragments, interval, ?_, (Option.some.inj hp).symm⟩
        congr 1
        omega
      · contradiction
  | _ => simp [newPollers] at hp

end Act

/-! ## Depths -/

/-- Beginning an operation can come to such an act: it starts no callback and finishes no cycle. -/
def Act.Opens : Act → Prop
  | .started _ => False
  | .startedAtOnce _ _ => False
  | .finished _ _ _ => False
  | _ => True

theorem Act.Opens.starts_nothing {a : Act} (hopens : a.Opens) :
    a.start? = none ∧ a.startedAtOnce? = none := by
  cases a with
  | started s => exact hopens.elim
  | startedAtOnce depth callback => exact hopens.elim
  | _ => exact ⟨rfl, rfl⟩

namespace World

theorem callAct_opens (w : World) (kind : BroadcastKind) (r : Refresher) :
    (w.callAct kind r).Opens := by
  unfold callAct
  split
  · split <;> trivial
  · trivial

theorem afterAct_opens (w : World) (fragment : String) (callback : Callback) (r : Refresher) :
    (w.afterAct fragment callback r).Opens := by
  unfold afterAct
  split
  · split
    · trivial
    · split <;> trivial
  · trivial

theorem commandAct_opens (w : World) (c : Command) : (w.commandAct c).Opens := by
  cases c with
  | afterMain fragment callback => exact w.afterAct_opens fragment callback w.main
  | callMain kind => exact w.callAct_opens kind w.main
  | after id fragment callback =>
      simp only [commandAct]
      split
      · exact w.afterAct_opens fragment callback _
      · trivial
  | call kind id =>
      simp only [commandAct]
      split
      · exact w.callAct_opens kind _
      · trivial
  | cycle id fragment =>
      simp only [commandAct]
      split
      · split <;> trivial
      · trivial
  | _ => trivial

end World

/-- A callback is started at the depth at which the move works, and without waiting only by its own
task. -/
theorem World.act_depth (w : World) (depth : Nat) (task : Task) :
    (∀ s ∈ (w.act depth task).start?, s.depth = depth) ∧
      ∀ e ∈ (w.act depth task).startedAtOnce?, e.1 = depth ∧ task = .start e.2 := by
  cases task with
  | command asker c =>
      obtain ⟨hstart, hatOnce⟩ := (w.commandAct_opens c).starts_nothing
      simp [act, hstart, hatOnce]
  | broadcasting asker cause report rest =>
      cases rest with
      | nil => simp [act, Act.start?, Act.startedAtOnce?]
      | cons r rest =>
          obtain ⟨hstart, hatOnce⟩ := (w.callAct_opens report.kind r).starts_nothing
          simp [act, hstart, hatOnce]
  | cycling asker poller fragment cycle count waiting =>
      cases waiting <;> simp [act, Act.start?, Act.startedAtOnce?]
  | start callback => simp [act, Act.start?, Act.startedAtOnce?]
  | settling asker cause report called outcome rest =>
      simp [act, Act.start?, Act.startedAtOnce?]
  | answer asker reply => simp [act, Act.start?, Act.startedAtOnce?]

namespace Machine

theorem act_depth (m : Machine) (mv : Move) :
    (∀ s ∈ (m.act mv).start?, s.depth = m.depthOf mv) ∧
      ∀ e ∈ (m.act mv).startedAtOnce?, e.1 = m.depthOf mv := by
  cases mv with
  | issue asker c => simp [act, Act.start?, Act.startedAtOnce?]
  | collect => simp [act, Act.start?, Act.startedAtOnce?]
  | perform =>
      cases hagenda : m.agenda with
      | nil => simp [act, hagenda, Act.start?, Act.startedAtOnce?]
      | cons task rest =>
          obtain ⟨hstart, hatOnce⟩ := m.world.act_depth rest.length task
          rw [act_perform hagenda]
          simp only [depthOf, hagenda, List.length_cons, Nat.add_sub_cancel]
          exact ⟨hstart, fun e he => (hatOnce e he).1⟩

/-- While the lowest `depth + 1` tasks are left alone, everything is started above `depth`. -/
theorem WorksAbove.depth_lt {depth : Nat} {m : Machine} {run : Run}
    (hworks : m.WorksAbove depth run) :
    (∀ s ∈ (m.history run).starts, depth < s.depth) ∧
      ∀ e ∈ (m.history run).startsAtOnce, depth < e.1 := by
  induction run generalizing m with
  | nil => simp [history, History.starts, History.startsAtOnce]
  | cons head run ih =>
      obtain ⟨now, mv⟩ := head
      obtain ⟨hdepth, hrest⟩ := hworks
      obtain ⟨hstart, hatOnce⟩ := m.act_depth mv
      obtain ⟨hstarts, hstartsAtOnce⟩ := ih hrest
      simp only [history, History.starts, History.startsAtOnce,
        filterMap_cons_eq_append, List.mem_append, Option.mem_toList]
      constructor
      · rintro s (hs | hs)
        · rw [hstart s hs]
          exact hdepth
        · exact hstarts s hs
      · rintro e (he | he)
        · rw [hatOnce e he]
          exact hdepth
        · exact hstartsAtOnce e he

end Machine

end PageRefresh.Session
