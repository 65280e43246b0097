import Mathlib.Algebra.GroupWithZero.Nat
import Mathlib.Data.List.Induction
import Mathlib.Data.List.Perm.Subperm
import PageRefresh.Proofs.Session.AtOnce
import PageRefresh.Proofs.Session.Journal

/-!
Where the callbacks of a fragment are.

A callback that was queued for a fragment of a poller waits in the poller's queue, then is held by
the cycle that took the queue, then is started by that cycle.  One equation says so for every move
(`custody_move`): what was held and queued before, together with what the move queues, is what the
move starts, together with what is held and queued after it.  Over a run nothing is lost and nothing
is added (`custody_run_perm`), and the order is kept as well unless a cycle begins while another one
of the same fragment still holds callbacks (`custody_run_eq`).
-/

namespace PageRefresh.Session

/-! ## One move -/

namespace Machine

/-- The callbacks that cycles of a fragment have taken and not started yet. -/
def inFlight (m : Machine) (i : Nat) (fragment : String) : List Callback :=
  m.frames.flatMap fun frame => if frame.isFor i fragment then frame.waiting else []

/-- How many callbacks the cycles of a fragment that are under way have taken. -/
def taken (m : Machine) (i : Nat) (fragment : String) : Nat :=
  (m.frames.map fun frame => if frame.isFor i fragment then frame.count else 0).sum

/-- The callbacks that wait for the next cycle of a fragment. -/
def queue (m : Machine) (i : Nat) (fragment : String) : List Callback :=
  queueAt m.world.pollers i fragment

/-- All callbacks of a fragment that have not been started, in the order in which they will be if
no further cycle interferes. -/
def custody (m : Machine) (i : Nat) (fragment : String) : List Callback :=
  m.inFlight i fragment ++ m.queue i fragment

end Machine

namespace Act

variable {a : Act} {pollers : List (Poller Callback)} {now : Instant} {i : Nat}

/-- Nothing can be queued for a poller that is not there. -/
theorem queued?_of_none {fragment : String} (hpossible : a.Possible pollers)
    (hnone : pollers[i]? = none) : a.queued? i fragment = none := by
  cases a with
  | queued j g callback =>
      obtain ⟨p, hp, -⟩ := hpossible
      have hji : ¬ j = i := by
        rintro rfl
        rw [hnone] at hp
        contradiction
      simp [queued?, hji]
  | _ => rfl

/-- A queue grows by what is queued for it and, but for a cycle of its fragment, changes in no other
way. -/
theorem queueAt_onPollers {fragment : String} (hpossible : a.Possible pollers)
    (hbegan : a ≠ .began i fragment) :
    queueAt (a.onPollers now pollers) i fragment =
      queueAt pollers i fragment ++ (a.queued? i fragment).toList := by
  cases hp : pollers[i]? with
  | none =>
      rw [queued?_of_none hpossible hp]
      cases hp' : (a.onPollers now pollers)[i]? with
      | none => simp [queueAt, hp, hp']
      | some p' =>
          obtain ⟨fragments, interval, -, rfl⟩ := made_of_getElem?_onPollers hpossible hp hp'
          simp [queueAt, hp, hp', Poller.start]
  | some p =>
      simp only [queueAt, hp, getElem?_onPollers hp]
      by_cases hpoller : a.poller? = some i
      · cases a with
        | queued j g callback =>
            obtain rfl : j = i := Option.some.inj hpoller
            by_cases hg : fragment = g
            · simp [onPoller, queued?, Poller.enqueue, hg]
            · have hg' : ¬ g = fragment := fun h => hg h.symm
              simp [onPoller, queued?, Poller.enqueue, hg, hg']
        | began j g =>
            obtain rfl : j = i := Option.some.inj hpoller
            have hg : ¬ fragment = g := by
              rintro rfl
              exact hbegan rfl
            simp [onPoller, queued?, Poller.completed, hg]
        | stopped j => by_cases hij : i = j <;> simp [onPoller, queued?, Poller.stop, hij]
        | restarted j => by_cases hij : i = j <;> simp [onPoller, queued?, Poller.restart, hij]
        | _ => simp [onPoller, queued?]
      · rw [onPoller_other hpoller, queued?_other hpoller, Option.toList_none, List.append_nil]

/-- A completed cycle empties the queue of its fragment. -/
theorem queueAt_began {fragment : String} :
    queueAt ((Act.began i fragment).onPollers now pollers) i fragment = [] := by
  cases hp : pollers[i]? with
  | none => simp [queueAt, onPollers, newPollers, hp]
  | some p => simp [queueAt, getElem?_onPollers hp, onPoller, Poller.completed]

end Act

namespace Machine

variable (m : Machine) (now : Instant) (mv : Move) (i : Nat) (fragment : String)

/-- A cycle that begins holds what was queued, on top of what other cycles hold. -/
theorem custody_began (hact : m.act mv = .began i fragment) :
    (m.move now mv).custody i fragment = m.queue i fragment ++ m.inFlight i fragment := by
  obtain ⟨-, hpollers, hframes⟩ := m.move_does now mv
  rw [hact] at hpollers hframes
  simp only [Act.OnFrames] at hframes
  rw [custody, inFlight, queue, hpollers, hframes, Act.queueAt_began]
  simp [Frame.isFor, inFlight, queue]

/-- A move other than beginning a cycle of the fragment starts the first callback in flight or
leaves all of them there. -/
theorem inFlight_not_began (hact : m.act mv ≠ .began i fragment) :
    m.inFlight i fragment =
      ((m.act mv).startedFor? i fragment).toList ++ (m.move now mv).inFlight i fragment := by
  have hframes := (m.move_does now mv).frames
  unfold inFlight
  cases ha : m.act mv with
  | began j g =>
      have hfor : ¬ (j = i ∧ g = fragment) := by
        rintro ⟨rfl, rfl⟩
        exact hact ha
      simp only [ha, Act.OnFrames] at hframes
      simp [hframes, Act.startedFor?, Frame.isFor, hfor]
  | started s =>
      rw [ha] at hframes
      obtain ⟨count, waiting, rest, hbefore, hafter⟩ := hframes
      rw [hbefore, hafter]
      by_cases hfor : s.poller = i ∧ s.fragment = fragment <;>
        simp [Act.startedFor?, Frame.isFor, Start.isFor, hfor]
  | finished j g count =>
      simp only [ha, Act.OnFrames] at hframes
      simp [hframes, Act.startedFor?]
  | _ =>
      simp only [ha, Act.OnFrames] at hframes
      simp [hframes, Act.startedFor?]

/-- A move other than beginning a cycle of the fragment starts the first of the callbacks in
custody, or queues one behind the last, or leaves them alone. -/
theorem custody_not_began (hact : m.act mv ≠ .began i fragment) :
    m.custody i fragment ++ ((m.act mv).queued? i fragment).toList =
      ((m.act mv).startedFor? i fragment).toList ++ (m.move now mv).custody i fragment := by
  obtain ⟨hpossible, hpollers, -⟩ := m.move_does now mv
  have hqueue : (m.move now mv).queue i fragment =
      m.queue i fragment ++ ((m.act mv).queued? i fragment).toList := by
    rw [queue, hpollers, Act.queueAt_onPollers hpossible hact, queue]
  rw [custody, custody, hqueue, m.inFlight_not_began now mv i fragment hact]
  simp only [List.append_assoc]

/-- Nothing gets lost or added in a move, and nothing changes its place unless a cycle begins while
another one of the same fragment still holds callbacks. -/
theorem custody_move :
    (m.custody i fragment ++ ((m.act mv).queued? i fragment).toList).Perm
        (((m.act mv).startedFor? i fragment).toList ++ (m.move now mv).custody i fragment) ∧
      (((m.act mv).begins i fragment = true → m.inFlight i fragment = []) →
        m.custody i fragment ++ ((m.act mv).queued? i fragment).toList =
          ((m.act mv).startedFor? i fragment).toList ++
            (m.move now mv).custody i fragment) := by
  by_cases hact : m.act mv = .began i fragment
  · rw [m.custody_began now mv i fragment hact, hact]
    constructor
    · simpa [custody, Act.queued?, Act.startedFor?] using List.perm_append_comm
    · intro hflight
      have hbegins : (Act.began i fragment).begins i fragment = true := by simp [Act.begins]
      simp [custody, hflight hbegins, Act.queued?, Act.startedFor?]
  · have hsame := m.custody_not_began now mv i fragment hact
    exact ⟨.of_eq hsame, fun _ => hsame⟩

/-- What a cycle takes it holds, what it starts it no longer holds, and what it answers is what it
took. -/
theorem taken_move :
    (m.move now mv).taken i fragment + ((m.act mv).returned? i fragment).toList.sum +
        (m.inFlight i fragment).length =
      m.taken i fragment + ((m.act mv).startedFor? i fragment).toList.length +
        ((m.move now mv).inFlight i fragment).length := by
  have hframes := (m.move_does now mv).frames
  unfold inFlight taken
  cases ha : m.act mv with
  | began j g =>
      simp only [ha, Act.OnFrames] at hframes
      by_cases hfor : j = i ∧ g = fragment <;>
        simp [hframes, Act.startedFor?, Act.returned?, Frame.isFor, hfor]
      omega
  | started s =>
      rw [ha] at hframes
      obtain ⟨count, waiting, rest, hbefore, hafter⟩ := hframes
      rw [hbefore, hafter]
      by_cases hfor : s.poller = i ∧ s.fragment = fragment <;>
        simp [Act.startedFor?, Act.returned?, Frame.isFor, Start.isFor, hfor]
      omega
  | finished j g count =>
      simp only [ha, Act.OnFrames] at hframes
      by_cases hfor : j = i ∧ g = fragment <;>
        simp [hframes, Act.startedFor?, Act.returned?, Frame.isFor, hfor]
      omega
  | _ =>
      simp only [ha, Act.OnFrames] at hframes
      simp [hframes, Act.startedFor?, Act.returned?]

end Machine

/-! ## A run -/

namespace Machine

variable (m : Machine) (i : Nat) (fragment : String)

/-- No cycle of the fragment begins while another one still holds callbacks. -/
def Unnested (m : Machine) : Run → Prop
  | [] => True
  | (now, mv) :: run =>
      ((m.act mv).begins i fragment = true → m.inFlight i fragment = []) ∧
        (m.move now mv).Unnested run

instance Unnested.decidable (m : Machine) : ∀ run : Run, Decidable (m.Unnested i fragment run)
  | [] => .isTrue trivial
  | (now, mv) :: run =>
      have := decidable (m.move now mv) run
      inferInstanceAs (Decidable (_ ∧ _))

theorem custody_run_perm (run : Run) :
    (m.custody i fragment ++ (m.history run).queuedFor i fragment).Perm
      ((m.history run).startedFor i fragment ++ (m.after run).custody i fragment) := by
  induction run generalizing m with
  | nil => simp [history, after, History.queuedFor, History.startedFor]
  | cons head run ih =>
      obtain ⟨now, mv⟩ := head
      have hmove := (m.custody_move now mv i fragment).1
      simp only [history, after, History.queuedFor, History.startedFor,
        filterMap_cons_eq_append] at ih ⊢
      rw [← List.append_assoc]
      refine (hmove.append_right _).trans ?_
      rw [List.append_assoc, List.append_assoc]
      exact (ih (m.move now mv)).append_left _

theorem custody_run_eq (run : Run) (hunnested : m.Unnested i fragment run) :
    m.custody i fragment ++ (m.history run).queuedFor i fragment =
      (m.history run).startedFor i fragment ++ (m.after run).custody i fragment := by
  induction run generalizing m with
  | nil => simp [history, after, History.queuedFor, History.startedFor]
  | cons head run ih =>
      obtain ⟨now, mv⟩ := head
      obtain ⟨hbegan, hrest⟩ := hunnested
      have hmove := (m.custody_move now mv i fragment).2 hbegan
      have hnext := ih (m.move now mv) hrest
      simp only [history, after, History.queuedFor, History.startedFor,
        filterMap_cons_eq_append] at hnext ⊢
      rw [← List.append_assoc, hmove, List.append_assoc, hnext, List.append_assoc]

/-- With no cycle of the fragment under way, none of its callbacks is taken or in flight. -/
theorem none_taken (hframes : ∀ frame ∈ m.frames, frame.isFor i fragment = false) :
    m.taken i fragment = 0 ∧ m.inFlight i fragment = [] := by
  constructor
  · have hzero : ∀ frame ∈ m.frames,
        (if frame.isFor i fragment then frame.count else 0) = 0 := by
      intro frame hframe
      simp [hframes frame hframe]
    simp [taken, List.map_congr_left hzero]
  · rw [inFlight, List.flatMap_eq_nil_iff]
    intro frame hframe
    simp [hframes frame hframe]

theorem taken_run (run : Run) :
    (m.after run).taken i fragment + ((m.history run).returnedFor i fragment).sum +
        (m.inFlight i fragment).length =
      m.taken i fragment + ((m.history run).startedFor i fragment).length +
        ((m.after run).inFlight i fragment).length := by
  induction run generalizing m with
  | nil => simp [history, after, History.returnedFor, History.startedFor]
  | cons head run ih =>
      obtain ⟨now, mv⟩ := head
      have hmove := m.taken_move now mv i fragment
      have hnext := ih (m.move now mv)
      simp only [history, after, History.returnedFor, History.startedFor,
        filterMap_cons_eq_append, List.sum_append, List.length_append] at hnext ⊢
      omega

end Machine

/-! ## Fragments that a poller does not own -/

theorem Act.fragments_onPoller (a : Act) (now : Instant) (i : Nat) (p : Poller Callback) :
    (a.onPoller now i p).fragments = p.fragments := by
  unfold onPoller
  split
  all_goals try rfl
  all_goals split <;> rfl

namespace Machine

/-- A callback is never queued for a fragment that the poller does not own. -/
theorem queuedFor_eq_nil (m : Machine) (i : Nat) (fragment : String) (run : Run)
    (howns : ∀ p, (m.after run).world.pollers[i]? = some p → p.owns fragment = false) :
    (m.history run).queuedFor i fragment = [] := by
  induction run using List.reverseRecOn with
  | nil => rfl
  | append_singleton run last ih =>
      obtain ⟨now, mv⟩ := last
      obtain ⟨hpossible, hpollers, -⟩ := (m.after run).move_does now mv
      have hbefore : ∀ p, (m.after run).world.pollers[i]? = some p →
          p.owns fragment = false := by
        intro p hp
        have hp' : (m.after (run ++ [(now, mv)])).world.pollers[i]? =
            some (((m.after run).act mv).onPoller now i p) := by
          rw [after_concat, hpollers]
          exact Act.getElem?_onPollers hp
        have hsame := howns _ hp'
        rwa [Poller.owns, Act.fragments_onPoller] at hsame
      have hact : ((m.after run).act mv).queued? i fragment = none := by
        cases ha : (m.after run).act mv with
        | queued j g callback =>
            rw [ha] at hpossible
            obtain ⟨p, hp, hg⟩ := hpossible
            have hother : ¬ (j = i ∧ g = fragment) := by
              rintro ⟨rfl, rfl⟩
              rw [hbefore p hp] at hg
              contradiction
            simp [Act.queued?, hother]
        | _ => rfl
      have hrun := ih hbefore
      rw [history_concat]
      simp only [History.queuedFor, List.filterMap_append] at hrun ⊢
      rw [hrun]
      simp [hact]

/-- The operation hands this callback for this fragment to the poller with index `i`. -/
def Gives (m : Machine) (c : Command) (i : Nat) (fragment : String) (callback : Callback) : Prop :=
  (∃ id, c = .after id fragment callback ∧ m.world.find? id = some (.poller i)) ∨
    (c = .afterMain fragment callback ∧ m.world.main = .poller i)

theorem move_gives_unowned {m : Machine} {asker : Asker} {c : Command} {rest : List Task} {i : Nat}
    {fragment : String} {callback : Callback} {p : Poller Callback} (now : Instant)
    (hagenda : m.agenda = .command asker c :: rest) (hgives : m.Gives c i fragment callback)
    (hp : m.world.pollers[i]? = some p) (howns : p.owns fragment = false) :
    m.move now .perform =
      ⟨m.world.log (.afterRefreshUnowned fragment),
        .start callback :: .answer asker .done :: rest⟩ := by
  rw [move_perform now hagenda]
  rcases hgives with ⟨id, rfl, hfind⟩ | ⟨rfl, hmain⟩
  · simp [World.perform, World.begin, World.withRefresher, hfind, World.handOver, World.after, hp,
      howns]
  · simp [World.perform, World.begin, hmain, World.handOver, World.after, hp, howns]

end Machine

/-! ## No callback is lost, duplicated or misrouted -/

/-- A machine that was handed a callback starts it on its own, and asks no poller to keep it. -/
structure Machine.RunsAtOnce (m : Machine) (now : Instant) (asker : Asker) (callback : Callback)
    (rest : List Task) : Prop where
  pollers : (m.move now .perform).world.pollers = m.world.pollers
  agenda : (m.move now .perform).agenda = .start callback :: .answer asker .done :: rest
  /-- Until the call returns, the callback is started once. -/
  once : ∀ later, (m.move now .perform).StaysAbove rest.length later →
    ((m.move now .perform).after later).agenda.length = rest.length →
      ((m.move now .perform).history later).startsAtOnce.filter
        (fun e => e.1 == rest.length + 1) = [(rest.length + 1, callback)]

/-- What has become, at the end of a run, of the callbacks of a fragment of a poller. -/
structure Kept (m : Machine) (run : Run) (i : Nat) (p : Poller Callback) (fragment : String) :
    Prop where
  /-- Each callback queued for the fragment was started, is in flight or waits. -/
  queued : ((m.history run).queuedFor i fragment).Perm
    ((m.history run).startedFor i fragment ++ (m.after run).inFlight i fragment ++
      p.queue fragment)
  /-- None was started more often than it was queued, for this fragment of this poller. -/
  started : ((m.history run).startedFor i fragment).Subperm ((m.history run).queuedFor i fragment)
  /-- Each cycle that ended has replied with the number that the history has for it. -/
  replied : m.cycleReplies i fragment run = ((m.history run).returnedFor i fragment).map .ran
  /-- When none is under way, these numbers add up to the callbacks that were started. -/
  counted : (∀ frame ∈ (m.after run).frames, frame.isFor i fragment = false) →
    ((m.history run).returnedFor i fragment).sum = ((m.history run).startedFor i fragment).length
  /-- Callbacks are started in the order in which they were queued, if cycles were not nested. -/
  ordered : m.Unnested i fragment run →
    (m.history run).queuedFor i fragment =
      (m.history run).startedFor i fragment ++ (m.after run).inFlight i fragment ++
        p.queue fragment
  /-- A callback for a fragment that is not owned is never queued, and runs in its call. -/
  unowned : p.owns fragment = false →
    (m.history run).queuedFor i fragment = [] ∧ p.queue fragment = [] ∧
      ∀ asker c callback rest now, (m.after run).agenda = .command asker c :: rest →
        (m.after run).Gives c i fragment callback →
          (m.after run).RunsAtOnce now asker callback rest

/-- No callback is lost, duplicated or misrouted, whatever is nested in what. -/
theorem callbacks_kept {policy : BroadcastPolicy} {run : Run} {i : Nat} {p : Poller Callback}
    (hp : ((Machine.new policy).after run).world.pollers[i]? = some p) (fragment : String) :
    Kept (.new policy) run i p fragment := by
  let m := (Machine.new policy).after run
  let h := (Machine.new policy).history run
  have hqueue : m.queue i fragment = p.queue fragment := by
    simp only [m, Machine.queue, queueAt]
    rw [hp]
  have hperm : (h.queuedFor i fragment).Perm
      (h.startedFor i fragment ++ m.inFlight i fragment ++ p.queue fragment) := by
    have hrun := (Machine.new policy).custody_run_perm i fragment run
    rwa [Machine.custody, Machine.custody, hqueue, ← List.append_assoc] at hrun
  constructor
  case queued => exact hperm
  case started =>
    refine (List.Sublist.subperm ?_).trans hperm.symm.subperm
    rw [List.append_assoc]
    exact List.sublist_append_left _ _
  case replied => exact (Machine.new policy).cycleReplies_run i fragment run
  case counted =>
    intro hframes
    obtain ⟨htaken, hflight⟩ := m.none_taken i fragment hframes
    have hrun := (Machine.new policy).taken_run i fragment run
    change m.taken i fragment + (h.returnedFor i fragment).sum + 0 =
      0 + (h.startedFor i fragment).length + (m.inFlight i fragment).length at hrun
    rw [htaken, hflight] at hrun
    simpa using hrun
  case ordered =>
    intro hunnested
    have hrun := (Machine.new policy).custody_run_eq i fragment run hunnested
    rwa [Machine.custody, Machine.custody, hqueue, ← List.append_assoc] at hrun
  case unowned =>
    intro howns
    have hnil : h.queuedFor i fragment = [] := by
      apply Machine.queuedFor_eq_nil
      intro q hq
      rw [hp, Option.some.injEq] at hq
      rwa [← hq]
    refine ⟨hnil, ?_, ?_⟩
    · rw [hnil] at hperm
      have hall := List.nil_perm.mp hperm
      simp only [List.append_eq_nil_iff] at hall
      exact hall.2
    · intro asker c callback rest now hagenda hgives
      have hgiven := Machine.move_gives_unowned now hagenda hgives hp howns
      have hstart : (m.move now .perform).agenda =
          .start callback :: .answer asker .done :: rest := by
        rw [hgiven]
      exact {
        pollers := by rw [hgiven]; rfl
        agenda := hstart
        once := fun later habove hreturned => Machine.startsAtOnce_call hstart habove hreturned }

def followUp : Callback :=
  .mk "b" []

/-- A callback that queues another one while the cycle that started it is under way. -/
def requeue : Callback :=
  .mk "a" [.after "p" "f" followUp]

/-- A cycle of a fragment runs `requeue`, and then `followUp` is given for another fragment. -/
def requeueRun : Run :=
  [.issue none (.poller "p" ["f"] (.ofSecs 10)), .perform,
    .issue none (.after "p" "f" requeue), .perform, .perform,
    .issue none (.cycle "p" "f"), .perform, .perform, .perform, .perform, .perform,
    .issue none (.after "p" "g" followUp)].map (⟨0⟩, ·)

theorem callbacks_kept_requeue :
    let m := (Machine.new .isolate).after requeueRun
    let h := (Machine.new .isolate).history requeueRun
    h.queuedFor 0 "f" = [requeue] ++ [] ++ [followUp] ∧
      (Machine.new .isolate).cycleReplies 0 "f" requeueRun = [.ran 1] ∧
      (h.returnedFor 0 "f").sum = [requeue].length ∧
      h.queuedFor 0 "g" = [] ∧
      ((m.move ⟨0⟩ .perform).history [(⟨0⟩, .perform), (⟨0⟩, .perform)]).startsAtOnce.filter
          (fun e => e.1 == 1) = [(1, followUp)] := by
  have hp : ((Machine.new .isolate).after requeueRun).world.pollers[0]? = some _ := rfl
  have howned := callbacks_kept hp "f"
  obtain ⟨hnone, -, hgiven⟩ := (callbacks_kept hp "g").unowned rfl
  have hframes : ((Machine.new .isolate).after requeueRun).frames = [] := rfl
  refine ⟨howned.ordered (by decide), howned.replied, howned.counted ?_, hnone, ?_⟩
  · simp [hframes]
  · have hruns := hgiven none (.after "p" "g" followUp) followUp [] ⟨0⟩ rfl
      (Or.inl ⟨"p", rfl, rfl⟩)
    exact hruns.once [(⟨0⟩, .perform), (⟨0⟩, .perform)] (by decide) rfl

end PageRefresh.Session
