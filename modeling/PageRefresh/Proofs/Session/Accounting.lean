import PageRefresh.Proofs.Session.Batch

/-!
Which cycles are accepted, and how they are counted.

A poller accepts a completed cycle if it owns the fragment and runs.  It refuses any other call in
full: nothing of it changes and no callback runs.  Acts say when a cycle is accepted, so the counter
of a fragment goes by them: each move adds to it what the move accepts (`cyclesAt_onPollers`), and
so does a run (`cyclesAt_run`), whatever is nested in what.  Of a fragment that a poller does not
own it keeps neither counter nor callbacks (`unused_run`).
-/

namespace PageRefresh

namespace Poller

variable {κ : Type} {p : Poller κ} {fragment : String} {now : Instant}

/-! ## One call -/

theorem complete_unknownFragment_iff :
    p.complete fragment now = .error (.unknownFragment fragment) ↔ fragment ∉ p.fragments := by
  rw [← owns_iff, complete]
  cases p.owns fragment <;> cases p.isRunning <;> simp

theorem complete_notRunning_iff :
    p.complete fragment now = .error (.notRunning fragment) ↔
      fragment ∈ p.fragments ∧ p.state = .stopped := by
  rw [← owns_iff, complete, isRunning]
  cases p.owns fragment <;> cases p.state <;> simp

theorem complete_ok_iff :
    (∃ r, p.complete fragment now = .ok r) ↔ fragment ∈ p.fragments ∧ p.state = .running := by
  rw [← owns_iff, complete, isRunning]
  cases p.owns fragment <;> cases p.state <;> simp

/-- Which completed cycles a poller accepts, and why it refuses the others. -/
structure Decides (p : Poller κ) (fragment : String) (now : Instant) : Prop where
  unknownFragment : p.complete fragment now = .error (.unknownFragment fragment) ↔
    fragment ∉ p.fragments
  notRunning : p.complete fragment now = .error (.notRunning fragment) ↔
    fragment ∈ p.fragments ∧ p.state = .stopped
  accepted : (∃ r, p.complete fragment now = .ok r) ↔
    fragment ∈ p.fragments ∧ p.state = .running

theorem decides (p : Poller κ) (fragment : String) (now : Instant) : p.Decides fragment now :=
  ⟨complete_unknownFragment_iff, complete_notRunning_iff, complete_ok_iff⟩

/-- What an accepted cycle changes of its poller. -/
structure Completes (p : Poller κ) (fragment : String) (now : Instant) (p' : Poller κ)
    (batch : Batch κ) : Prop where
  counted : p'.cycles fragment = p.cycles fragment + 1
  number : batch.cycle = p'.cycles fragment
  emptied : p'.queue fragment = []
  callbacks : batch.callbacks = p.queue fragment
  deadline : p'.deadline = now.after? p.interval
  state : p'.state = p.state
  fragments : p'.fragments = p.fragments
  interval : p'.interval = p.interval
  others : ∀ g ≠ fragment, p'.cycles g = p.cycles g ∧ p'.queue g = p.queue g

theorem Completes.of_complete {p' : Poller κ} {batch : Batch κ}
    (hok : p.complete fragment now = .ok (p', batch)) : p.Completes fragment now p' batch := by
  obtain ⟨hmem, hrunning⟩ := complete_ok_iff.mp ⟨_, hok⟩
  rw [complete_eq_ok (owns_iff.mpr hmem) (by simp [isRunning, hrunning]), Except.ok.injEq,
    Prod.mk.injEq] at hok
  obtain ⟨rfl, rfl⟩ := hok
  refine ⟨by simp, by simp, by simp, rfl, rfl, rfl, rfl, rfl, ?_⟩
  intro g hg
  simp [hg]

/-- The poller keeps nothing of a fragment. -/
structure Unused (p : Poller κ) (fragment : String) : Prop where
  cycles : p.cycles fragment = 0
  queue : p.queue fragment = []

end Poller

namespace Session

/-! ## The counter of a fragment -/

/-- How many cycles of a fragment were completed; none of a poller that is not there. -/
def cyclesAt (pollers : List (Poller Callback)) (i : Nat) (fragment : String) : Nat :=
  match pollers[i]? with
  | some p => p.cycles fragment
  | none => 0

namespace Act

variable {a : Act} {pollers : List (Poller Callback)} {now : Instant} {i : Nat} {fragment : String}

theorem cycles_onPoller (a : Act) (now : Instant) (i : Nat) (p : Poller Callback)
    (fragment : String) :
    (a.onPoller now i p).cycles fragment = p.cycles fragment + (a.begins i fragment).toNat := by
  cases a with
  | stopped j => by_cases hij : i = j <;> simp [onPoller, begins, Poller.stop, hij]
  | restarted j => by_cases hij : i = j <;> simp [onPoller, begins, Poller.restart, hij]
  | queued j g callback => by_cases hij : i = j <;> simp [onPoller, begins, Poller.enqueue, hij]
  | began j g =>
      by_cases hij : i = j
      · by_cases hg : fragment = g
        · simp [onPoller, begins, Poller.completed, hij, hg]
        · have hg' : ¬ g = fragment := fun h => hg h.symm
          simp [onPoller, begins, Poller.completed, hij, hg, hg']
      · have hji : ¬ j = i := fun h => hij h.symm
        simp [onPoller, begins, hij, hji]
  | _ => simp [onPoller, begins]

/-- The counter grows by one when a cycle of its fragment is accepted, and never else. -/
theorem cyclesAt_onPollers (hpossible : a.Possible pollers) :
    cyclesAt (a.onPollers now pollers) i fragment =
      cyclesAt pollers i fragment + (a.begins i fragment).toNat := by
  cases hp : pollers[i]? with
  | some p => simp [cyclesAt, hp, getElem?_onPollers hp, cycles_onPoller]
  | none =>
      have hbegins : a.begins i fragment = false := by
        cases a with
        | began j g =>
            obtain ⟨p, hpj, -⟩ := hpossible
            have hji : ¬ j = i := by
              rintro rfl
              rw [hp] at hpj
              contradiction
            simp [begins, hji]
        | _ => rfl
      cases hp' : (a.onPollers now pollers)[i]? with
      | none => simp [cyclesAt, hp, hp', hbegins]
      | some p' =>
          obtain ⟨fragments, interval, -, rfl⟩ := made_of_getElem?_onPollers hpossible hp hp'
          simp [cyclesAt, hp, hp', hbegins, Poller.start]

/-- No act brings a fragment into use that its poller does not own. -/
theorem unused_onPoller {p : Poller Callback} (hpossible : a.Possible pollers)
    (hp : pollers[i]? = some p) (howns : p.owns fragment = false) (hunused : p.Unused fragment) :
    (a.onPoller now i p).Unused fragment := by
  obtain ⟨hcycles, hqueue⟩ := hunused
  have hother : ∀ g, (∃ q, pollers[i]? = some q ∧ q.owns g = true) → ¬ fragment = g := by
    rintro g ⟨q, hq, hg⟩ rfl
    obtain rfl : p = q := Option.some.inj (hp.symm.trans hq)
    rw [howns] at hg
    contradiction
  by_cases hpoller : a.poller? = some i
  · cases a with
    | stopped j =>
        obtain rfl : j = i := Option.some.inj hpoller
        constructor <;> simp [onPoller, Poller.stop, hcycles, hqueue]
    | restarted j =>
        obtain rfl : j = i := Option.some.inj hpoller
        constructor <;> simp [onPoller, Poller.restart, hcycles, hqueue]
    | queued j g callback =>
        obtain rfl : j = i := Option.some.inj hpoller
        have hg := hother g hpossible
        constructor <;> simp [onPoller, Poller.enqueue, hg, hcycles, hqueue]
    | began j g =>
        obtain rfl : j = i := Option.some.inj hpoller
        obtain ⟨q, hq, hqowns, -⟩ := hpossible
        have hg := hother g ⟨q, hq, hqowns⟩
        constructor <;> simp [onPoller, Poller.completed, hg, hcycles, hqueue]
    | _ => exact ⟨hcycles, hqueue⟩
  · rw [onPoller_other hpoller]
    exact ⟨hcycles, hqueue⟩

end Act

namespace World

theorem callAct_begins (w : World) (kind : BroadcastKind) (r : Refresher) (i : Nat)
    (fragment : String) : (w.callAct kind r).begins i fragment = false := by
  unfold callAct
  split
  · split <;> rfl
  · rfl

theorem afterAct_begins (w : World) (g : String) (callback : Callback) (r : Refresher) (i : Nat)
    (fragment : String) : (w.afterAct g callback r).begins i fragment = false := by
  unfold afterAct
  split
  · split
    · rfl
    · split <;> rfl
  · rfl

end World

/-! ## Runs -/

namespace Machine

/-- The move carries out a call that completes a cycle of the fragment, and is accepted. -/
def accepts (m : Machine) (now : Instant) (i : Nat) (fragment : String) : Move → Bool
  | .perform =>
      match m.agenda with
      | .command _ (.cycle id g) :: _ =>
          match m.world.findPoller? id with
          | some (j, p) => j == i && g == fragment && (p.complete g now).isOk
          | none => false
      | _ => false
  | _ => false

/-- How many such calls a run carries out, on their own or in the middle of others. -/
def accepted (m : Machine) (i : Nat) (fragment : String) : Run → Nat
  | [] => 0
  | (now, mv) :: run =>
      (m.accepts now i fragment mv).toNat + (m.move now mv).accepted i fragment run

theorem accepted_append (m : Machine) (i : Nat) (fragment : String) (first second : Run) :
    m.accepted i fragment (first ++ second) =
      m.accepted i fragment first + (m.after first).accepted i fragment second := by
  induction first generalizing m with
  | nil => simp [accepted, after]
  | cons head first ih => simp only [List.cons_append, accepted, after, ih, Nat.add_assoc]

/-- Acts say which calls are accepted. -/
theorem begins_eq_accepts (m : Machine) (now : Instant) (i : Nat) (fragment : String) (mv : Move) :
    (m.act mv).begins i fragment = m.accepts now i fragment mv := by
  cases mv with
  | issue asker c => rfl
  | collect => rfl
  | perform =>
      cases hagenda : m.agenda with
      | nil => simp [act, accepts, hagenda, Act.begins]
      | cons task rest =>
          rw [act_perform hagenda]
          simp only [accepts, hagenda]
          cases task with
          | command asker c =>
              cases c with
              | cycle id g =>
                  simp only [World.act, World.commandAct]
                  cases m.world.findPoller? id with
                  | none => rfl
                  | some found =>
                      obtain ⟨j, p⟩ := found
                      simp only [Poller.complete]
                      cases p.owns g <;> cases p.isRunning <;>
                        simp [Act.begins, Except.isOk, Except.toBool]
              | afterMain g callback => exact m.world.afterAct_begins g callback _ i fragment
              | callMain kind => exact m.world.callAct_begins kind _ i fragment
              | after id g callback =>
                  simp only [World.act, World.commandAct]
                  split
                  · exact m.world.afterAct_begins g callback _ i fragment
                  · rfl
              | call kind id =>
                  simp only [World.act, World.commandAct]
                  split
                  · exact m.world.callAct_begins kind _ i fragment
                  · rfl
              | _ => rfl
          | cycling asker poller g cycle count waiting => cases waiting <;> rfl
          | broadcasting asker cause report entries =>
              cases entries with
              | nil => rfl
              | cons r entries => exact m.world.callAct_begins report.kind r i fragment
          | _ => rfl

/-- Over a run the counter grows by the calls that are accepted. -/
theorem cyclesAt_run (m : Machine) (i : Nat) (fragment : String) (run : Run) :
    cyclesAt (m.after run).world.pollers i fragment =
      cyclesAt m.world.pollers i fragment + m.accepted i fragment run := by
  induction run generalizing m with
  | nil => simp [after, accepted]
  | cons head run ih =>
      obtain ⟨now, mv⟩ := head
      obtain ⟨hpossible, hpollers, -⟩ := m.move_does now mv
      rw [after, ih, hpollers, Act.cyclesAt_onPollers hpossible, m.begins_eq_accepts now, accepted,
        Nat.add_assoc]

/-- After any run from an empty session no poller has anything of a fragment that it does not
own. -/
theorem unused_run {policy : BroadcastPolicy} {run : Run} {i : Nat} {p : Poller Callback}
    {fragment : String} (hp : ((Machine.new policy).after run).world.pollers[i]? = some p)
    (howns : p.owns fragment = false) : p.Unused fragment := by
  induction run using List.reverseRecOn generalizing p with
  | nil => simp [after, new, World.empty] at hp
  | append_singleton run last ih =>
      obtain ⟨now, mv⟩ := last
      obtain ⟨hpossible, hpollers, -⟩ := ((Machine.new policy).after run).move_does now mv
      rw [after_concat, hpollers] at hp
      cases hq : ((Machine.new policy).after run).world.pollers[i]? with
      | none =>
          obtain ⟨fragments, interval, -, rfl⟩ := Act.made_of_getElem?_onPollers hpossible hq hp
          exact ⟨rfl, rfl⟩
      | some q =>
          rw [Act.getElem?_onPollers hq, Option.some.injEq] at hp
          subst hp
          rw [Poller.owns, Act.fragments_onPoller] at howns
          exact Act.unused_onPoller hpossible hq howns (ih hq howns)

section Calls

variable {m : Machine} {asker : Asker} {id fragment : String} {rest : List Task} {i : Nat}
  {p : Poller Callback}

/-- A call that is refused answers why, and that is all. -/
theorem move_refused {now : Instant} {e : RefreshError}
    (hagenda : m.agenda = .command asker (.cycle id fragment) :: rest)
    (hfind : m.world.findPoller? id = some (i, p))
    (hrefused : p.complete fragment now = .error e) :
    m.move now .perform = ⟨m.world.answer asker (.refreshError e), rest⟩ := by
  rw [move_perform now hagenda]
  simp only [World.perform, World.begin, World.withPoller, hfind, hrefused, List.nil_append]

/-- A call that is accepted changes its poller, and has the callbacks still to run. -/
theorem move_accepted {now : Instant} {p' : Poller Callback} {batch : Poller.Batch Callback}
    (hagenda : m.agenda = .command asker (.cycle id fragment) :: rest)
    (hfind : m.world.findPoller? id = some (i, p))
    (haccepted : p.complete fragment now = .ok (p', batch)) :
    m.move now .perform =
      ⟨m.world.setPoller i p',
        .cycling asker i fragment batch.cycle batch.callbacks.length batch.callbacks :: rest⟩ := by
  rw [move_perform now hagenda]
  simp only [World.perform, World.begin, World.withPoller, hfind, haccepted, List.cons_append,
    List.nil_append]

theorem accepts_cycle {now : Instant} {r : Poller Callback × Poller.Batch Callback}
    (hagenda : m.agenda = .command asker (.cycle id fragment) :: rest)
    (hfind : m.world.findPoller? id = some (i, p))
    (haccepted : p.complete fragment now = .ok r) :
    m.accepts now i fragment .perform = true := by
  simp [accepts, hagenda, hfind, haccepted, Except.isOk, Except.toBool]

end Calls

end Machine

/-! ## The account of a poller -/

/-- A call that is refused says why, and that is all. -/
structure Machine.Refuses (m : Machine) (now : Instant) (asker : Asker) (e : RefreshError)
    (rest : List Task) : Prop where
  called : m.move now .perform = ⟨m.world.answer asker (.refreshError e), rest⟩
  replied : (m.move now .perform).Replied asker m.world.journal (.refreshError e) rest
  pollers : (m.move now .perform).world.pollers = m.world.pollers

/-- A call that is accepted completes a cycle of the poller. -/
structure Machine.Completes (m : Machine) (now : Instant) (asker : Asker) (i : Nat)
    (fragment : String) (p p' : Poller Callback) (batch : Poller.Batch Callback)
    (rest : List Task) : Prop where
  poller : p.Completes fragment now p' batch
  /-- Its poller is changed before any callback is started. -/
  called : m.move now .perform = ⟨m.world.setPoller i p',
    .cycling asker i fragment batch.cycle batch.callbacks.length batch.callbacks :: rest⟩
  /-- When it returns it logs its own number and replies, whatever came between. -/
  returned : ∀ later, (m.move now .perform).StaysAbove rest.length later →
    ((m.move now .perform).after later).agenda.length = rest.length →
      ∃ records, ((m.move now .perform).after later).Replied asker
        (records ++ [.event (.cycleCompleted fragment batch.cycle batch.callbacks.length)])
        (.ran batch.callbacks.length) rest

/-- How the cycles of a fragment of a poller stand at the end of a run. -/
structure Accounts (m : Machine) (run : Run) (i : Nat) (p : Poller Callback) (fragment : String) :
    Prop where
  /-- The counter says how many calls were accepted so far, nested ones included. -/
  counted : p.cycles fragment = m.accepted i fragment run
  /-- Of a fragment that the poller does not own nothing is counted, and nothing waits. -/
  unowned : fragment ∉ p.fragments → p.cycles fragment = 0 ∧ p.pending fragment = 0
  decides : ∀ now, p.Decides fragment now
  refused : ∀ now asker id rest e,
    (m.after run).agenda = .command asker (.cycle id fragment) :: rest →
      (m.after run).world.findPoller? id = some (i, p) → p.complete fragment now = .error e →
        (m.after run).Refuses now asker e rest
  /-- The number of an accepted cycle counts its own call as the last one. -/
  accepted : ∀ now asker id rest p' batch,
    (m.after run).agenda = .command asker (.cycle id fragment) :: rest →
      (m.after run).world.findPoller? id = some (i, p) →
        p.complete fragment now = .ok (p', batch) →
          (m.after run).Completes now asker i fragment p p' batch rest ∧
            batch.cycle = m.accepted i fragment (run ++ [(now, .perform)])

/-- Cycles are accepted, refused and counted so, whatever is nested in what. -/
theorem cycle_accounting {policy : BroadcastPolicy} {run : Run} {i : Nat} {p : Poller Callback}
    (hp : ((Machine.new policy).after run).world.pollers[i]? = some p) (fragment : String) :
    Accounts (.new policy) run i p fragment := by
  let m := (Machine.new policy).after run
  have hcounted : p.cycles fragment = (Machine.new policy).accepted i fragment run := by
    have hrun := (Machine.new policy).cyclesAt_run i fragment run
    have hstart : cyclesAt (Machine.new policy).world.pollers i fragment = 0 := rfl
    rw [hstart, Nat.zero_add, cyclesAt, hp] at hrun
    exact hrun
  constructor
  case counted => exact hcounted
  case unowned =>
    intro howns
    have howns' : p.owns fragment = false := by
      rwa [← Bool.not_eq_true, Poller.owns_iff]
    obtain ⟨hcycles, hqueue⟩ := Machine.unused_run hp howns'
    exact ⟨hcycles, by simp [Poller.pending, hqueue]⟩
  case decides => exact p.decides fragment
  case refused =>
    intro now asker id rest e hagenda hfind hrefused
    have hcalled := Machine.move_refused hagenda hfind hrefused
    refine ⟨hcalled, ?_, (congrArg (·.world.pollers) hcalled).trans (World.pollers_answer _ _ _)⟩
    rw [hcalled]
    exact Machine.replied_answer m.world asker _ rest
  case accepted =>
    intro now asker id rest p' batch hagenda hfind haccepted
    have hcompletes := Poller.Completes.of_complete haccepted
    have hcalled := Machine.move_accepted hagenda hfind haccepted
    refine ⟨⟨hcompletes, hcalled, ?_⟩, ?_⟩
    · intro later habove hreturned
      have hloop : (m.move now .perform).agenda = [] ++ .cycling asker i fragment batch.cycle
          batch.callbacks.length batch.callbacks :: rest := congrArg Machine.agenda hcalled
      rcases Machine.loop_run hloop habove with ⟨above, left, hkept, -⟩ | ⟨-, hreplied⟩
      · rw [hkept] at hreturned
        simp at hreturned
        omega
      · exact hreplied
    · rw [Machine.accepted_append, ← hcounted, hcompletes.number, hcompletes.counted]
      simp only [Machine.accepted, Nat.add_zero]
      rw [Machine.accepts_cycle hagenda hfind haccepted, Bool.toNat_true]

/-- A callback that completes another cycle of the fragment whose cycle started it. -/
def again : Callback :=
  .mk "again" [.cycle "p" "f"]

/-- A cycle is called for, of a fragment that is named twice and has `again` waiting. -/
def nestedRun : Run :=
  [.issue none (.poller "p" ["f", "f"] (.ofSecs 10)), .perform,
    .issue none (.after "p" "f" again), .perform, .perform,
    .issue none (.cycle "p" "f")].map (⟨0⟩, ·)

/-- The outer cycle logs the first number, though the inner one has counted on. -/
theorem cycle_accounting_nested :
    let called := ((Machine.new .isolate).after nestedRun).move ⟨0⟩ .perform
    let ended := called.after (List.replicate 4 (⟨0⟩, .perform))
    (∃ records, ended.Replied none (records ++ [.event (.cycleCompleted "f" 1 1)]) (.ran 1) []) ∧
      ∃ p, ended.world.pollers[0]? = some p ∧ p.cycles "f" = 2 ∧ p.pending "g" = 0 := by
  have hp : ((Machine.new .isolate).after nestedRun).world.pollers[0]? = some _ := rfl
  have hq : ((Machine.new .isolate).after
      (nestedRun ++ List.replicate 5 (⟨0⟩, .perform))).world.pollers[0]? = some _ := rfl
  obtain ⟨hcompletes, -⟩ :=
    (cycle_accounting hp "f").accepted ⟨0⟩ none "p" [] _ _ rfl rfl rfl
  exact ⟨hcompletes.returned (List.replicate 4 (⟨0⟩, .perform)) (by decide) rfl, _, hq,
    (cycle_accounting hq "f").counted, ((cycle_accounting hq "g").unowned (by decide)).2⟩

end Session

end PageRefresh
