import PageRefresh.Proofs.Session.Modal
import PageRefresh.Proofs.Session.Stage

/-!
The run state of a poller is what the last broadcast that reached it said.

After an orderly play the pollers are at the stage of the ledger (`AtStage.play`), and once no
broadcast is under way the ledger alone says how they are.  Under the policy that isolates failures
it is enough to know which broadcasts began, and with whom registered.
-/

namespace PageRefresh.Session

/-! ## Whole plays -/

namespace Machine

variable {policy : BroadcastPolicy} {m : Machine} {ledger : Ledger}

theorem idle_play {play : Play} (hidle : m.idle = true) (horderly : m.Orderly play)
    (hbroadcasts : m.broadcasts play = []) : (m.played play).idle = true := by
  induction play generalizing m with
  | nil => exact hidle
  | cons head play ih =>
      obtain ⟨now, t⟩ := head
      obtain ⟨hhead, hplay⟩ := horderly
      obtain ⟨hnone, hrest⟩ := List.append_eq_nil_iff.mp hbroadcasts
      rw [Option.toList_eq_nil_iff] at hnone
      exact ih (idle_turn hidle (orderly_iff.mp hhead).1 hnone) hplay hrest

/-- In an orderly play the pollers are always at the stage of the ledger. -/
theorem AtStage.play {play : Play} (hstage : AtStage policy m ledger)
    (hgrounds : Grounds policy m ledger) (horderly : m.Orderly play) :
    AtStage policy (m.played play) (m.ledgerFrom ledger play) := by
  induction play generalizing m ledger with
  | nil => exact hstage
  | cons head play ih =>
      obtain ⟨now, t⟩ := head
      obtain ⟨hhead, hplay⟩ := horderly
      exact ih (hstage.turn hgrounds hhead) (hgrounds.turn now t) hplay

theorem Grounds.play (hgrounds : Grounds policy m ledger) (play : Play) :
    Grounds policy (m.played play) (m.ledgerFrom ledger play) := by
  induction play generalizing m ledger with
  | nil => exact hgrounds
  | cons head play ih => exact ih (hgrounds.turn head.1 head.2)

theorem atStage_new (policy : BroadcastPolicy) : AtStage policy (new policy) [] :=
  ⟨_, .idle aside_nil, by simp [Follows, new, World.empty]⟩

theorem grounds_new (policy : BroadcastPolicy) : Grounds policy (new policy) [] where
  policy := rfl
  known := ⟨by simp [NamesKnown, new, World.empty],
    ⟨by simp [new, World.empty, Shell.empty, Registry.empty],
      by simp [new, World.empty, Shell.empty, Registry.empty]⟩⟩
  entries := by simp

theorem broadcasts_append (m : Machine) (first second : Play) :
    m.broadcasts (first ++ second) = m.broadcasts first ++ (m.played first).broadcasts second :=
  trail_append begun? m first second

theorem ledger_broadcasts (m : Machine) (play : Play) :
    (m.ledger play).map Entry.broadcast = (m.broadcasts play).reverse := by
  rw [ledger, ledgerFrom_broadcasts, List.map_nil, List.append_nil]

/-- The broadcasts of a play were about pollers that were there. -/
theorem broadcasts_known (policy : BroadcastPolicy) (play : Play) :
    ∀ b ∈ (new policy).broadcasts play, ∀ r ∈ b.entries,
      r.Known ((new policy).played play).world.pollers.length := by
  have hgrounds := (grounds_new policy).play play
  intro b hb
  rw [← List.mem_reverse, ← ledger_broadcasts] at hb
  obtain ⟨e, he, rfl⟩ := List.mem_map.mp hb
  exact hgrounds.entries e he

theorem begun?_openModal {asker : Asker} {rest : List Task} (now : Instant)
    (hagenda : m.agenda = .command asker .openModal :: rest)
    (hdepth : m.world.shell.modalDepth = 0) :
    m.begun? now (.move .perform) = some ⟨.modal, .stop, m.world.shell.registry.entries⟩ := by
  rw [begun?_command now hagenda, World.begin, World.openModal_eq]
  simp only [hdepth]
  rfl

theorem begun?_closeModal {asker : Asker} {rest : List Task} (now : Instant)
    (hagenda : m.agenda = .command asker .closeModal :: rest)
    (hdepth : m.world.shell.modalDepth = 1) :
    m.begun? now (.move .perform) = some ⟨.modal, .restart, m.world.shell.registry.entries⟩ := by
  rw [begun?_command now hagenda, World.begin, World.closeModal_eq]
  simp only [hdepth]
  rfl

/-- Once no broadcast is under way, the ledger says how the pollers are. -/
theorem AtStage.told (hstage : AtStage policy m ledger) (hidle : m.idle = true) {i : Nat}
    {p : Poller Callback} (hp : m.world.pollers[i]? = some p) :
    p.state = ledger.told policy i := by
  obtain ⟨orders, hstage, hfollows⟩ := hstage
  rw [hfollows i p hp, hstage.eq_told (idle_iff.mp hidle)]

end Machine

/-! ## What the broadcasts come to -/

section Told

variable {policy : BroadcastPolicy} {m : Machine} {kind : BroadcastKind} {newer older : Ledger}
  {i : Nat}

/-- Broadcasts of one kind leave a poller that was told so as it is. -/
theorem Ledger.told_append
    (hnewer : ∀ e ∈ newer, .poller i ∈ e.broadcast.entries → e.broadcast.kind = kind)
    (holder : older.told policy i = kind.runState) :
    Ledger.told policy (newer ++ older) i = kind.runState := by
  induction newer with
  | nil => exact holder
  | cons e newer ih =>
      obtain ⟨he, hrest⟩ := List.forall_mem_cons.mp hnewer
      rw [List.cons_append, Ledger.told_cons]
      split
      · rename_i hreaches
        rw [he (e.reached_subset policy (Entry.reaches_iff.mp hreaches))]
      · exact ih hrest

/-- The same holds in the middle of such a broadcast. -/
theorem Machine.AtStage.state_eq {p : Poller Callback} (hstage : AtStage policy m (newer ++ older))
    (hp : m.world.pollers[i]? = some p)
    (hnewer : ∀ e ∈ newer, .poller i ∈ e.broadcast.entries → e.broadcast.kind = kind)
    (holder : older.told policy i = kind.runState) (hidle : newer = [] → m.idle = true) :
    p.state = kind.runState := by
  obtain ⟨orders, hstage, hfollows⟩ := hstage
  rw [hfollows i p hp]
  by_cases haside : Aside m.agenda
  · rw [hstage.eq_told haside]
    exact Ledger.told_append hnewer holder
  · rcases hstage with hno | ⟨hledger, -, -, -, hat⟩
    · exact absurd hno haside
    · rename_i e earlier above task below done
      rcases newer with _ | ⟨e', newer⟩
      · exact absurd (idle_iff.mp (hidle rfl)) haside
      · obtain ⟨rfl, rfl⟩ := List.cons.inj hledger
        obtain ⟨he, hrest⟩ := List.forall_mem_cons.mp hnewer
        rw [Entry.telling]
        split
        · rename_i hcalled
          obtain ⟨r, hr, hpoller⟩ := List.any_eq_true.mp hcalled
          obtain rfl := Refresher.eq_of_isPoller hpoller
          rw [he (hat.subset hr)]
        · exact Ledger.told_append hrest holder

/-- Isolating failures, a broadcast that is over stays in force while only broadcasts of its kind
begin. -/
theorem Machine.AtStage.state_of_begun {ledger : Ledger} {during later : Play} {now : Instant}
    {t : Turn} {b : Broadcast} (hstage : AtStage .isolate m ledger)
    (hgrounds : Grounds .isolate m ledger) (horderly : m.Orderly ((now, t) :: (during ++ later)))
    (hbegun : m.begun? now t = some b) (hidle : ((m.turn now t).played during).idle = true)
    (hkinds : ∀ b' ∈ (m.turn now t).broadcasts (during ++ later), b'.kind = b.kind)
    (hi : .poller i ∈ b.entries) :
    ∃ p, ((m.turn now t).played (during ++ later)).world.pollers[i]? = some p ∧
      p.state = b.kind.runState := by
  obtain ⟨hturn, hplay⟩ := horderly
  have hstage' := (hstage.turn hgrounds hturn).play (hgrounds.turn now t) hplay
  have hgrounds' := (hgrounds.turn now t).play (during ++ later)
  have hledger := (m.turn now t).ledgerFrom_broadcasts (m.enter now t ledger) (during ++ later)
  rw [enter_begun ledger hbegun] at hstage' hgrounds' hledger
  generalize (m.turn now t).ledgerFrom (⟨b, []⟩ :: ledger) (during ++ later) = ended
    at hstage' hgrounds' hledger
  obtain ⟨newer, older, rfl, hnewer, holder⟩ := List.map_eq_append_iff.mp hledger
  obtain ⟨e, older, rfl, he, -⟩ := List.map_eq_cons_iff.mp holder
  have hentries : .poller i ∈ e.broadcast.entries := by
    rwa [he]
  have hlength : i < ((m.turn now t).played (during ++ later)).world.pollers.length :=
    hgrounds'.entries e (by simp) _ hentries
  refine ⟨_, List.getElem?_eq_getElem hlength, ?_⟩
  apply hstage'.state_eq (List.getElem?_eq_getElem hlength)
  · intro e' he' _
    have hmem : e'.broadcast ∈ newer.map Entry.broadcast := List.mem_map_of_mem he'
    rw [hnewer, List.mem_reverse] at hmem
    exact hkinds _ hmem
  · have hreaches : e.reaches .isolate i = true := Entry.reaches_iff.mpr hentries
    rw [Ledger.told_cons, hreaches, he]
    rfl
  · intro hnone
    rw [hnone, List.map_nil, eq_comm, List.reverse_eq_nil_iff, broadcasts_append,
      List.append_eq_nil_iff] at hnewer
    rw [played_append]
    exact idle_play hidle ((throughout_append _ _ _).mp hplay).2 hnewer.2

/-- A poller that only restarts can have reached runs. -/
theorem Machine.AtStage.state_of_restarts {ledger : Ledger} {p : Poller Callback}
    (hstage : AtStage policy m ledger) (hp : m.world.pollers[i]? = some p)
    (hrestarts : ∀ e ∈ ledger, .poller i ∈ e.broadcast.entries → e.broadcast.kind = .restart) :
    p.state = .running := by
  have hstage' : AtStage policy m (ledger ++ []) := by
    rwa [List.append_nil]
  apply hstage'.state_eq hp hrestarts rfl
  rintro rfl
  obtain ⟨orders, hstage, -⟩ := hstage
  rcases hstage with haside | ⟨hledger, -⟩
  · exact idle_iff.mpr haside
  · contradiction

/-- The last broadcast that reached a poller told it how it is. -/
theorem Ledger.told_of_last {policy : BroadcastPolicy} {newer older : Ledger} {e : Entry} {i : Nat}
    (hreached : .poller i ∈ e.reached policy)
    (hnewer : ∀ e' ∈ newer, .poller i ∉ e'.reached policy) :
    Ledger.told policy (newer ++ e :: older) i = e.broadcast.kind.runState := by
  have hskips : ∀ e' ∈ newer, ¬ e'.reaches policy i = true :=
    fun e' he' hreaches => hnewer e' he' (Entry.reaches_iff.mp hreaches)
  have hfirst : newer.find? (·.reaches policy i) = none := List.find?_eq_none.mpr hskips
  simp [told, List.find?_append, hfirst, Entry.reaches_iff.mpr hreached]

theorem Ledger.told_of_none {policy : BroadcastPolicy} {ledger : Ledger} {i : Nat}
    (hnone : ∀ e ∈ ledger, .poller i ∉ e.reached policy) : ledger.told policy i = .running := by
  have hfind : ledger.find? (·.reaches policy i) = none :=
    List.find?_eq_none.mpr fun e he hreaches => hnone e he (Entry.reaches_iff.mp hreaches)
  rw [told, hfind]

end Told

/-! ## The last broadcast that reached a poller -/

/-- In the play a command about modals makes a broadcast, which is over after `during`, and all that
begin since are of one kind. -/
structure Machine.Prevails (start : Machine) (play before : Play) (now : Instant) (c : Command)
    (depth : Nat) (kind : BroadcastKind) (during later : Play) : Prop where
  split : play = before ++ (now, .move .perform) :: (during ++ later)
  command : ∃ asker rest, (start.played before).agenda = .command asker c :: rest
  modals : (start.played before).world.shell.modalDepth = depth
  ended : (((start.played before).turn now (.move .perform)).played during).idle = true
  since : ∀ b ∈ ((start.played before).turn now (.move .perform)).broadcasts (during ++ later),
    b.kind = kind

/-- How the pollers are at the end of a play. -/
structure LastTold (policy : BroadcastPolicy) (start : Machine) (play : Play) : Prop where
  /-- The ledger has the broadcasts of the play, ... -/
  ledger : (start.ledger play).map Entry.broadcast = (start.broadcasts play).reverse
  /-- ... each with the refreshers registered at its start. -/
  entries : ∀ now t b, (start.played play).begun? now t = some b →
    b.entries = (start.played play).world.shell.registry.entries
  /-- A poller that no broadcast reached runs, once none is under way. -/
  unreached : (start.played play).idle = true →
    ∀ i p, (start.played play).world.pollers[i]? = some p →
      (∀ e ∈ start.ledger play, .poller i ∉ e.reached policy) → p.state = .running
  /-- For any other, the last one that reached it decides. -/
  reached : (start.played play).idle = true →
    ∀ i p, (start.played play).world.pollers[i]? = some p →
      ∀ newer e older, start.ledger play = newer ++ e :: older → .poller i ∈ e.reached policy →
        (∀ e' ∈ newer, .poller i ∉ e'.reached policy) →
          (p.state = .stopped ↔ e.broadcast.kind = .stop)
  /-- Isolating failures, the first modal stops everybody until the next restart begins. -/
  opened : policy = .isolate → ∀ before now during later,
    start.Prevails play before now .openModal 0 .stop during later →
      ∀ i, .poller i ∈ (start.played before).world.shell.registry.entries →
        ∃ p, (start.played play).world.pollers[i]? = some p ∧ p.state = .stopped ∧
          ∀ t, p.isDue t = false
  /-- Closing the last modal restarts everybody until the next stop begins. -/
  closed : policy = .isolate → ∀ before now during later,
    start.Prevails play before now .closeModal 1 .restart during later →
      ∀ i, .poller i ∈ (start.played before).world.shell.registry.entries →
        ∃ p, (start.played play).world.pollers[i]? = some p ∧ p.state = .running
  /-- A poller made under an open modal, or at any other time, runs until the next stop begins. -/
  made : ∀ before later, play = before ++ later →
    ∀ i p, (start.played before).world.pollers.length ≤ i →
      (start.played play).world.pollers[i]? = some p →
        (∀ b ∈ (start.played before).broadcasts later, b.kind = .restart) → p.state = .running

/-- While it prevails, everybody is as it told them. -/
theorem Machine.Prevails.state {play before during later : Play} {now : Instant} {c : Command}
    {depth : Nat} {b : Broadcast} {i : Nat}
    (hprevails : (Machine.new .isolate).Prevails play before now c depth b.kind during later)
    (horderly : (Machine.new .isolate).Orderly play)
    (hbegun : ((Machine.new .isolate).played before).begun? now (.move .perform) = some b)
    (hi : .poller i ∈ b.entries) :
    ∃ p, ((Machine.new .isolate).played play).world.pollers[i]? = some p ∧
      p.state = b.kind.runState := by
  obtain ⟨rfl, -, -, hended, hkinds⟩ := hprevails
  obtain ⟨hbefore, hafter⟩ := (throughout_append _ _ _).mp horderly
  have hgrounds := (grounds_new .isolate).play before
  have hstage := (atStage_new .isolate).play (grounds_new .isolate) hbefore
  rw [played_append]
  exact hstage.state_of_begun hgrounds hafter hbegun hended hkinds hi

/-- The last broadcast that reached a poller decides whether it runs. -/
theorem state_of_last_broadcast {policy : BroadcastPolicy} {play : Play}
    (horderly : (Machine.new policy).Orderly play) : LastTold policy (.new policy) play := by
  let start := Machine.new policy
  have hstage : (start.played play).AtStage policy (start.ledger play) :=
    (Machine.atStage_new policy).play (Machine.grounds_new policy) horderly
  have hledger := start.ledger_broadcasts play
  constructor
  case ledger => exact hledger
  case entries => exact fun now t b hbegun => Machine.begun?_entries hbegun
  case unreached =>
    intro hidle i p hp hnone
    rw [hstage.told hidle hp, Ledger.told_of_none hnone]
  case reached =>
    intro hidle i p hp newer e older hsplit hreached hnewer
    have hstate := hstage.told hidle hp
    rw [hstate, hsplit, Ledger.told_of_last hreached hnewer]
    cases e.broadcast.kind <;> simp [BroadcastKind.runState]
  case opened =>
    rintro rfl before now during later hprevails i hi
    obtain ⟨asker, rest, hagenda⟩ := hprevails.command
    have hbegun := Machine.begun?_openModal now hagenda hprevails.modals
    obtain ⟨p, hp, hstopped⟩ := hprevails.state horderly hbegun hi
    exact ⟨p, hp, hstopped, Poller.isDue_of_stopped hstopped⟩
  case closed =>
    rintro rfl before now during later hprevails i hi
    obtain ⟨asker, rest, hagenda⟩ := hprevails.command
    have hbegun := Machine.begun?_closeModal now hagenda hprevails.modals
    exact hprevails.state horderly hbegun hi
  case made =>
    intro before later hplay i p hi hp hrestarts
    apply hstage.state_of_restarts hp
    intro e he hentries
    have hmem : e.broadcast ∈ (start.broadcasts play).reverse := by
      rw [← hledger]
      exact List.mem_map_of_mem he
    rw [List.mem_reverse, hplay, Machine.broadcasts_append] at hmem
    rcases List.mem_append.mp hmem with hold | hnew
    · have hlt := Machine.broadcasts_known policy before _ hold _ hentries
      exact absurd hlt (Nat.not_lt.mpr hi)
    · exact hrestarts _ hnew

/-- Two pollers are registered with a refresher that fails between them, a modal is opened, and
another poller is made and registered under it. -/
def registeredUnderModal : Play :=
  [.issue none (.poller "p" ["f"] (.ofSecs 10)), .perform, .issue none (.add "p"), .perform,
    .issue none (.scripted "x" stuck), .perform, .issue none (.add "x"), .perform,
    .issue none (.poller "q" ["g"] (.ofSecs 10)), .perform, .issue none (.add "q"), .perform,
    .issue none .openModal, .perform, .perform, .perform, .perform, .perform, .perform, .perform,
    .perform, .issue none (.poller "r" ["h"] (.ofSecs 10)), .perform, .issue none (.add "r"),
    .perform].map fun mv => (⟨0⟩, .move mv)

theorem state_of_last_broadcast_cut_short :
    let aborted := (Machine.new .abort).played registeredUnderModal
    let isolated := (Machine.new .isolate).played registeredUnderModal
    (∃ p, aborted.world.pollers[0]? = some p ∧ p.state = .stopped) ∧
      (∃ q, aborted.world.pollers[1]? = some q ∧ q.state = .running) ∧
      (∃ q, isolated.world.pollers[1]? = some q ∧ q.state = .stopped) ∧
      ∃ r, isolated.world.pollers[2]? = some r ∧ r.state = .running := by
  have haborted : (Machine.new .abort).Orderly registeredUnderModal := by
    decide
  have hisolated : (Machine.new .isolate).Orderly registeredUnderModal := by
    decide
  have habort := state_of_last_broadcast haborted
  have hisolate := state_of_last_broadcast hisolated
  have hmissed : ∀ e ∈ (Machine.new .abort).ledger registeredUnderModal,
      e.reaches .abort 1 = false := by
    decide
  refine ⟨⟨_, rfl, ?_⟩, ⟨_, rfl, ?_⟩, ⟨_, rfl, ?_⟩, ⟨_, rfl, ?_⟩⟩
  · exact (habort.reached rfl 0 _ rfl [] _ [] rfl (Entry.reaches_iff.mp rfl) (by simp)).mpr rfl
  · apply habort.unreached rfl 1 _ rfl
    intro e he hreached
    rw [← Entry.reaches_iff, hmissed e he] at hreached
    contradiction
  · exact (hisolate.reached rfl 1 _ rfl [] _ [] rfl (Entry.reaches_iff.mp rfl) (by simp)).mpr rfl
  · exact hisolate.made (registeredUnderModal.take 21) (registeredUnderModal.drop 21) rfl 2 _
      (by decide) rfl (by decide)

end PageRefresh.Session
