import PageRefresh.Proofs.Session.Known

/-!
The ledger of broadcasts.

Which entries a broadcast reaches is known only when it is over, since under one of the two policies
it ends at the first call that fails.  The ledger of a play keeps every broadcast with the outcomes
of the calls that it made, newest first, and so tells what every poller was last told.

A play is orderly if only broadcasts stop and restart pollers, and none begins while another one is
under way.
-/

namespace PageRefresh

/-- What pollers are told to be by a broadcast. -/
def BroadcastKind.runState : BroadcastKind → RunState
  | .stop => .stopped
  | .restart => .running

namespace Session

/-! ## Broadcasts and whom they reach -/

def Refresher.isPoller (i : Nat) : Refresher → Bool
  | .poller j => j == i
  | _ => false

theorem Refresher.eq_of_isPoller {i : Nat} {r : Refresher} (hpoller : r.isPoller i = true) :
    r = .poller i := by
  cases r with
  | poller j =>
      obtain rfl : j = i := by simpa [isPoller] using hpoller
      rfl
  | noop => contradiction
  | scripted script => contradiction

/-- A broadcast with the outcomes of the calls that it has made. -/
structure Entry where
  broadcast : Broadcast
  outcomes : List (Except RefreshError Unit)

/-- The broadcasts so far, newest first. -/
abbrev Ledger := List Entry

namespace Entry

/-- The registrations that a broadcast reaches: all of them or, if a failure ends it, those before
the first whose call fails. -/
def reached (policy : BroadcastPolicy) (e : Entry) : List Refresher :=
  match policy with
  | .isolate => e.broadcast.entries
  | .abort => e.broadcast.entries.take (e.outcomes.findIdx fun outcome => !outcome.isOk)

/-- The broadcast reaches the poller with index `i`. -/
def reaches (policy : BroadcastPolicy) (i : Nat) (e : Entry) : Bool :=
  (e.reached policy).any (·.isPoller i)

theorem reaches_iff {policy : BroadcastPolicy} {i : Nat} {e : Entry} :
    e.reaches policy i = true ↔ .poller i ∈ e.reached policy := by
  simp only [reaches, List.any_eq_true]
  constructor
  · rintro ⟨r, hr, hpoller⟩
    obtain rfl := Refresher.eq_of_isPoller hpoller
    exact hr
  · intro hmem
    exact ⟨.poller i, hmem, by simp [Refresher.isPoller]⟩

theorem reached_subset (policy : BroadcastPolicy) (e : Entry) :
    e.reached policy ⊆ e.broadcast.entries := by
  cases policy with
  | isolate => exact fun r hr => hr
  | abort => exact List.take_subset _ _

end Entry

/-- What the poller with index `i` was last told, if anything, by a broadcast that reached it. -/
def Ledger.told (policy : BroadcastPolicy) (ledger : Ledger) (i : Nat) : RunState :=
  match ledger.find? (·.reaches policy i) with
  | some e => e.broadcast.kind.runState
  | none => .running

theorem Ledger.told_cons (policy : BroadcastPolicy) (e : Entry) (ledger : Ledger) (i : Nat) :
    Ledger.told policy (e :: ledger) i =
      if e.reaches policy i then e.broadcast.kind.runState else ledger.told policy i := by
  cases hreaches : e.reaches policy i <;> simp [told, hreaches]

/-- Nobody reaches a poller that is made later. -/
theorem Ledger.told_of_length_le {policy : BroadcastPolicy} {ledger : Ledger} {count i : Nat}
    (hknown : ∀ e ∈ ledger, ∀ r ∈ e.broadcast.entries, r.Known count) (hi : count ≤ i) :
    ledger.told policy i = .running := by
  have hnone : ledger.find? (·.reaches policy i) = none := by
    rw [List.find?_eq_none]
    intro e he hreaches
    have hlt : i < count := hknown e he _ (e.reached_subset policy (Entry.reaches_iff.mp hreaches))
    omega
  rw [told, hnone]

/-! ## Keeping the ledger -/

/-- The task is a broadcast that is under way. -/
def Task.isBroadcast : Task → Bool
  | .broadcasting .. => true
  | .settling .. => true
  | _ => false

namespace Machine

/-- No broadcast is under way. -/
def idle (m : Machine) : Bool :=
  m.agenda.all fun task => !task.isBroadcast

/-- The outcome of a call that a broadcast takes in. -/
def settled? (m : Machine) : Turn → Option (Except RefreshError Unit)
  | .move .perform =>
      match m.agenda with
      | .settling _ _ _ _ outcome _ :: _ => some outcome
      | _ => none
  | _ => none

/-- The ledger after a turn: a broadcast that begins is entered, and an outcome is added to the
newest one. -/
def enter (m : Machine) (now : Instant) (t : Turn) (ledger : Ledger) : Ledger :=
  match m.begun? now t, m.settled? t, ledger with
  | some b, _, _ => ⟨b, []⟩ :: ledger
  | none, some outcome, e :: earlier => { e with outcomes := e.outcomes ++ [outcome] } :: earlier
  | none, _, _ => ledger

def ledgerFrom (m : Machine) (ledger : Ledger) : Play → Ledger
  | [] => ledger
  | (now, t) :: play => (m.turn now t).ledgerFrom (m.enter now t ledger) play

/-- The ledger of a play. -/
def ledger (m : Machine) (play : Play) : Ledger :=
  m.ledgerFrom [] play

/-- An operation of its own, and not a broadcast, stops or restarts a poller. -/
def callsPoller (m : Machine) (t : Turn) : Bool :=
  match (m.command? t).map m.world.commandAct with
  | some (.stopped _) => true
  | some (.restarted _) => true
  | _ => false

/-- Only broadcasts stop and restart pollers, and none begins while another one is under way. -/
def orderly (m : Machine) (now : Instant) (t : Turn) : Bool :=
  !m.callsPoller t && ((m.begun? now t).isNone || m.idle)

/-- All turns of the play are orderly. -/
def Orderly (m : Machine) (play : Play) : Prop :=
  m.Throughout (fun m now t => m.orderly now t = true) play

instance (m : Machine) (play : Play) : Decidable (m.Orderly play) :=
  inferInstanceAs (Decidable (m.Throughout _ play))

theorem enter_none {m : Machine} {now : Instant} {t : Turn} (ledger : Ledger)
    (hbegun : m.begun? now t = none) (hsettled : m.settled? t = none) :
    m.enter now t ledger = ledger := by
  simp [enter, hbegun, hsettled]

theorem enter_begun {m : Machine} {now : Instant} {t : Turn} {b : Broadcast} (ledger : Ledger)
    (hbegun : m.begun? now t = some b) : m.enter now t ledger = ⟨b, []⟩ :: ledger := by
  simp [enter, hbegun]

theorem enter_settled {m : Machine} {now : Instant} {t : Turn}
    {outcome : Except RefreshError Unit} (e : Entry) (earlier : Ledger)
    (hbegun : m.begun? now t = none) (hsettled : m.settled? t = some outcome) :
    m.enter now t (e :: earlier) = { e with outcomes := e.outcomes ++ [outcome] } :: earlier := by
  simp [enter, hbegun, hsettled]

theorem enter_broadcasts (m : Machine) (now : Instant) (t : Turn) (ledger : Ledger) :
    (m.enter now t ledger).map Entry.broadcast =
      (m.begun? now t).toList ++ ledger.map Entry.broadcast := by
  cases hbegun : m.begun? now t with
  | some b =>
      rw [enter_begun ledger hbegun]
      rfl
  | none =>
      cases hsettled : m.settled? t with
      | none =>
          rw [enter_none ledger hbegun hsettled]
          rfl
      | some outcome => cases ledger <;> simp [enter, hbegun, hsettled]

/-- The ledger has the broadcasts that the play began. -/
theorem ledgerFrom_broadcasts (m : Machine) (ledger : Ledger) (play : Play) :
    (m.ledgerFrom ledger play).map Entry.broadcast =
      (m.broadcasts play).reverse ++ ledger.map Entry.broadcast := by
  induction play generalizing m ledger with
  | nil => rfl
  | cons head play ih =>
      rw [ledgerFrom, ih, enter_broadcasts, broadcasts, broadcasts, trail, List.reverse_append,
        List.append_assoc]
      cases m.begun? head.1 head.2 <;> rfl

end Machine

end Session

end PageRefresh
