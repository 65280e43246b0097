import PageRefresh.Proofs.Session.History
import PageRefresh.Proofs.Session.Play

/-!
What is registered is there.

Names and registrations mean pollers by their index.  From an empty session on they only mean
pollers that have been made (`turn_known`), so a broadcast never reaches a poller that is made after
it began.
-/

namespace PageRefresh.Session

/-! ## Whoever has a name or is registered -/

namespace World

/-- Everybody who has a name or is registered is of some kind. -/
structure All (P : Refresher → Prop) (w : World) : Prop where
  names : ∀ e ∈ w.names, P e.2
  entries : ∀ r ∈ w.shell.registry.entries, P r
  main : ∀ r ∈ w.shell.registry.main, P r

/-- The refresher that an operation makes. -/
def made? (w : World) : Command → Option Refresher
  | .poller _ _ _ => some (.poller w.pollers.length)
  | .scripted _ script => some (.scripted script)
  | .anonymous _ script => some (.scripted script.anonymous)
  | .noop _ => some .noop
  | _ => none

variable {w : World} {P : Refresher → Prop}

theorem All.find (hall : w.All P) {id : String} {r : Refresher} (hfind : w.find? id = some r) :
    P r := by
  obtain ⟨before, later, hnames, -⟩ := List.lookup_eq_some_iff.mp hfind
  exact hall.names (id, r) (by simp [hnames])

theorem All.registeredMain (hall : w.All P) (hnoop : P .noop) : P w.main := by
  cases hmain : w.shell.registry.main with
  | none => simpa [World.main, hmain] using hnoop
  | some r => simpa [World.main, hmain] using hall.main r hmain

/-- An operation registers only who has a name, or the main refresher once more. -/
theorem All.shellAfter (hall : w.All P) (hnoop : P .noop) (c : Command) :
    (∀ r ∈ (w.shellAfter c).registry.entries, P r) ∧
      ∀ r ∈ (w.shellAfter c).registry.main, P r := by
  have hadd : ∀ r, P r → ∀ x ∈ w.shell.registry.entries ++ [r], P x := by
    intro r hr
    simpa [or_imp, forall_and] using ⟨hall.entries, hr⟩
  have hleave : (∀ r ∈ w.shell.leave.registry.entries, P r) ∧
      ∀ r ∈ w.shell.leave.registry.main, P r := by
    simp only [Shell.leave]
    split
    · exact ⟨hall.entries, hall.main⟩
    · simp [Registry.clear]
  cases c with
  | add id =>
      simp only [World.shellAfter]
      cases hfind : w.find? id with
      | none => exact ⟨hall.entries, hall.main⟩
      | some r => exact ⟨hadd r (hall.find hfind), hall.main⟩
  | addMain id =>
      simp only [World.shellAfter]
      cases hfind : w.find? id with
      | none => exact ⟨hall.entries, hall.main⟩
      | some r =>
          have hr := hall.find hfind
          exact ⟨hadd r hr, by simpa [Shell.mapRegistry, Registry.addMain] using hr⟩
  | readdMain =>
      have hr := hall.registeredMain hnoop
      exact ⟨hadd w.main hr,
        by simpa [World.shellAfter, Shell.mapRegistry, Registry.addMain] using hr⟩
  | clear => simp [World.shellAfter, Shell.mapRegistry, Registry.clear]
  | closeModal =>
      simp only [World.shellAfter]
      split <;> exact ⟨hall.entries, hall.main⟩
  | enterPage name => exact hleave
  | leave => exact hleave
  | _ => exact ⟨hall.entries, hall.main⟩

/-- An operation names nobody but the refresher that it makes. -/
theorem namesAfter_all (hnames : ∀ e ∈ w.names, P e.2) {c : Command}
    (hmade : ∀ r ∈ w.made? c, P r) : ∀ e ∈ w.namesAfter c, P e.2 := by
  have hbind : ∀ id r, P r → ∀ e ∈ (w.bind id r).names, P e.2 := by
    intro id r hr e he
    simp only [bind, List.mem_append, List.mem_singleton] at he
    rcases he with hold | rfl
    · exact hnames e (List.mem_filter.mp hold).1
    · exact hr
  cases c with
  | poller id fragments interval => exact hbind id _ (hmade _ rfl)
  | scripted id script => exact hbind id _ (hmade _ rfl)
  | anonymous id script => exact hbind id _ (hmade _ rfl)
  | noop id => exact hbind id _ (hmade _ rfl)
  | _ => exact hnames

end World

/-! ## Refreshers that are there -/

/-- If the refresher is a poller, it is one of the first `count` that were made. -/
def Refresher.Known (count : Nat) : Refresher → Prop
  | .poller i => i < count
  | _ => True

theorem Refresher.Known.mono {count more : Nat} {r : Refresher} (hknown : r.Known count)
    (hle : count ≤ more) : r.Known more := by
  cases r with
  | poller i => exact Nat.lt_of_lt_of_le hknown hle
  | _ => trivial

/-- Whatever is registered is there. -/
structure RegistryKnown (count : Nat) (registry : Registry Refresher) : Prop where
  entries : ∀ r ∈ registry.entries, r.Known count
  main : ∀ r ∈ registry.main, r.Known count

theorem RegistryKnown.mono {count more : Nat} {registry : Registry Refresher}
    (hknown : RegistryKnown count registry) (hle : count ≤ more) :
    RegistryKnown more registry where
  entries r hr := (hknown.entries r hr).mono hle
  main r hr := (hknown.main r hr).mono hle

/-- Whatever has a name is there. -/
def NamesKnown (count : Nat) (names : List (String × Refresher)) : Prop :=
  ∀ e ∈ names, e.2.Known count

namespace World

/-- Whatever has a name or is registered is there. -/
structure Known (w : World) : Prop where
  names : NamesKnown w.pollers.length w.names
  registry : RegistryKnown w.pollers.length w.shell.registry

variable {w : World}

theorem Known.all (hknown : w.Known) : w.All (Refresher.Known w.pollers.length) :=
  ⟨hknown.names, hknown.registry.entries, hknown.registry.main⟩

/-- An operation registers only what is there. -/
theorem Known.shellAfter (hknown : w.Known) (c : Command) :
    RegistryKnown w.pollers.length (w.shellAfter c).registry :=
  ⟨(hknown.all.shellAfter trivial c).1, (hknown.all.shellAfter trivial c).2⟩

/-- An operation names only what is there, or the poller that it makes. -/
theorem Known.namesAfter (hknown : w.Known) (now : Instant) (c : Command) :
    NamesKnown ((w.commandAct c).onPollers now w.pollers).length (w.namesAfter c) := by
  apply namesAfter_all
  · intro e he
    exact (hknown.names e he).mono (by simp [Act.onPollers])
  · intro r hr
    cases c with
    | poller id fragments interval =>
        obtain rfl : .poller w.pollers.length = r := Option.some.inj hr
        simp [commandAct, Act.onPollers, Act.newPollers, Refresher.Known]
    | scripted id script =>
        obtain rfl : .scripted script = r := Option.some.inj hr
        trivial
    | anonymous id script =>
        obtain rfl : .scripted script.anonymous = r := Option.some.inj hr
        trivial
    | noop id =>
        obtain rfl : .noop = r := Option.some.inj hr
        trivial
    | _ => contradiction

end World

/-- The policy is that of the session, for ever. -/
theorem World.shellAfter_policy (w : World) (c : Command) :
    (w.shellAfter c).registry.policy = w.policy := by
  have hleave : w.shell.leave.registry.policy = w.policy := by
    simp only [Shell.leave]
    split <;> rfl
  cases c with
  | add id => cases hfind : w.find? id <;> simp [shellAfter, hfind, policy, Shell.mapRegistry,
      Registry.add]
  | addMain id => cases hfind : w.find? id <;> simp [shellAfter, hfind, policy, Shell.mapRegistry,
      Registry.addMain]
  | closeModal =>
      simp only [shellAfter]
      split <;> rfl
  | enterPage name => exact hleave
  | leave => exact hleave
  | _ => rfl

/-! ## Turns and pollers -/

namespace Machine

/-- What a turn comes to for pollers. -/
def turnAct (m : Machine) : Turn → Act
  | .move mv => m.act mv
  | .decide _ => .quiet

theorem turn_pollers (m : Machine) (now : Instant) (t : Turn) :
    (m.turnAct t).Possible m.world.pollers ∧
      (m.turn now t).world.pollers = (m.turnAct t).onPollers now m.world.pollers := by
  cases t with
  | move mv =>
      have hdoes := m.move_does now mv
      exact ⟨hdoes.possible, hdoes.pollers⟩
  | decide outcome =>
      refine ⟨trivial, ?_⟩
      rw [turnAct, Act.onPollers_same _ (fun _ _ => rfl) rfl, turn_decide_world]

theorem turnAct_of_command {m : Machine} {t : Turn} {c : Command}
    (hcommand : m.command? t = some c) : m.turnAct t = m.world.commandAct c := by
  obtain ⟨rfl, asker, rest, hagenda⟩ := agenda_of_command? hcommand
  rw [turnAct, act_perform hagenda, World.act]

theorem turn_pollers_length (m : Machine) (now : Instant) (t : Turn) :
    m.world.pollers.length ≤ (m.turn now t).world.pollers.length := by
  rw [(m.turn_pollers now t).2]
  simp [Act.onPollers]

theorem turn_known {m : Machine} (now : Instant) (t : Turn) (hknown : m.world.Known) :
    (m.turn now t).world.Known := by
  have hlength := m.turn_pollers_length now t
  cases hcommand : m.command? t with
  | none =>
      obtain ⟨hshell, hnames⟩ := Prod.mk.inj (turn_setting_of_none now hcommand)
      refine ⟨?_, ?_⟩
      · rw [hnames]
        exact fun e he => (hknown.names e he).mono hlength
      · rw [hshell]
        exact hknown.registry.mono hlength
  | some c =>
      obtain ⟨hshell, hnames⟩ := Prod.mk.inj (turn_setting_of_some now hcommand)
      refine ⟨?_, ?_⟩
      · rw [hnames, (m.turn_pollers now t).2, turnAct_of_command hcommand]
        exact hknown.namesAfter now c
      · rw [hshell]
        exact (hknown.shellAfter c).mono hlength

theorem turn_policy (m : Machine) (now : Instant) (t : Turn) :
    (m.turn now t).world.policy = m.world.policy := by
  rw [World.policy, turn_shell]
  cases m.command? t with
  | none => rfl
  | some c => exact m.world.shellAfter_policy c

end Machine

end PageRefresh.Session
