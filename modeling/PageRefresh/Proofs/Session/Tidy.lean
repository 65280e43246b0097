import PageRefresh.Proofs.Session.Known

/-!
Page shells that a session can come to.

Leaving a page clears the registry only if somebody is registered.  It leaves nothing behind all the
same: whoever is made the main refresher is registered, so an empty registry has no main refresher
(`Registry.Tidy`).  No operation breaks this, whatever is under way.
-/

namespace PageRefresh

/-- In an empty registry nobody is the main refresher. -/
def Registry.Tidy {ρ : Type} (r : Registry ρ) : Prop :=
  r.entries = [] → r.main = none

namespace Registry

variable {ρ : Type} {r : Registry ρ}

theorem tidy_empty (policy : BroadcastPolicy) : (empty policy : Registry ρ).Tidy :=
  fun _ => rfl

theorem tidy_add (r : Registry ρ) (x : ρ) : (r.add x).Tidy := by
  intro hempty
  simp [add] at hempty

theorem tidy_addMain (r : Registry ρ) (x : ρ) : (r.addMain x).Tidy := by
  intro hempty
  simp [addMain] at hempty

theorem tidy_clear (r : Registry ρ) : r.clear.Tidy :=
  fun _ => rfl

theorem Tidy.clear_of_isEmpty (htidy : r.Tidy) (hempty : r.isEmpty = true) : r.clear = r := by
  have hentries : r.entries = [] := List.isEmpty_iff.mp hempty
  rw [clear, ← hentries, ← htidy hentries]

end Registry

namespace Shell

variable {ρ : Type} {s : Shell ρ}

/-- Leaving a page empties the registry, by clearing it or because it was empty. -/
theorem leave_registry (htidy : s.registry.Tidy) : s.leave.registry = s.registry.clear := by
  rw [leave]
  split
  · rename_i hempty
    exact (htidy.clear_of_isEmpty hempty).symm
  · rfl

theorem leave_tidy (htidy : s.registry.Tidy) : s.leave.registry.Tidy := by
  rw [leave_registry htidy]
  exact s.registry.tidy_clear

/-- Entering a page does what it does to a new shell, but for the identifier of the visit. -/
theorem enterPage_of_tidy (htidy : s.registry.Tidy) (name : String) :
    s.enterPage name =
      { (empty s.registry.policy : Shell ρ).enterPage name with
        visit := some s.visits, visits := s.visits + 1 } := by
  have hleft : s.enterPage name =
      ⟨s.leave.registry, some name, some s.visits, 0, s.visits + 1⟩ := rfl
  rw [hleft, leave_registry htidy]
  rfl

end Shell

namespace Session

theorem World.shellAfter_tidy {w : World} (htidy : w.shell.registry.Tidy) (c : Command) :
    (w.shellAfter c).registry.Tidy := by
  cases c with
  | add id =>
      rw [shellAfter]
      cases w.find? id with
      | none => exact htidy
      | some r => exact w.shell.registry.tidy_add r
  | addMain id =>
      rw [shellAfter]
      cases w.find? id with
      | none => exact htidy
      | some r => exact w.shell.registry.tidy_addMain r
  | readdMain => exact w.shell.registry.tidy_addMain w.main
  | clear => exact w.shell.registry.tidy_clear
  | closeModal =>
      rw [shellAfter]
      cases w.shell.closesWith <;> exact htidy
  | enterPage name => exact Shell.leave_tidy htidy
  | leave => exact Shell.leave_tidy htidy
  | _ => exact htidy

namespace Machine

theorem turn_tidy {m : Machine} (now : Instant) (t : Turn) (htidy : m.world.shell.registry.Tidy) :
    (m.turn now t).world.shell.registry.Tidy := by
  rw [turn_shell]
  cases m.command? t with
  | none => exact htidy
  | some c => exact World.shellAfter_tidy htidy c

theorem played_tidy {m : Machine} (htidy : m.world.shell.registry.Tidy) (play : Play) :
    (m.played play).world.shell.registry.Tidy := by
  induction play generalizing m with
  | nil => exact htidy
  | cons head play ih => exact ih (turn_tidy head.1 head.2 htidy)

theorem played_policy (m : Machine) (play : Play) :
    (m.played play).world.policy = m.world.policy := by
  induction play generalizing m with
  | nil => rfl
  | cons head play ih => exact (ih (m.turn head.1 head.2)).trans (m.turn_policy head.1 head.2)

/-- In whatever state a session leaves the page shell, entering a page is a new start. -/
theorem played_enterPage (policy : BroadcastPolicy) (play : Play) (name : String) :
    let shell := ((new policy).played play).world.shell
    shell.enterPage name =
      { (Shell.empty policy : Shell Refresher).enterPage name with
        visit := some shell.visits, visits := shell.visits + 1 } := by
  have htidy := played_tidy (m := new policy) (Registry.tidy_empty policy) play
  have hpolicy := (new policy).played_policy play
  have henters := Shell.enterPage_of_tidy htidy name
  rw [← World.policy, hpolicy] at henters
  exact henters

end Machine

end Session

end PageRefresh
