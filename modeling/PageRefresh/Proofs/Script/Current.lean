import Mathlib.Data.List.Forall2
import PageRefresh.Proofs.Script.Chronicle

/-!
The current pollers of a simulation and its registry.

A cycle step looks for its poller in a list that the simulation keeps beside the registry.  Every
step writes to both or to neither, so that the list is at all times the registry without its faulty
refreshers, poller for poller.  Who is the main refresher, how many are registered and which page is
entered can be told from the steps since the registry was emptied.
-/

namespace PageRefresh.Script

/-- The poller that the step makes becomes the main refresher. -/
def Step.isMain : Step → Bool
  | .named .main _ => true
  | _ => false

namespace Past

/-- The steps since the registry was emptied, in their order. -/
def sinceEmptied (past : Past) : List Step :=
  (past.takeWhile fun step => !step.resets).reverse

/-- Those of them that made a poller. -/
def makers (past : Past) : List Step :=
  past.sinceEmptied.filter fun step => step.makes?.isSome

/-- The pollers in the registry, in order. -/
def current (past : Past) : List Nat :=
  (registered past).filterMap Participant.index?

variable {past : Past} {step : Step} {i : Nat}

theorem makers_cons (step : Step) (past : Past) :
    makers (step :: past) =
      if step.resets then []
      else makers past ++ if step.makes?.isSome then [step] else [] := by
  cases hresets : step.resets with
  | true => simp [makers, sinceEmptied, hresets]
  | false => simp [makers, sinceEmptied, hresets, List.filter_cons]

theorem current_cons (step : Step) (past : Past) :
    current (step :: past) =
      if step.resets then []
      else current past ++ if step.makes?.isSome then [(names past).length] else [] := by
  rw [current, registered]
  split
  · rfl
  · rw [List.filterMap_append]
    cases hmakes : step.makes? with
    | none =>
        rw [index?_of_makes?_eq_none _ hmakes]
        rfl
    | some name =>
        rw [(registers?_of_makes? _ hmakes).2]
        rfl

theorem lt_of_mem_current (hmem : i ∈ current past) : i < (names past).length := by
  obtain ⟨x, hx, hindex⟩ := List.mem_filterMap.mp hmem
  cases x with
  | faulty name => contradiction
  | poller j =>
      obtain rfl : j = i := Option.some.inj hindex
      exact lt_of_mem_registered hx

/-- Each of these steps made one of the pollers, under its name. -/
theorem current_made (past : Past) :
    List.Forall₂ (fun i step => ∃ name, step.makes? = some name ∧ (names past)[i]? = some name)
      (current past) (makers past) := by
  induction past with
  | nil => exact .nil
  | cons step past ih =>
      rw [current_cons, makers_cons]
      split
      · exact .nil
      · apply List.rel_append
        · refine ih.imp ?_
          rintro i maker ⟨name, hmakes, hname⟩
          exact ⟨name, hmakes, getElem?_names_cons step hname⟩
        · cases hmakes : step.makes? with
          | none => exact .nil
          | some name => exact .cons ⟨name, hmakes, getElem?_names_made hmakes⟩ .nil

/-- No poller is registered twice. -/
theorem current_sorted (past : Past) : (current past).Pairwise (· < ·) := by
  induction past with
  | nil => exact .nil
  | cons step past ih =>
      rw [current_cons]
      split
      · exact .nil
      · rw [List.pairwise_append]
        refine ⟨ih, ?_, ?_⟩
        · split
          · exact List.pairwise_singleton _ _
          · exact .nil
        · intro i hi j hj
          split at hj
          · rw [List.mem_singleton.mp hj]
            exact lt_of_mem_current hi
          · contradiction

/-- The pollers in the registry, each with the step that made it. -/
theorem zip_makers_cons (step : Step) (past : Past) :
    (current (step :: past)).zip (makers (step :: past)) =
      if step.resets then []
      else (current past).zip (makers past) ++
        if step.makes?.isSome then [((names past).length, step)] else [] := by
  rw [current_cons, makers_cons]
  split
  · rfl
  · rw [List.zip_append (current_made past).length_eq]
    congr 1
    split <;> rfl

/-- The main poller is the last one that a `main` step made. -/
theorem main?_index (past : Past) :
    (main? past).map Prod.fst =
      (((current past).zip (makers past)).filter fun e => e.2.isMain).getLast?.map Prod.fst := by
  induction past with
  | nil => rfl
  | cons step past ih =>
      rw [zip_makers_cons]
      cases step with
      | bare verb =>
          cases verb with
          | clear => rfl
          | _ => simpa [main?, Step.resets, Step.makes?] using ih
      | named verb name =>
          cases verb with
          | page => rfl
          | main => simp [main?, Step.resets, Step.makes?, Step.isMain]
          | _ => simpa [main?, Step.resets, Step.makes?, Step.isMain] using ih

/-- One refresher is registered by every step that puts a member on the roll. -/
theorem length_registered (past : Past) :
    (registered past).length = past.sinceEmptied.countP fun step => step.enrols?.isSome := by
  have hroll : (registered past).length = past.roll.length := by
    simpa using congrArg List.length past.registered_roll
  rw [hroll]
  exact List.length_filterMap_eq_countP

/-- A step that may fail leaves the registry and the page alone. -/
theorem of_error_mem_actions (past : Past) (haction : "error" ∈ step.actions) :
    registered (step :: past) = registered past ∧ main? (step :: past) = main? past ∧
      page? (step :: past) = page? past := by
  cases step with
  | named verb name =>
      cases verb with
      | cycle => exact ⟨List.append_nil _, rfl, rfl⟩
      | _ => simp [Step.actions] at haction
  | bare verb =>
      cases verb with
      | clear => simp [Step.actions] at haction
      | _ => exact ⟨List.append_nil _, rfl, rfl⟩

end Past

/-- Without the faulty ones only pollers are left. -/
theorem map_poller_index? (entries : List Participant) :
    (entries.filterMap Participant.index?).map Participant.poller =
      entries.filter fun x => !x.isFaulty := by
  induction entries with
  | nil => rfl
  | cons x entries ih =>
      cases x with
      | poller i =>
          have hindex : (Participant.poller i).index? = some i := rfl
          rw [List.filterMap_cons_some hindex, List.map_cons, ih]
          rfl
      | faulty name =>
          have hindex : (Participant.faulty name).index? = none := rfl
          rw [List.filterMap_cons_none hindex, ih]
          rfl

namespace Outlines

variable {policy : BroadcastPolicy} {past : Past} {s : Simulation}

theorem registry (houtlines : Outlines policy past s) :
    s.shell.registry =
      ⟨policy, Past.registered past, (Past.main? past).map fun e => .poller e.1⟩ := by
  rw [← houtlines.entries, ← houtlines.main, ← houtlines.keeps]
  rfl

/-- The current pollers, with their names, are those that steps made since the registry was
emptied. -/
theorem current_made (houtlines : Outlines policy past s) :
    List.Forall₂
      (fun i step => ∃ named, s.pollers[i]? = some named ∧ step.makes? = some named.name)
      s.current past.makers := by
  rw [houtlines.current]
  refine (Past.current_made past).imp ?_
  rintro i step ⟨name, hmakes, hname⟩
  obtain ⟨named, hnamed, rfl⟩ := houtlines.getElem? hname
  exact ⟨named, hnamed, hmakes⟩

theorem main_of_current (houtlines : Outlines policy past s) :
    s.shell.registry.main =
      ((s.current.zip past.makers).filter fun e => e.2.isMain).getLast?.map fun e =>
        .poller e.1 := by
  have hmain := congrArg (Option.map Participant.poller) past.main?_index
  rw [Option.map_map, Option.map_map] at hmain
  rw [houtlines.main, houtlines.current]
  exact hmain

end Outlines

theorem simulate_page (policy : BroadcastPolicy) (interval : Duration) (now : Instant)
    (script : List Step) :
    (simulate policy interval now script).shell.page = Past.page? script.reverse :=
  congrArg Outcome.page (simulate_outcome policy interval now script 0)

/-- The list of pollers of a simulation, its registry and its page are what the steps so far have
made of them. -/
structure Follows (past : Past) (s : Simulation) : Prop where
  /-- The list is the registry without the faulty refreshers ... -/
  participants : s.current.map Participant.poller =
    s.shell.registry.entries.filter (fun x => !x.isFaulty)
  /-- ... and holds, once and in order, the pollers made since the registry was emptied. -/
  ordered : s.current.Pairwise (· < ·)
  made : List.Forall₂
    (fun j step => ∃ named, s.pollers[j]? = some named ∧ step.makes? = some named.name)
    s.current past.makers
  main : s.shell.registry.main =
    ((s.current.zip past.makers).filter fun e => e.2.isMain).getLast?.map fun e => .poller e.1
  size : s.shell.registry.size = past.sinceEmptied.countP (fun step => step.enrols?.isSome)
  registered : ∀ steps, (s.outcome steps).registered = s.shell.registry.size
  page : s.shell.page = past.page?

/-- A step has left the pollers, the registry and the page as they were. -/
structure LeavesPollers (before after : Simulation) : Prop where
  current : after.current = before.current
  registry : after.shell.registry = before.shell.registry
  page : after.shell.page = before.shell.page

/-- The list of pollers of a simulation and its registry never drift apart, and a step that fails
changes neither. -/
theorem pollers_follow_registry (policy : BroadcastPolicy) (interval : Duration) (now : Instant)
    (script : List Step) :
    (∀ i, Follows (pastAt script i) (simulate policy interval now (script.take i))) ∧
      ∀ i step e, script[i]? = some step →
        ((simulate policy interval now (script.take i)).atNext.apply step).1 = .error e →
          LeavesPollers (simulate policy interval now (script.take i))
            (simulate policy interval now (script.take (i + 1))) := by
  refine ⟨?_, ?_⟩
  · intro i
    have houtlines : Outlines policy (pastAt script i) _ :=
      (mirrors_at policy interval now script i).toOutlines
    refine ⟨?_, ?_, houtlines.current_made, houtlines.main_of_current, ?_, fun _ => rfl,
      simulate_page policy interval now _⟩
    · rw [houtlines.current, houtlines.entries]
      exact map_poller_index? _
    · rw [houtlines.current]
      exact Past.current_sorted _
    · rw [Registry.size, houtlines.entries]
      exact Past.length_registered _
  · intro i step e hstep hfails
    have hbefore := (mirrors_at policy interval now script i).toOutlines
    have hafter := (mirrors_at policy interval now script (i + 1)).toOutlines
    have hpage : (simulate policy interval now (script.take (i + 1))).shell.page =
        Past.page? (pastAt script (i + 1)) :=
      simulate_page policy interval now _
    obtain ⟨hregistered, hmain, hsame⟩ :=
      (pastAt script i).of_error_mem_actions (Simulation.apply_error hfails)
    rw [pastAt_succ hstep] at hafter hpage
    refine ⟨?_, ?_, ?_⟩
    · rw [hafter.current, hregistered, hbefore.current]
    · rw [hafter.registry, hregistered, hmain, hbefore.registry]
    · rw [hpage, hsame]
      exact (simulate_page policy interval now _).symm

/-- After the registry was cleared, the second of four refreshers ends a broadcast early. -/
def endedEarly : List Step :=
  [.named .page "p", .named .add "f", .bare .clear, .named .main "f", .named .fail "x",
    .named .main "g", .named .add "f", .bare .disable]

theorem pollers_follow_registry_endedEarly :
    let s := simulate .abort (.ofSecs 10) ⟨0⟩ endedEarly
    let before := simulate .abort (.ofSecs 10) ⟨0⟩ (endedEarly.take 7)
    s.current = [1, 2, 3] ∧
      [1, 2, 3].map Participant.poller = s.shell.registry.entries.filter (fun x => !x.isFaulty) ∧
      s.shell.registry.main = some (.poller 2) ∧ s.shell.registry.size = 4 ∧
      s.shell.page = some "p" ∧
      (before.atNext.apply (.bare .disable)).1 =
        .error (.refresh (.broadcastAborted .stop 1 (.stopFailed "x" "refresher is faulty"))) ∧
      s.shell.registry = before.shell.registry := by
  intro s before
  obtain ⟨hfollows, hfails⟩ := pollers_follow_registry .abort (.ofSecs 10) ⟨0⟩ endedEarly
  have hend := hfollows 8
  have hcurrent : s.current = [1, 2, 3] := by decide
  have herror : (before.atNext.apply (.bare .disable)).1 =
      .error (.refresh (.broadcastAborted .stop 1 (.stopFailed "x" "refresher is faulty"))) := by
    decide
  have hkept := hfails 7 (.bare .disable) _ rfl herror
  exact ⟨hcurrent, hend.participants, hend.main, hend.size, hend.page, herror, hkept.registry⟩

end PageRefresh.Script
