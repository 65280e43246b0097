import PageRefresh.Script.Simulation

/-!
What the steps of a script so far come to.

Which poller a name means, which one is the main poller, which broadcasts a step makes and whom they
reach, which cycles can be completed and which callbacks wait for one: all of it is read off the
steps that were taken, without running anything.  Pollers are told apart by the order in which they
were made.
-/

namespace PageRefresh.Script

namespace Step

/-- The name of the poller that a step makes. -/
def makes? : Step → Option String
  | .named .add name => some name
  | .named .main name => some name
  | _ => none

/-- The step takes every refresher out of the registry. -/
def resets : Step → Bool
  | .named .page _ => true
  | .bare .clear => true
  | _ => false

end Step

def Participant.isFaulty : Participant → Bool
  | faulty _ => true
  | poller _ => false

/-- Whom a broadcast to these refreshers reaches: all of them, or those before the first failure. -/
def reachedOf (policy : BroadcastPolicy) (entries : List Participant) : List Participant :=
  match policy with
  | .isolate => entries
  | .abort => entries.takeWhile (!·.isFaulty)

/-- The refresher that a step registers when `count` pollers have been made. -/
def Step.registers? (count : Nat) : Step → Option Participant
  | .named .add _ => some (.poller count)
  | .named .main _ => some (.poller count)
  | .named .fail name => some (.faulty name)
  | _ => none

/-- The steps taken so far, newest first. -/
abbrev Past := List Step

namespace Past

/-- The names of the pollers made so far, in order. -/
def names : Past → List String
  | [] => []
  | step :: past => names past ++ step.makes?.toList

/-- The registry, in order. -/
def registered : Past → List Participant
  | [] => []
  | step :: past =>
      if step.resets then []
      else registered past ++ (step.registers? (names past).length).toList

/-- The poller of the last `main` step since the registry was emptied, with its name. -/
def main? : Past → Option (Nat × String)
  | [] => none
  | .named .main name :: past => some ((names past).length, name)
  | step :: past => if step.resets then none else main? past

/-- The poller of the last step since then that made one of this name. -/
def newest? (name : String) : Past → Option Nat
  | [] => none
  | step :: past =>
      if step.resets then none
      else if step.makes? = some name then some (names past).length
      else newest? name past

/-- How many modals are open. -/
def depth : Past → Nat
  | [] => 0
  | .named .page _ :: _ => 0
  | .bare .modalOpen :: past => depth past + 1
  | .bare .modalClose :: past => depth past - 1
  | _ :: past => depth past

/-- The broadcast that a step makes. -/
def broadcast? (past : Past) : Step → Option BroadcastKind
  | .bare .disable => some .stop
  | .bare .enable => some .restart
  | .bare .modalOpen => if past.depth = 0 then some .stop else none
  | .bare .modalClose => if past.depth = 1 then some .restart else none
  | _ => none

/-- Whom a broadcast reaches after these steps. -/
def reached (policy : BroadcastPolicy) (past : Past) : List Participant :=
  reachedOf policy (registered past)

/-- The last broadcast that reached the poller with index `i`. -/
def told? (policy : BroadcastPolicy) (i : Nat) : Past → Option BroadcastKind
  | [] => none
  | step :: past =>
      match broadcast? past step with
      | some kind => if .poller i ∈ reached policy past then some kind else told? policy i past
      | none => told? policy i past

/-- The poller whose cycle a step completes: the newest of the name, unless it is stopped. -/
def completes? (policy : BroadcastPolicy) (past : Past) : Step → Option Nat
  | .named .cycle name =>
      (newest? name past).filter fun i => told? policy i past != some .stop
  | _ => none

/-- How many cycles the poller with index `i` has completed. -/
def completed (policy : BroadcastPolicy) (i : Nat) : Past → Nat
  | [] => 0
  | step :: past =>
      if completes? policy past step = some i then completed policy i past + 1
      else completed policy i past

/-- The poller that lets the callback of a step wait: the main poller, if it has the name. -/
def queues? (past : Past) : Step → Option Nat
  | .named .after name => (main? past).bind fun e => if e.2 = name then some e.1 else none
  | _ => none

/-- The steps, counted from 0, whose callbacks wait for the next cycle of the poller. -/
def waiting (policy : BroadcastPolicy) (i : Nat) : Past → List Nat
  | [] => []
  | step :: past =>
      if completes? policy past step = some i then []
      else if queues? past step = some i then waiting policy i past ++ [past.length]
      else waiting policy i past

/-! ## Kinds of steps -/

/-- A step that empties the registry does nothing else to pollers. -/
theorem of_resets {step : Step} (policy : BroadcastPolicy) (past : Past)
    (hresets : step.resets = true) :
    registered (step :: past) = [] ∧ main? (step :: past) = none ∧
      names (step :: past) = names past ∧ broadcast? past step = none ∧
        completes? policy past step = none ∧ queues? past step = none := by
  unfold Step.resets at hresets
  split at hresets
  · exact ⟨rfl, rfl, List.append_nil _, rfl, rfl, rfl⟩
  · exact ⟨rfl, rfl, List.append_nil _, rfl, rfl, rfl⟩
  · contradiction

/-- A step that makes a poller registers it and does nothing to the others. -/
theorem of_makes {step : Step} {name : String} (policy : BroadcastPolicy) (past : Past)
    (hmakes : step.makes? = some name) :
    registered (step :: past) = registered past ++ [.poller (names past).length] ∧
      names (step :: past) = names past ++ [name] ∧ depth (step :: past) = depth past ∧
        broadcast? past step = none ∧ completes? policy past step = none ∧
          queues? past step = none := by
  unfold Step.makes? at hmakes
  split at hmakes
  · obtain rfl := Option.some.inj hmakes
    exact ⟨rfl, rfl, rfl, rfl, rfl, rfl⟩
  · obtain rfl := Option.some.inj hmakes
    exact ⟨rfl, rfl, rfl, rfl, rfl, rfl⟩
  · contradiction

/-- A step that queues a callback or completes a cycle registers nothing. -/
theorem of_callback {verb : NamedVerb} (past : Past) (name : String)
    (hverb : verb = .after ∨ verb = .cycle) :
    registered (.named verb name :: past) = registered past ∧
      main? (.named verb name :: past) = main? past ∧
        names (.named verb name :: past) = names past ∧
          depth (.named verb name :: past) = depth past := by
  rcases hverb with rfl | rfl
  · exact ⟨List.append_nil _, rfl, List.append_nil _, rfl⟩
  · exact ⟨List.append_nil _, rfl, List.append_nil _, rfl⟩

/-! ## Pollers and their names -/

variable {policy : BroadcastPolicy} {past : Past} {step : Step} {name : String} {i : Nat}

theorem names_kept (later earlier : Past) : names earlier <+: names (later ++ earlier) := by
  induction later with
  | nil => exact List.prefix_refl _
  | cons step later ih => exact ih.trans (List.prefix_append _ _)

/-- A poller keeps its name. -/
theorem getElem?_names_cons (step : Step) (hname : (names past)[i]? = some name) :
    (names (step :: past))[i]? = some name := by
  have hi : i < (names past).length := (List.getElem?_eq_some_iff.mp hname).1
  rw [names, List.getElem?_append_left hi, hname]

theorem getElem?_names_made (hmakes : step.makes? = some name) :
    (names (step :: past))[(names past).length]? = some name := by
  simp [names, hmakes]

theorem main?_name (hmain : main? past = some (i, name)) : (names past)[i]? = some name := by
  induction past with
  | nil => contradiction
  | cons step past ih =>
      unfold main? at hmain
      split at hmain
      · contradiction
      · rename_i name' past' hpast
        obtain ⟨rfl, rfl⟩ := List.cons.inj hpast
        obtain ⟨rfl, rfl⟩ := Prod.mk.inj (Option.some.inj hmain)
        exact getElem?_names_made rfl
      · rename_i hpast
        obtain ⟨rfl, rfl⟩ := List.cons.inj hpast
        split at hmain
        · contradiction
        · exact getElem?_names_cons step (ih hmain)

theorem newest?_name (hnewest : newest? name past = some i) : (names past)[i]? = some name := by
  induction past with
  | nil => contradiction
  | cons step past ih =>
      rw [newest?] at hnewest
      split at hnewest
      · contradiction
      · split at hnewest
        · rename_i hmakes
          rw [← Option.some.inj hnewest]
          exact getElem?_names_made hmakes
        · exact getElem?_names_cons step (ih hnewest)

/-- A cycle is completed by the newest poller of the name, unless it is stopped. -/
theorem completes?_eq_some_iff :
    completes? policy past (.named .cycle name) = some i ↔
      newest? name past = some i ∧ told? policy i past ≠ some .stop := by
  simp [completes?, Option.filter_eq_some_iff]

/-- The main poller lets a callback wait exactly if it has the name of the fragment. -/
theorem queues?_eq_some_iff :
    queues? past (.named .after name) = some i ↔ main? past = some (i, name) := by
  constructor
  · intro hqueues
    obtain ⟨⟨j, name'⟩, hmain, hname⟩ := Option.bind_eq_some_iff.mp hqueues
    simp only [Option.ite_none_right_eq_some, Option.some.injEq] at hname
    rw [hmain, hname.1, hname.2]
  · intro hmain
    simp [queues?, hmain]

theorem cycle_of_completes? (hcompletes : completes? policy past step = some i) :
    ∃ name, step = .named .cycle name := by
  unfold completes? at hcompletes
  split at hcompletes
  · exact ⟨_, rfl⟩
  · contradiction

theorem after_of_queues? (hqueues : queues? past step = some i) :
    ∃ name, step = .named .after name := by
  unfold queues? at hqueues
  split at hqueues
  · exact ⟨_, rfl⟩
  · contradiction

/-- A step that completes a cycle queues nothing. -/
theorem queues?_of_completes? (hcompletes : completes? policy past step = some i) :
    queues? past step = none := by
  obtain ⟨name, rfl⟩ := cycle_of_completes? hcompletes
  rfl

/-- The main poller is registered. -/
theorem mem_registered_of_main? (hmain : main? past = some (i, name)) :
    .poller i ∈ registered past := by
  induction past with
  | nil => contradiction
  | cons step past ih =>
      unfold main? at hmain
      split at hmain
      · contradiction
      · rename_i name' past' hpast
        obtain ⟨rfl, rfl⟩ := List.cons.inj hpast
        obtain ⟨rfl, rfl⟩ := Prod.mk.inj (Option.some.inj hmain)
        simp [registered, Step.resets, Step.registers?]
      · rename_i hpast
        obtain ⟨rfl, rfl⟩ := List.cons.inj hpast
        split at hmain
        · contradiction
        · rename_i hresets
          rw [registered, if_neg hresets]
          exact List.mem_append_left _ (ih hmain)

/-! ## Pollers that are not there yet -/

theorem registers?_poller {count : Nat} (hregisters : step.registers? count = some (.poller i)) :
    i = count ∧ ∃ name, step.makes? = some name := by
  unfold Step.registers? at hregisters
  split at hregisters
  · rename_i name
    exact ⟨(Participant.poller.inj (Option.some.inj hregisters)).symm, name, rfl⟩
  · rename_i name
    exact ⟨(Participant.poller.inj (Option.some.inj hregisters)).symm, name, rfl⟩
  · simp at hregisters
  · contradiction

theorem lt_of_mem_registered (hmem : .poller i ∈ registered past) : i < (names past).length := by
  induction past with
  | nil => simp [registered] at hmem
  | cons step past ih =>
      have hlength := (names_kept [step] past).length_le
      rw [registered] at hmem
      split at hmem
      · contradiction
      · rcases List.mem_append.mp hmem with hold | hnew
        · exact Nat.lt_of_lt_of_le (ih hold) hlength
        · obtain ⟨rfl, name, hmakes⟩ := registers?_poller (Option.mem_toList.mp hnew)
          simp [names, hmakes]

theorem lt_of_mem_reached (hmem : .poller i ∈ reached policy past) : i < (names past).length := by
  cases policy with
  | isolate => exact lt_of_mem_registered hmem
  | abort => exact lt_of_mem_registered ((List.takeWhile_sublist _).subset hmem)

theorem lt_of_completes? (hcompletes : completes? policy past step = some i) :
    i < (names past).length := by
  obtain ⟨name, rfl⟩ := cycle_of_completes? hcompletes
  have hnewest := (completes?_eq_some_iff.mp hcompletes).1
  exact (List.getElem?_eq_some_iff.mp (newest?_name hnewest)).1

theorem lt_of_queues? (hqueues : queues? past step = some i) : i < (names past).length := by
  obtain ⟨name, rfl⟩ := after_of_queues? hqueues
  exact (List.getElem?_eq_some_iff.mp (main?_name (queues?_eq_some_iff.mp hqueues))).1

/-- Nothing has happened yet to a poller that is made only later. -/
theorem nothing_before (policy : BroadcastPolicy) (hi : (names past).length ≤ i) :
    told? policy i past = none ∧ completed policy i past = 0 ∧ waiting policy i past = [] := by
  induction past with
  | nil => exact ⟨rfl, rfl, rfl⟩
  | cons step past ih =>
      have hlength : (names past).length ≤ i :=
        Nat.le_trans (names_kept [step] past).length_le hi
      obtain ⟨htold, hcompleted, hwaiting⟩ := ih hlength
      have hreached : .poller i ∉ reached policy past :=
        fun hmem => Nat.not_lt.mpr hlength (lt_of_mem_reached hmem)
      have hcompletes : completes? policy past step ≠ some i :=
        fun h => Nat.not_lt.mpr hlength (lt_of_completes? h)
      have hqueues : queues? past step ≠ some i :=
        fun h => Nat.not_lt.mpr hlength (lt_of_queues? h)
      refine ⟨?_, ?_, ?_⟩
      · rw [told?, htold]
        split
        · exact if_neg hreached
        · rfl
      · rw [completed, if_neg hcompletes, hcompleted]
      · rw [waiting, if_neg hcompletes, if_neg hqueues, hwaiting]

/-- The callbacks that wait for a poller were queued in this order. -/
theorem waiting_lt (policy : BroadcastPolicy) (p : Nat) (past : Past) :
    (∀ i ∈ waiting policy p past, i < past.length) ∧
      (waiting policy p past).Pairwise (· < ·) := by
  induction past with
  | nil => simp [waiting]
  | cons step past ih =>
      obtain ⟨hlt, hsorted⟩ := ih
      rw [waiting, List.length_cons]
      split
      · simp
      · split
        · constructor
          · intro i hi
            rcases List.mem_append.mp hi with hold | hnew
            · exact Nat.lt_succ_of_lt (hlt i hold)
            · rw [List.mem_singleton.mp hnew]
              exact Nat.lt_succ_self _
          · rw [List.pairwise_append]
            refine ⟨hsorted, List.pairwise_singleton _ _, ?_⟩
            intro i hi later hlater
            rw [List.mem_singleton.mp hlater]
            exact hlt i hi
        · exact ⟨fun i hi => Nat.lt_succ_of_lt (hlt i hi), hsorted⟩

end Past

end PageRefresh.Script
