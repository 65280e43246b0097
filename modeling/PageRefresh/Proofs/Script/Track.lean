import PageRefresh.Proofs.Script.Broadcast

/-!
One poller and the steps that were taken.

The run state of a poller, its count of cycles and the callbacks that wait for it are as the steps
of the script have left them (`Tracks`).  A step does to a poller one of four things: nothing, tell
it to stop or to restart, let a callback wait, or complete a cycle.
-/

namespace PageRefresh.Script

/-- The poller with index `i` is as these steps have left it. -/
structure Tracks (policy : BroadcastPolicy) (past : Past) (i : Nat) (named : NamedPoller) :
    Prop where
  fragments : named.poller.fragments = [named.name]
  state : named.poller.state =
    if Past.told? policy i past = some .stop then .stopped else .running
  cycles : named.poller.cycles named.name = Past.completed policy i past
  queue : named.poller.queue named.name =
    List.replicate (Past.waiting policy i past).length named.name

namespace Tracks

variable {policy : BroadcastPolicy} {past : Past} {step : Step} {i : Nat} {named : NamedPoller}

/-- Steps that have nothing to do with the poller. -/
theorem same (htracks : Tracks policy past i named) (hbroadcast : Past.broadcast? past step = none)
    (hcompletes : Past.completes? policy past step ≠ some i)
    (hqueues : Past.queues? past step ≠ some i) : Tracks policy (step :: past) i named where
  fragments := htracks.fragments
  state := by
    rw [Past.told?, hbroadcast]
    exact htracks.state
  cycles := by
    rw [Past.completed, if_neg hcompletes]
    exact htracks.cycles
  queue := by
    rw [Past.waiting, if_neg hcompletes, if_neg hqueues]
    exact htracks.queue

/-- A poller that has just been made. -/
theorem start (hi : (Past.names past).length ≤ i) (name : String) (interval : Duration)
    (now : Instant) : Tracks policy past i ⟨name, .start [name] interval now⟩ := by
  obtain ⟨htold, hcompleted, hwaiting⟩ := Past.nothing_before policy hi
  refine ⟨rfl, ?_, ?_, ?_⟩
  · rw [htold]
    rfl
  · rw [hcompleted]
    rfl
  · rw [hwaiting]
    rfl

theorem told {kind : BroadcastKind} (htracks : Tracks policy past i named)
    (hbroadcast : Past.broadcast? past step = some kind)
    (hcompletes : Past.completes? policy past step ≠ some i)
    (hqueues : Past.queues? past step ≠ some i) (now : Instant) :
    Tracks policy (step :: past) i
      (if .poller i ∈ Past.reached policy past then named.told now kind else named) := by
  have hcompleted : Past.completed policy i (step :: past) = Past.completed policy i past := by
    rw [Past.completed, if_neg hcompletes]
  have hwaiting : Past.waiting policy i (step :: past) = Past.waiting policy i past := by
    rw [Past.waiting, if_neg hcompletes, if_neg hqueues]
  by_cases hreached : .poller i ∈ Past.reached policy past
  · rw [if_pos hreached]
    have hstate : (named.told now kind).poller.state =
        if Past.told? policy i (step :: past) = some .stop then .stopped else .running := by
      rw [Past.told?, hbroadcast]
      simp only [hreached, ↓reduceIte]
      cases kind <;> rfl
    have hsame : (named.told now kind).poller.fragments = named.poller.fragments ∧
        (named.told now kind).poller.cycles = named.poller.cycles ∧
          (named.told now kind).poller.queue = named.poller.queue := by
      cases kind <;> exact ⟨rfl, rfl, rfl⟩
    refine ⟨?_, hstate, ?_, ?_⟩
    · rw [hsame.1, NamedPoller.told_name]
      exact htracks.fragments
    · rw [hsame.2.1, NamedPoller.told_name, hcompleted]
      exact htracks.cycles
    · rw [hsame.2.2, NamedPoller.told_name, hwaiting]
      exact htracks.queue
  · rw [if_neg hreached]
    refine ⟨htracks.fragments, ?_, ?_, ?_⟩
    · rw [Past.told?, hbroadcast]
      simp only [hreached, ↓reduceIte]
      exact htracks.state
    · rw [hcompleted]
      exact htracks.cycles
    · rw [hwaiting]
      exact htracks.queue

/-- A callback waits for the next cycle of the poller. -/
theorem queued (htracks : Tracks policy past i named)
    (hqueues : Past.queues? past (.named .after named.name) = some i) :
    Tracks policy (.named .after named.name :: past) i
      { named with poller := named.poller.enqueue named.name named.name } where
  fragments := htracks.fragments
  state := htracks.state
  cycles := htracks.cycles
  queue := by
    rw [Past.waiting, if_neg (by simp [Past.completes?]), if_pos hqueues, List.length_append,
      List.length_singleton, List.replicate_succ', ← htracks.queue]
    simp [Poller.enqueue]

/-- A poller of one fragment completes a cycle of it unless it is stopped. -/
theorem complete_eq (htracks : Tracks policy past i named) (now : Instant) :
    named.poller.complete named.name now =
      if Past.told? policy i past = some .stop then .error (.notRunning named.name)
      else .ok ({ named.poller with
          deadline := now.after? named.poller.interval
          cycles := fun f =>
            if f = named.name then Past.completed policy i past + 1 else named.poller.cycles f
          queue := fun f => if f = named.name then [] else named.poller.queue f },
        ⟨Past.completed policy i past + 1,
          List.replicate (Past.waiting policy i past).length named.name⟩) := by
  have howns : named.poller.owns named.name = true := by
    simp [Poller.owns, htracks.fragments]
  simp only [Poller.complete, howns, Poller.isRunning, htracks.state, htracks.cycles,
    htracks.queue, ↓reduceIte]
  split <;> rfl

theorem completed {p : Poller String} {batch : Poller.Batch String} {now : Instant}
    (htracks : Tracks policy past i named)
    (hcompletes : Past.completes? policy past (.named .cycle named.name) = some i)
    (hcomplete : named.poller.complete named.name now = .ok (p, batch)) :
    Tracks policy (.named .cycle named.name :: past) i { named with poller := p } := by
  have hruns := (Past.completes?_eq_some_iff.mp hcompletes).2
  rw [htracks.complete_eq, if_neg hruns] at hcomplete
  obtain ⟨rfl, -⟩ := Prod.mk.inj (Except.ok.inj hcomplete)
  refine ⟨htracks.fragments, htracks.state, ?_, ?_⟩
  · rw [Past.completed, if_pos hcompletes]
    simp
  · rw [Past.waiting, if_pos hcompletes]
    simp

end Tracks

end PageRefresh.Script
