import Mathlib.Data.List.TakeWhile
import PageRefresh.Proofs.Script.Chronicle

/-!
The two ways to meet a failure, side by side.

While no broadcast finds a faulty refresher in the registry (`Past.Calm`), nothing tells a run that
isolates failures from one that aborts at them: the pollers are told the same, so the same cycles
are completed and the same callbacks wait.  The first step that does find one (`RiskyAt`) tells them
apart, and how is decided by the roll at that step.
-/

namespace PageRefresh.Script

namespace Past

/-- The step makes a broadcast while somebody faulty is on the roll. -/
def risky (past : Past) (step : Step) : Bool :=
  (past.broadcast? step).isSome && past.roll.any Member.faulty

/-- No step so far was risky. -/
def Calm : Past → Prop
  | [] => True
  | step :: past => risky past step = false ∧ Calm past

/-- The pollers are in the same state under both policies. -/
structure PoliciesAgree (past : Past) : Prop where
  told : ∀ i, told? .isolate i past = told? .abort i past
  completed : ∀ i, completed .isolate i past = completed .abort i past
  waiting : ∀ i, waiting .isolate i past = waiting .abort i past

variable {past : Past} {step : Step}

theorem sound_of_broadcast? {kind : BroadcastKind} (hsafe : past.risky step = false)
    (hbroadcast : past.broadcast? step = some kind) : past.roll.any Member.faulty = false := by
  simpa [risky, hbroadcast] using hsafe

/-- Without a faulty refresher everybody is reached. -/
theorem reached_of_sound (policy : BroadcastPolicy) (hsound : past.roll.any Member.faulty = false) :
    past.reached policy = past.registered := by
  rw [← past.registered_any_faulty] at hsound
  cases policy with
  | isolate => rfl
  | abort =>
      rw [reached, reachedOf, List.takeWhile_eq_self_iff]
      simpa using hsound

namespace PoliciesAgree

theorem completes? (hagree : PoliciesAgree past) (step : Step) :
    past.completes? .isolate step = past.completes? .abort step := by
  cases step with
  | bare verb => rfl
  | named verb name =>
      cases verb with
      | cycle => simp only [Past.completes?, hagree.told]
      | _ => rfl

/-- A step that is not risky keeps the pollers in the same state. -/
theorem next (hagree : PoliciesAgree past) (hsafe : past.risky step = false) :
    PoliciesAgree (step :: past) where
  told i := by
    rw [told?, told?, hagree.told]
    cases hbroadcast : past.broadcast? step with
    | none => rfl
    | some kind =>
        have hsound := sound_of_broadcast? hsafe hbroadcast
        simp only [reached_of_sound _ hsound]
  completed i := by
    rw [Past.completed, Past.completed, hagree.completes?, hagree.completed]
  waiting i := by
    rw [Past.waiting, Past.waiting, hagree.completes?, hagree.waiting]

theorem fault? (hagree : PoliciesAgree past) (hsafe : past.risky step = false) :
    past.fault? .isolate step = past.fault? .abort step := by
  have haborts : past.aborts? .isolate step = past.aborts? .abort step := by
    rw [aborts?, aborts?]
    cases hbroadcast : past.broadcast? step with
    | none => rfl
    | some kind =>
        have hsound := sound_of_broadcast? hsafe hbroadcast
        simp only [Option.bind_some, abortOf_eq_none_iff.mpr (.inr hsound)]
  cases step with
  | named verb name =>
      cases verb with
      | cycle => simp only [Past.fault?, hagree.told]
      | _ => exact haborts
  | bare verb =>
      cases verb with
      | modalClose => simp only [Past.fault?, haborts]
      | _ => exact haborts

/-- A step that is not risky writes the same under both policies. -/
theorem entries (hagree : PoliciesAgree past) (interval : Duration)
    (hsafe : past.risky step = false) :
    past.entries .isolate interval step = past.entries .abort interval step := by
  have hcalls :
      past.callEntries .isolate interval step = past.callEntries .abort interval step := by
    rw [callEntries, callEntries]
    cases hbroadcast : past.broadcast? step with
    | none => rfl
    | some kind =>
        have hsound := sound_of_broadcast? hsafe hbroadcast
        simp only [calledOf_of_sound hsound]
  have hwrites : past.writes .isolate interval step = past.writes .abort interval step := by
    cases step with
    | named verb name =>
        cases verb with
        | cycle => simp only [writes, hagree.completes?, hagree.waiting, hagree.completed]
        | _ => rfl
    | bare verb =>
        by_cases hverb : verb = .clear
        · rw [hverb]
          rfl
        · rw [writes_bare _ _ _ hverb, writes_bare _ _ _ hverb, hcalls, hagree.fault? hsafe]
  rw [Past.entries, Past.entries, hwrites, hagree.fault? hsafe]

end PoliciesAgree

theorem Calm.agree (hcalm : Calm past) : PoliciesAgree past := by
  induction past with
  | nil => exact ⟨fun _ => rfl, fun _ => rfl, fun _ => rfl⟩
  | cons step past ih => exact (ih hcalm.2).next hcalm.1

theorem Calm.chronicle (hcalm : Calm past) (interval : Duration) :
    past.chronicle .isolate interval = past.chronicle .abort interval := by
  induction past with
  | nil => rfl
  | cons step past ih =>
      rw [Past.chronicle, Past.chronicle, ih hcalm.2, hcalm.2.agree.entries interval hcalm.1]

/-- Whoever is faulty on the roll was put there by a `fail` step. -/
theorem fail_of_faulty (hfaulty : past.roll.any Member.faulty = true) :
    ∃ name, .named .fail name ∈ past := by
  obtain ⟨m, hm, hmfaulty⟩ := List.any_eq_true.mp hfaulty
  obtain ⟨step, hstep, henrols⟩ := List.mem_filterMap.mp hm
  have hpast : step ∈ past :=
    (List.takeWhile_sublist _).subset (List.mem_reverse.mp hstep)
  unfold Step.enrols? at henrols
  split at henrols
  · rw [← Option.some.inj henrols] at hmfaulty
    contradiction
  · rw [← Option.some.inj henrols] at hmfaulty
    contradiction
  · exact ⟨_, hpast⟩
  · contradiction

end Past

/-! ## Risky steps of a script -/

/-- The step with this position makes a broadcast while a faulty refresher is registered. -/
def RiskyAt (policy : BroadcastPolicy) (interval : Duration) (now : Instant) (script : List Step)
    (i : Nat) : Prop :=
  let shell := (simulate policy interval now (script.take i)).shell
  ∃ step, script[i]? = some step ∧ (step.calls? shell).isSome ∧
    ∃ name, .faulty name ∈ shell.registry.entries

variable {policy : BroadcastPolicy} {interval : Duration} {now : Instant} {script : List Step}
  {i : Nat}

/-- Which steps are risky, no policy has a part in. -/
theorem riskyAt_iff :
    RiskyAt policy interval now script i ↔ (script[i]?).any (pastAt script i).risky = true := by
  have hmirrors := mirrors_at policy interval now script i
  have hfaulty : (∃ name, .faulty name ∈ (pastAt script i).registered) ↔
      (pastAt script i).roll.any Member.faulty = true := by
    rw [← Past.registered_any_faulty, List.any_eq_true]
    constructor
    · rintro ⟨name, hmem⟩
      exact ⟨_, hmem, rfl⟩
    · rintro ⟨x, hmem, hx⟩
      cases x with
      | faulty name => exact ⟨name, hmem⟩
      | poller j => contradiction
  rw [RiskyAt, Option.any_eq_true]
  simp only [hmirrors.calls?, hmirrors.entries, hfaulty, Past.risky, Bool.and_eq_true]

instance RiskyAt.decidable : Decidable (RiskyAt policy interval now script i) :=
  decidable_of_iff _ riskyAt_iff.symm

theorem calm_pastAt (hsafe : ∀ j < i, ¬ RiskyAt policy interval now script j) :
    (pastAt script i).Calm := by
  induction i with
  | zero => exact trivial
  | succ i ih =>
      have hcalm := ih fun j hj => hsafe j (Nat.lt_succ_of_lt hj)
      cases hstep : script[i]? with
      | none => simpa [pastAt, List.take_add_one, hstep] using hcalm
      | some step =>
          rw [pastAt_succ hstep]
          have hnow := hsafe i (Nat.lt_succ_self i)
          rw [riskyAt_iff, hstep, Option.any_some] at hnow
          exact ⟨eq_false_of_ne_true hnow, hcalm⟩

/-- The run that isolates failures and the run that aborts at them part with this step: the former
calls everybody and sums up, the latter calls nobody after the first failure and records it. -/
structure PartAt (interval : Duration) (now now' : Instant) (script : List Step) (i : Nat) :
    Prop where
  earlier : ∀ j < i, entriesOf (simulate .isolate interval now script).trace j =
    entriesOf (simulate .abort interval now' script).trace j
  calls : ∃ before failed after,
    callsOf (entriesOf (simulate .isolate interval now script).trace i) =
        before ++ failed :: after ∧
      callsOf (entriesOf (simulate .abort interval now' script).trace i) = before ++ [failed] ∧
        failed.detail = "failed" ∧ ∀ e ∈ before, e.detail ≠ "failed"
  sums : ∃ e ∈ entriesOf (simulate .isolate interval now script).trace i, e.action = "broadcast"
  carries : ∀ e ∈ entriesOf (simulate .isolate interval now script).trace i, e.action ≠ "error"
  aborts : ∃ step kind source, script[i]? = some step ∧
    let s := simulate .abort interval now' (script.take i)
    let position := s.shell.registry.entries.findIdx Participant.isFaulty
    let e : ShellError := .refresh (.broadcastAborted kind position source)
    (s.atNext.apply step).1 = .error e ∧
      (entriesOf (simulate .abort interval now' script).trace i).getLast? =
        some (errorEntry (i + 1) e)
  unsummed : ∀ e ∈ entriesOf (simulate .abort interval now' script).trace i,
    e.action ≠ "broadcast"

theorem entriesOf_agree (now now' : Instant) (hcalm : (pastAt script i).Calm)
    (hsafe : ¬ RiskyAt policy interval now script i) :
    entriesOf (simulate .isolate interval now script).trace i =
      entriesOf (simulate .abort interval now' script).trace i := by
  cases hstep : script[i]? with
  | none =>
      have hi : script.length ≤ i := List.getElem?_eq_none_iff.mp hstep
      rw [entriesOf_eq_nil hi, entriesOf_eq_nil hi]
  | some step =>
      rw [riskyAt_iff, hstep, Option.any_some] at hsafe
      rw [entriesOf_chronicle .isolate interval now hstep,
        entriesOf_chronicle .abort interval now' hstep]
      exact hcalm.agree.entries interval (eq_false_of_ne_true hsafe)

/-- The first risky step parts the runs. -/
theorem partAt_of_riskyAt (now' : Instant) (hrisky : RiskyAt policy interval now script i)
    (hsafe : ∀ j < i, ¬ RiskyAt policy interval now script j) :
    PartAt interval now now' script i := by
  obtain ⟨step, hstep, hnow⟩ := (Option.any_eq_true _ _).mp (riskyAt_iff.mp hrisky)
  have hi := pastAt_length (le_length hstep)
  obtain ⟨hbroadcasts, hfaulty⟩ := (Bool.and_eq_true _ _).mp hnow
  obtain ⟨kind, hbroadcast⟩ := Option.isSome_iff_exists.mp hbroadcasts
  obtain ⟨before, failed, after, hroll, hfailed, hsound, hlength, hcalled, haborts⟩ :=
    roll_cut hfaulty
  -- Both runs come to this step with the same roll, and only the policy tells them apart.
  have hisolating := entriesOf_chronicle .isolate interval now hstep
  have haborting := entriesOf_chronicle .abort interval now' hstep
  have hcarried : abortOf .isolate kind 0 (pastAt script i).roll = none := rfl
  have hsummed := Past.entries_of_broadcast? .isolate interval hbroadcast
  have hended := Past.entries_of_broadcast? .abort interval hbroadcast
  rw [hcarried] at hsummed
  rw [haborts kind, hlength, hi] at hended
  constructor
  case earlier =>
    intro j hj
    exact entriesOf_agree now now' (calm_pastAt fun k hk => hsafe k (Nat.lt_trans hk hj))
      (hsafe j hj)
  case calls =>
    refine ⟨before.map (Member.entry interval (i + 1) kind),
      failed.entry interval (i + 1) kind, after.map (Member.entry interval (i + 1) kind), ?_, ?_,
      (Member.entry_detail_eq_failed_iff _ _ _ _).mpr hfailed, ?_⟩
    · rw [hisolating, Past.callsOf_entries, Past.callEntries, hbroadcast]
      simp only [calledOf, hi, hroll, List.map_append, List.map_cons]
    · rw [haborting, Past.callsOf_entries, Past.callEntries, hbroadcast]
      simp only [hi, hcalled, List.map_append, List.map_singleton]
    · intro e he
      obtain ⟨m, hm, rfl⟩ := List.mem_map.mp he
      rw [ne_eq, Member.entry_detail_eq_failed_iff, hsound m hm]
      exact Bool.false_ne_true
  case sums =>
    refine ⟨summaryEntry (i + 1) kind (pastAt script i).roll, ?_, rfl⟩
    rw [hisolating, hsummed, hi]
    simp
  case carries =>
    have hfault := Past.fault?_of_broadcast? .isolate hbroadcast
    rw [hcarried, Option.map_none] at hfault
    intro e he
    rw [hisolating, Past.entries, hfault, Option.map_none, Option.toList_none,
      List.append_nil] at he
    exact Past.writes_action_ne_error he
  case aborts =>
    have hentries := (mirrors_at .abort interval now' script i).entries
    have hfault := Past.fault?_of_broadcast? .abort hbroadcast
    have hends := (chronicled_at .abort interval now' script i step).ends
    rw [haborts kind, hlength, Option.map_some] at hfault
    rw [hfault] at hends
    refine ⟨step, kind, failed.fault kind, hstep, ?_⟩
    simp only [hentries, Past.registered_findIdx_faulty]
    refine ⟨hends, ?_⟩
    rw [haborting, hended]
    simp
  case unsummed =>
    intro e he
    rw [haborting, hended] at he
    rcases List.mem_append.mp he with hcall | herror
    · obtain ⟨m, -, rfl⟩ := List.mem_map.mp hcall
      cases kind <;> simp [Member.entry, BroadcastKind.name]
    · rw [List.mem_singleton.mp herror]
      simp [errorEntry]

/-- While no broadcast meets a faulty refresher, it does not show what the policy is; and the first
one that does shows it. -/
theorem policies_part_at_first_failure (policy : BroadcastPolicy) (interval : Duration)
    (now now' : Instant) (script : List Step) :
    ((∀ i, ¬ RiskyAt policy interval now script i) →
      let isolating := (simulate .isolate interval now script).outcome script.length
      let aborting := (simulate .abort interval now' script).outcome script.length
      aborting.policy = .abort ∧ isolating = { aborting with policy := .isolate }) ∧
    ((∀ name, .named .fail name ∉ script) → ∀ i, ¬ RiskyAt policy interval now script i) ∧
    ∀ i, RiskyAt policy interval now script i →
      (∀ j < i, ¬ RiskyAt policy interval now script j) → PartAt interval now now' script i := by
  refine ⟨?_, ?_, fun i hrisky hsafe => partAt_of_riskyAt now' hrisky hsafe⟩
  · intro hsafe isolating aborting
    have hcalm : Past.Calm script.reverse := by
      have hall := calm_pastAt (i := script.length) fun j _ => hsafe j
      rwa [pastAt, List.take_length] at hall
    have hisolating : isolating = _ := simulate_outcome .isolate interval now script script.length
    have haborting : aborting = _ := simulate_outcome .abort interval now' script script.length
    rw [hisolating, haborting, hcalm.chronicle interval]
    exact ⟨rfl, rfl⟩
  · intro hnone i hrisky
    obtain ⟨step, hstep, hnow⟩ := (Option.any_eq_true _ _).mp (riskyAt_iff.mp hrisky)
    rw [Past.risky, Bool.and_eq_true] at hnow
    obtain ⟨name, hmem⟩ := Past.fail_of_faulty hnow.2
    exact hnone name (List.mem_of_mem_take (List.mem_reverse.mp hmem))

/-- A faulty refresher between two pollers, and a modal over all of them. -/
def faultyBetween : List Step :=
  [.named .add "f", .named .fail "x", .named .main "g", .bare .modalOpen, .named .cycle "g"]

/-- A faulty refresher that is gone before anybody is called. -/
def faultyCleared : List Step :=
  [.named .fail "x", .bare .clear, .named .add "f", .bare .disable]

theorem policies_part_faultyBetween :
    PartAt (.ofSecs 10) ⟨0⟩ ⟨7⟩ faultyBetween 3 ∧
      (simulate .isolate (.ofSecs 10) ⟨0⟩ faultyCleared).outcome 4 =
        { (simulate .abort (.ofSecs 10) ⟨7⟩ faultyCleared).outcome 4 with policy := .isolate } := by
  have hsafe : ∀ i, ¬ RiskyAt .isolate (.ofSecs 10) ⟨0⟩ faultyCleared i
    | 0 | 1 | 2 | 3 => by decide
    | i + 4 => by simp [RiskyAt, faultyCleared]
  obtain ⟨-, -, hparts⟩ :=
    policies_part_at_first_failure .isolate (.ofSecs 10) ⟨0⟩ ⟨7⟩ faultyBetween
  obtain ⟨hagree, -, -⟩ :=
    policies_part_at_first_failure .isolate (.ofSecs 10) ⟨0⟩ ⟨7⟩ faultyCleared
  exact ⟨hparts 3 (by decide) (by decide), (hagree hsafe).2⟩

end PageRefresh.Script
