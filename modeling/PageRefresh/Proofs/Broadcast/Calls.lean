import PageRefresh.Broadcast.Report
import PageRefresh.Registry
import Mathlib.Data.List.Basic

/-!
The calls that a broadcast makes.

Refreshers may share any state, so whether a call fails is known only when it is made.  A broadcast
runs over any state, also over one in which every call leaves a note (`Calls.recording`): the notes
say whom it called, with what outcome, and under which name a failure is reported.  What a broadcast
returns is then compared with the notes, one call after the other.
-/

namespace PageRefresh

/-- A note of one call of a broadcast. -/
structure Called (ρ : Type) where
  kind : BroadcastKind
  refresher : ρ
  /-- The name reports give to the refresher after the call. -/
  fragment : Option String
  outcome : Except RefreshError Unit

namespace Called

variable {ρ : Type}

/-- The failure that a call comes to in a broadcast that goes on after it. -/
def failure? (call : Called ρ) (index : Nat) : Option Failure :=
  match call.outcome with
  | .ok () => none
  | .error e => some ⟨index, call.fragment, e⟩

/-- The failures among calls, when the first of them has position `index`. -/
def failures (calls : List (Called ρ)) (index : Nat) : List Failure :=
  (calls.zipIdx index).filterMap fun e => e.1.failure? e.2

theorem failures_cons (call : Called ρ) (calls : List (Called ρ)) (index : Nat) :
    failures (call :: calls) index =
      (call.failure? index).toList ++ failures calls (index + 1) := by
  cases hfailure : call.failure? index <;> simp [failures, hfailure]

theorem failures_index_lt (calls : List (Called ρ)) (index : Nat) :
    ((failures calls index).map Failure.index).Pairwise (· < ·) := by
  have hsublist : ((failures calls index).map Failure.index).Sublist
      ((calls.zipIdx index).map Prod.snd) := by
    induction calls generalizing index with
    | nil => exact List.Sublist.refl _
    | cons call calls ih =>
        cases houtcome : call.outcome with
        | ok value =>
            simpa [failures_cons, failure?, houtcome] using (ih (index + 1)).cons index
        | error e => simpa [failures_cons, failure?, houtcome] using ih (index + 1)
  refine List.Pairwise.sublist hsublist ?_
  rw [List.zipIdx_map_snd]
  exact List.pairwise_lt_range'

theorem mem_failures_iff {calls : List (Called ρ)} {f : Failure} :
    f ∈ failures calls 0 ↔
      ∃ call, calls[f.index]? = some call ∧ call.fragment = f.fragment ∧
        call.outcome = .error f.error := by
  simp only [failures, List.mem_filterMap, Prod.exists, List.mem_zipIdx_iff_getElem?]
  constructor
  · rintro ⟨call, index, hcall, hfailure⟩
    cases houtcome : call.outcome with
    | ok value => simp [failure?, houtcome] at hfailure
    | error e =>
        simp only [failure?, houtcome, Option.some.injEq] at hfailure
        subst hfailure
        exact ⟨call, hcall, rfl, houtcome⟩
  · rintro ⟨call, hcall, hfragment, houtcome⟩
    exact ⟨call, f.index, hcall, by simp [failure?, houtcome, hfragment]⟩

/-- Every call failed or succeeded. -/
theorem length_failures_add (calls : List (Called ρ)) (index : Nat) :
    (failures calls index).length + calls.countP (fun call => call.outcome.isOk) =
      calls.length := by
  induction calls generalizing index with
  | nil => rfl
  | cons call calls ih =>
      have hrest := ih (index + 1)
      rw [failures_cons, List.length_append, List.countP_cons, List.length_cons, ← hrest, failure?]
      cases houtcome : call.outcome with
      | ok value =>
          simp only [Option.toList_none, List.length_nil, Except.isOk, Except.toBool, ↓reduceIte]
          omega
      | error e =>
          simp only [Option.toList_some, List.length_singleton, Except.isOk, Except.toBool,
            Bool.false_eq_true, ↓reduceIte]
          omega

theorem failures_eq_nil {calls : List (Called ρ)} (index : Nat)
    (hok : ∀ call ∈ calls, call.outcome = .ok ()) : failures calls index = [] := by
  rw [failures, List.filterMap_eq_nil_iff]
  rintro ⟨call, k⟩ hmem
  rw [failure?, hok call (List.fst_mem_of_mem_zipIdx hmem)]

/-- A report of all failures among the calls counts their successes as well. -/
theorem succeeded_eq (calls : List (Called ρ)) (kind : BroadcastKind) :
    let r : Report := ⟨kind, calls.length, failures calls 0⟩
    r.failures.length ≤ r.invoked ∧
      r.succeeded = calls.countP fun call => call.outcome.isOk := by
  have hlength := length_failures_add calls 0
  simp only [Report.succeeded]
  omega

end Called

namespace Calls

variable {ρ σ : Type} (c : Calls ρ σ)

/-- The note of a call that is made in the state `s`. -/
def noteOf (kind : BroadcastKind) (x : ρ) (s : σ) : Called ρ where
  kind := kind
  refresher := x
  fragment := c.fragment x (c.call kind x s).2
  outcome := (c.call kind x s).1

/-- The same refreshers, where every call leaves a note behind those that are there. -/
def recording : Calls ρ (σ × List (Called ρ)) where
  call kind x s := ((c.call kind x s.1).1, ((c.call kind x s.1).2, s.2 ++ [c.noteOf kind x s.1]))
  fragment x s := c.fragment x s.1
  log e s := (c.log e s.1, s.2)

variable {c} {policy : BroadcastPolicy} {r : Report} {x : ρ} {xs : List ρ} {s : σ}
  {calls : List (Called ρ)} {e : RefreshError}

/-! ## One call -/

theorem broadcastRest_ok (hok : (c.call r.kind x s).1 = .ok ()) :
    c.broadcastRest policy r (x :: xs) s =
      c.broadcastRest policy { r with invoked := r.invoked + 1 } xs (c.call r.kind x s).2 := by
  simp [broadcastRest, hok, Report.settle, Report.settleEvents, logAll]

theorem broadcastRest_isolate (herror : (c.call r.kind x s).1 = .error e) :
    c.broadcastRest .isolate r (x :: xs) s =
      c.broadcastRest .isolate
        { r with
          invoked := r.invoked + 1
          failures := r.failures ++ [⟨r.invoked, (c.noteOf r.kind x s).fragment, e⟩] } xs
        (c.log (.refresherFailed r.kind r.invoked (c.noteOf r.kind x s).fragment e)
          (c.call r.kind x s).2) := by
  simp [broadcastRest, herror, Report.settle, Report.settleEvents, logAll, noteOf]

theorem broadcastRest_abort (herror : (c.call r.kind x s).1 = .error e) :
    c.broadcastRest .abort r (x :: xs) s =
      (.error (.broadcastAborted r.kind r.invoked e),
        c.log (.broadcastAborted r.kind r.invoked (c.noteOf r.kind x s).fragment e)
          (c.call r.kind x s).2) := by
  simp [broadcastRest, herror, Report.settle, Report.settleEvents, logAll, noteOf]

theorem recording_nil :
    c.recording.broadcastRest policy r [] (s, calls) =
      (.ok r, (c.log r.completedEvent s, calls)) := rfl

theorem recording_cons_ok (hok : (c.call r.kind x s).1 = .ok ()) :
    c.recording.broadcastRest policy r (x :: xs) (s, calls) =
      c.recording.broadcastRest policy { r with invoked := r.invoked + 1 } xs
        ((c.call r.kind x s).2, calls ++ [c.noteOf r.kind x s]) :=
  broadcastRest_ok hok

theorem recording_cons_isolate (herror : (c.call r.kind x s).1 = .error e) :
    c.recording.broadcastRest .isolate r (x :: xs) (s, calls) =
      c.recording.broadcastRest .isolate
        { r with
          invoked := r.invoked + 1
          failures := r.failures ++ [⟨r.invoked, (c.noteOf r.kind x s).fragment, e⟩] } xs
        (c.log (.refresherFailed r.kind r.invoked (c.noteOf r.kind x s).fragment e)
            (c.call r.kind x s).2,
          calls ++ [c.noteOf r.kind x s]) :=
  broadcastRest_isolate herror

theorem recording_cons_abort (herror : (c.call r.kind x s).1 = .error e) :
    c.recording.broadcastRest .abort r (x :: xs) (s, calls) =
      (.error (.broadcastAborted r.kind r.invoked e),
        (c.log (.broadcastAborted r.kind r.invoked (c.noteOf r.kind x s).fragment e)
            (c.call r.kind x s).2,
          calls ++ [c.noteOf r.kind x s])) :=
  broadcastRest_abort herror

/-- The notes are taken of the broadcast as it is: it answers and does the same without them. -/
theorem recording_broadcastRest (c : Calls ρ σ) (policy : BroadcastPolicy) (r : Report)
    (xs : List ρ) (s : σ) (calls : List (Called ρ)) :
    ((c.recording.broadcastRest policy r xs (s, calls)).1,
        (c.recording.broadcastRest policy r xs (s, calls)).2.1) =
      c.broadcastRest policy r xs s := by
  induction xs generalizing r s calls with
  | nil => rfl
  | cons x xs ih =>
      cases houtcome : (c.call r.kind x s).1 with
      | ok value => rw [recording_cons_ok houtcome, ih, broadcastRest_ok houtcome]
      | error e =>
          cases policy with
          | isolate => rw [recording_cons_isolate houtcome, ih, broadcastRest_isolate houtcome]
          | abort => rw [recording_cons_abort houtcome, broadcastRest_abort houtcome]

/-! ## All calls -/

theorem isolate_run (c : Calls ρ σ) (r : Report) (xs : List ρ) (s : σ)
    (calls : List (Called ρ)) :
    ∃ made t, c.recording.broadcastRest .isolate r xs (s, calls) =
        (.ok ⟨r.kind, r.invoked + xs.length, r.failures ++ Called.failures made r.invoked⟩,
          (t, calls ++ made)) ∧
      made.map Called.refresher = xs ∧ ∀ call ∈ made, call.kind = r.kind := by
  induction xs generalizing r s calls with
  | nil =>
      exact ⟨[], c.log r.completedEvent s, by simp [recording_nil, Called.failures], rfl, by simp⟩
  | cons x xs ih =>
      cases houtcome : (c.call r.kind x s).1 with
      | ok value =>
          obtain ⟨made, t, hrest, hentries, hkinds⟩ :=
            ih { r with invoked := r.invoked + 1 } (c.call r.kind x s).2
              (calls ++ [c.noteOf r.kind x s])
          refine ⟨c.noteOf r.kind x s :: made, t, ?_, ?_, ?_⟩
          · rw [recording_cons_ok houtcome, hrest]
            simp [Called.failures_cons, Called.failure?, noteOf, houtcome, Nat.add_assoc,
              Nat.add_comm 1]
          · rw [List.map_cons, hentries]
            rfl
          · simpa [noteOf] using hkinds
      | error e =>
          obtain ⟨made, t, hrest, hentries, hkinds⟩ :=
            ih { r with
                invoked := r.invoked + 1
                failures := r.failures ++ [⟨r.invoked, (c.noteOf r.kind x s).fragment, e⟩] }
              (c.log (.refresherFailed r.kind r.invoked (c.noteOf r.kind x s).fragment e)
                (c.call r.kind x s).2)
              (calls ++ [c.noteOf r.kind x s])
          refine ⟨c.noteOf r.kind x s :: made, t, ?_, ?_, ?_⟩
          · rw [recording_cons_isolate houtcome, hrest]
            simp [Called.failures_cons, Called.failure?, noteOf, houtcome, Nat.add_assoc,
              Nat.add_comm 1]
          · rw [List.map_cons, hentries]
            rfl
          · simpa [noteOf] using hkinds

theorem abort_run (c : Calls ρ σ) (r : Report) (xs : List ρ) (s : σ) (calls : List (Called ρ)) :
    ∃ made t result,
      c.recording.broadcastRest .abort r xs (s, calls) = (result, (t, calls ++ made)) ∧
      (∀ call ∈ made, call.kind = r.kind) ∧
      ((∀ call ∈ made, call.outcome = .ok ()) ∧ made.map Called.refresher = xs ∧
          result = .ok { r with invoked := r.invoked + xs.length } ∨
        ∃ before last e, made = before ++ [last] ∧ (∀ call ∈ before, call.outcome = .ok ()) ∧
          last.outcome = .error e ∧ made.map Called.refresher = xs.take (before.length + 1) ∧
          result = .error (.broadcastAborted r.kind (r.invoked + before.length) e)) := by
  induction xs generalizing r s calls with
  | nil =>
      refine ⟨[], c.log r.completedEvent s, .ok r, ?_, by simp, Or.inl ⟨by simp, rfl, rfl⟩⟩
      simp [recording_nil]
  | cons x xs ih =>
      cases houtcome : (c.call r.kind x s).1 with
      | error e =>
          refine ⟨[c.noteOf r.kind x s], _, _, recording_cons_abort houtcome, ?_, Or.inr ?_⟩
          · simp [noteOf]
          · exact ⟨[], c.noteOf r.kind x s, e, rfl, by simp, houtcome, by simp [noteOf], rfl⟩
      | ok value =>
          obtain ⟨made, t, result, hrest, hkinds, hends⟩ :=
            ih { r with invoked := r.invoked + 1 } (c.call r.kind x s).2
              (calls ++ [c.noteOf r.kind x s])
          refine ⟨c.noteOf r.kind x s :: made, t, result, ?_, ?_, ?_⟩
          · rw [recording_cons_ok houtcome, hrest]
            simp
          · simpa [noteOf] using hkinds
          · rcases hends with ⟨hok, hentries, hresult⟩ |
              ⟨before, last, e, hmade, hok, hlast, hentries, hresult⟩
            · refine Or.inl ⟨?_, ?_, ?_⟩
              · simpa [noteOf, houtcome] using hok
              · rw [List.map_cons, hentries]
                rfl
              · rw [hresult]
                simp [Nat.add_assoc, Nat.add_comm 1]
            · refine Or.inr ⟨c.noteOf r.kind x s :: before, last, e, ?_, ?_, hlast, ?_, ?_⟩
              · rw [hmade, List.cons_append]
              · simpa [noteOf, houtcome] using hok
              · rw [List.map_cons, hentries, List.length_cons, List.take_succ_cons]
                rfl
              · rw [hresult]
                simp [Nat.add_assoc, Nat.add_comm 1]

/-! ## What is left alone, and what is not seen -/

/-- A part of the state that no call changes and no logging stays as it is. -/
theorem broadcastRest_part {τ : Type} {part : σ → τ}
    (hcall : ∀ kind x s, part (c.call kind x s).2 = part s)
    (hlog : ∀ e s, part (c.log e s) = part s) (policy : BroadcastPolicy) (r : Report)
    (xs : List ρ) (s : σ) : part (c.broadcastRest policy r xs s).2 = part s := by
  induction xs generalizing r s with
  | nil => exact hlog _ _
  | cons x xs ih =>
      have hlogAll : ∀ es t, part (c.logAll es t) = part t := by
        intro es
        induction es with
        | nil => exact fun t => rfl
        | cons e es ihes => exact fun t => (ihes _).trans (hlog e t)
      simp only [broadcastRest]
      split
      · rw [ih, hlogAll, hcall]
      · rw [hlogAll, hcall]

/-- The refreshers do not see more of the state than `view`, and logging does not change it. -/
structure SeesOnly {τ : Type} (c : Calls ρ σ) (view : σ → τ) : Prop where
  call : ∀ kind x s t, view s = view t →
    (c.call kind x s).1 = (c.call kind x t).1 ∧
      view (c.call kind x s).2 = view (c.call kind x t).2
  fragment : ∀ x s t, view s = view t → c.fragment x s = c.fragment x t
  log : ∀ e s, view (c.log e s) = view s

theorem SeesOnly.noteOf {τ : Type} {view : σ → τ} (hsees : c.SeesOnly view)
    (kind : BroadcastKind) (x : ρ) {s t : σ} (hview : view s = view t) :
    c.noteOf kind x s = c.noteOf kind x t := by
  obtain ⟨houtcome, hafter⟩ := hsees.call kind x s t hview
  simp only [Calls.noteOf, houtcome, hsees.fragment x _ _ hafter]

/-- Up to the first failure both policies make the same calls. -/
theorem SeesOnly.abort_prefix {τ : Type} {view : σ → τ} (hsees : c.SeesOnly view) (r : Report)
    (xs : List ρ) {s t : σ} (hview : view s = view t) (calls : List (Called ρ)) :
    let aborting := c.recording.broadcastRest .abort r xs (s, calls)
    let isolating := c.recording.broadcastRest .isolate r xs (t, calls)
    aborting.2.2 <+: isolating.2.2 ∧
      (∀ q, aborting.1 = .ok q → isolating.1 = .ok q ∧ aborting.2.2 = isolating.2.2) := by
  induction xs generalizing r s t calls with
  | nil => exact ⟨List.prefix_refl _, fun q hq => ⟨hq, rfl⟩⟩
  | cons x xs ih =>
      obtain ⟨houtcome, hafter⟩ := hsees.call r.kind x s t hview
      have hnote := hsees.noteOf r.kind x hview
      cases hs : (c.call r.kind x s).1 with
      | ok value =>
          rw [recording_cons_ok hs, recording_cons_ok (houtcome ▸ hs), ← hnote]
          exact ih _ hafter _
      | error e =>
          rw [recording_cons_abort hs, recording_cons_isolate (houtcome ▸ hs), ← hnote]
          refine ⟨?_, fun q hq => by contradiction⟩
          obtain ⟨made, u, hrest, -, -⟩ := isolate_run c
            { r with
              invoked := r.invoked + 1
              failures := r.failures ++ [⟨r.invoked, (c.noteOf r.kind x s).fragment, e⟩] }
            xs (c.log (.refresherFailed r.kind r.invoked (c.noteOf r.kind x s).fragment e)
              (c.call r.kind x t).2) (calls ++ [c.noteOf r.kind x s])
          rw [hrest]
          exact List.prefix_append _ _

/-! ## A whole broadcast -/

/-- How a broadcast ends that aborts and made these calls: nobody is called after the first failure,
whose error is returned. -/
inductive Aborting (kind : BroadcastKind) (entries : List ρ) (calls : List (Called ρ)) :
    Except RefreshError Report → Prop where
  | done (hall : ∀ call ∈ calls, call.outcome = .ok ())
      (hentries : calls.map Called.refresher = entries) :
      Aborting kind entries calls (.ok ⟨kind, entries.length, []⟩)
  | failed {before : List (Called ρ)} {last : Called ρ} {e : RefreshError}
      (hcalls : calls = before ++ [last]) (hbefore : ∀ call ∈ before, call.outcome = .ok ())
      (hlast : last.outcome = .error e)
      (hentries : calls.map Called.refresher = entries.take (before.length + 1)) :
      Aborting kind entries calls (.error (.broadcastAborted kind before.length e))

theorem recording_broadcast (c : Calls ρ σ) (policy : BroadcastPolicy) (kind : BroadcastKind)
    (entries : List ρ) (s : σ) :
    let recorded := c.recording.broadcast policy kind entries (s, [])
    c.broadcast policy kind entries s = (recorded.1, recorded.2.1) :=
  (recording_broadcastRest c policy (.start kind) entries _ []).symm

theorem isolate_broadcast (c : Calls ρ σ) (kind : BroadcastKind) (entries : List ρ) (s : σ) :
    ∃ made t, c.recording.broadcast .isolate kind entries (s, []) =
        (.ok ⟨kind, made.length, Called.failures made 0⟩, (t, made)) ∧
      made.map Called.refresher = entries ∧ ∀ call ∈ made, call.kind = kind := by
  obtain ⟨made, t, hrun, hentries, hkinds⟩ := isolate_run c (.start kind) entries
    (c.log ((Report.start kind).startedEvent .isolate entries.length) s) []
  refine ⟨made, t, ?_, hentries, hkinds⟩
  rw [← hentries, List.length_map] at hrun
  simp only [Report.start, Nat.zero_add, List.nil_append] at hrun
  rw [← hentries, broadcast]
  simpa [Report.start, recording] using hrun

theorem abort_broadcast (c : Calls ρ σ) (kind : BroadcastKind) (entries : List ρ) (s : σ) :
    ∃ made t result, c.recording.broadcast .abort kind entries (s, []) = (result, (t, made)) ∧
      (∀ call ∈ made, call.kind = kind) ∧ Aborting kind entries made result := by
  obtain ⟨made, t, result, hrun, hkinds, hends⟩ := abort_run c (.start kind) entries
    (c.log ((Report.start kind).startedEvent .abort entries.length) s) []
  refine ⟨made, t, result, hrun, hkinds, ?_⟩
  simp only [Report.start, Nat.zero_add] at hends
  rcases hends with ⟨hall, hentries, rfl⟩ | ⟨before, last, e, hmade, hbefore, hlast, hentries, rfl⟩
  · exact .done hall hentries
  · exact .failed hmade hbefore hlast hentries

end Calls

/-! ## Exactly the calls, the report and the error -/

/-- The report lists exactly what failed of these calls. -/
structure Report.Lists {ρ : Type} (r : Report) (calls : List (Called ρ)) : Prop where
  invoked : r.invoked = calls.length
  ordered : (r.failures.map Failure.index).Pairwise (· < ·)
  failed : ∀ f, f ∈ r.failures ↔ ∃ call, calls[f.index]? = some call ∧
    call.fragment = f.fragment ∧ call.outcome = .error f.error

/-- A broadcast to everybody in a registry, which made these calls, returns this result and leaves
the state at `t`. -/
structure Calls.Exact {ρ σ : Type} (c : Calls ρ σ) (registry : Registry ρ) (kind : BroadcastKind)
    (s : σ) (result : Except RefreshError Report) (calls : List (Called ρ)) (t : σ) : Prop where
  broadcast : c.broadcast registry.policy kind registry.entries s = (result, t)
  kinds : ∀ call ∈ calls, call.kind = kind
  /-- Isolating failures, it calls everybody, and its report lists exactly what failed. -/
  isolating : registry.policy = .isolate → calls.map Called.refresher = registry.entries ∧
    ∃ r, result = .ok r ∧ r.kind = kind ∧ r.Lists calls
  /-- Aborting, it calls nobody after the first failure. -/
  aborting : registry.policy = .abort → Calls.Aborting kind registry.entries calls result
  /-- Up to there the calls are those of isolating, if refreshers do not read the log. -/
  compared : registry.policy = .abort → ∀ (τ : Type) (view : σ → τ), c.SeesOnly view →
    let isolated := c.recording.broadcast .isolate kind registry.entries (s, [])
    calls <+: isolated.2.2 ∧
      ((∀ call ∈ calls, call.outcome = .ok ()) → calls = isolated.2.2 ∧ result = isolated.1)
  counted : ∀ r, result = .ok r → r.failures.length ≤ r.invoked ∧
    r.succeeded = calls.countP fun call => call.outcome.isOk
  /-- What the calls leave alone, such as the registry, the broadcast leaves alone. -/
  untouched : ∀ (τ : Type) (part : σ → τ), (∀ kind x u, part (c.call kind x u).2 = part u) →
    (∀ e u, part (c.log e u) = part u) → part t = part s

/-- Whatever refreshers do, a broadcast makes exactly these calls, and returns what became of
them. -/
theorem broadcast_exact {ρ σ : Type} (c : Calls ρ σ) (registry : Registry ρ)
    (kind : BroadcastKind) (s : σ) :
    let recorded := c.recording.broadcast registry.policy kind registry.entries (s, [])
    c.Exact registry kind s recorded.1 recorded.2.2 recorded.2.1 := by
  obtain ⟨policy, entries, main⟩ := registry
  intro recorded
  have hsame := c.recording_broadcast policy kind entries s
  have huntouched : ∀ (τ : Type) (part : σ → τ),
      (∀ kind x u, part (c.call kind x u).2 = part u) →
        (∀ e u, part (c.log e u) = part u) → part recorded.2.1 = part s := by
    intro τ part hcall hlog
    have hstate : (c.broadcast policy kind entries s).2 = recorded.2.1 := congrArg Prod.snd hsame
    rw [← hstate]
    exact (Calls.broadcastRest_part hcall hlog policy _ entries _).trans (hlog _ s)
  cases policy with
  | isolate =>
      obtain ⟨made, t, hrun, hentries, hkinds⟩ := c.isolate_broadcast kind entries s
      have hresult : recorded.1 = .ok ⟨kind, made.length, Called.failures made 0⟩ :=
        congrArg Prod.fst hrun
      have hcalls : recorded.2.2 = made := congrArg (fun e => e.2.2) hrun
      rw [hcalls]
      refine ⟨hsame, hkinds, fun _ => ⟨hentries, _, hresult, rfl, rfl,
        Called.failures_index_lt made 0, fun f => Called.mem_failures_iff⟩,
        fun h => by contradiction, fun h => by contradiction, ?_, huntouched⟩
      intro r hr
      obtain rfl : _ = r := Except.ok.inj (hresult.symm.trans hr)
      exact Called.succeeded_eq made kind
  | abort =>
      obtain ⟨made, t, ended, hrun, hkinds, hends⟩ := c.abort_broadcast kind entries s
      have hresult : recorded.1 = ended := congrArg Prod.fst hrun
      have hcalls : recorded.2.2 = made := congrArg (fun e => e.2.2) hrun
      rw [hcalls, hresult]
      refine ⟨hresult ▸ hsame, hkinds, fun h => by contradiction, fun _ => hends, ?_, ?_,
        huntouched⟩
      · intro _ τ view hsees isolated
        obtain ⟨hcalled, hsameReport⟩ := hsees.abort_prefix (.start kind) entries
          ((hsees.log (.broadcastStarted kind entries.length .abort) s).trans
            (hsees.log (.broadcastStarted kind entries.length .isolate) s).symm) []
        refine ⟨hcalls ▸ hcalled, fun hall => ?_⟩
        cases hends with
        | done hok hentries =>
            obtain ⟨hisolated, hboth⟩ := hsameReport _ hresult
            exact ⟨hcalls ▸ hboth, hisolated.symm⟩
        | @failed before last e hmade hbefore hlast hentries =>
            have hlastOk := hall last (by simp [hmade])
            rw [hlast] at hlastOk
            contradiction
      · intro r hr
        cases hends with
        | done hall hentries =>
            obtain rfl : _ = r := Except.ok.inj hr
            have hcounts := Called.succeeded_eq made kind
            rw [Called.failures_eq_nil 0 hall] at hcounts
            rw [← hentries, List.length_map]
            exact hcounts
        | failed => contradiction

/-- Refreshers that share a count of calls: the one that is called second fails. -/
def counted : Calls String Nat where
  call _ x n := (if n = 1 then .error (.stopFailed x "busy") else .ok (), n + 1)
  fragment x _ := some x
  log _ n := n

theorem broadcast_exact_counted :
    let isolated := counted.recording.broadcast .isolate .stop ["f", "f", "g"] (0, [])
    let aborted := counted.recording.broadcast .abort .stop ["f", "f", "g"] (0, [])
    (∃ r, isolated.1 = .ok r ∧ ⟨1, some "f", .stopFailed "f" "busy"⟩ ∈ r.failures ∧
        r.succeeded = 2) ∧
      aborted.2.2 <+: isolated.2.2 ∧ ∃ k e, aborted.1 = .error (.broadcastAborted .stop k e) := by
  have hsees : counted.SeesOnly id := by
    refine ⟨?_, fun x s t hview => rfl, fun e s => rfl⟩
    intro kind x s t hview
    obtain rfl : s = t := hview
    exact ⟨rfl, rfl⟩
  have hisolated := broadcast_exact counted ⟨.isolate, ["f", "f", "g"], none⟩ .stop 0
  have haborted := broadcast_exact counted ⟨.abort, ["f", "f", "g"], none⟩ .stop 0
  obtain ⟨-, r, hr, -, hlists⟩ := hisolated.isolating rfl
  refine ⟨⟨r, hr, (hlists.failed _).mpr ⟨_, rfl, rfl, rfl⟩, (hisolated.counted r hr).2⟩,
    (haborted.compared rfl Nat id hsees).1, ?_⟩
  have hends := haborted.aborting rfl
  generalize hresult : (counted.recording.broadcast .abort .stop ["f", "f", "g"] (0, [])).1 =
    result at hends ⊢
  cases hends with
  | done hall hentries =>
      have hsecond := hall (counted.noteOf .stop "f" 1) (List.mem_of_getElem? (i := 1) rfl)
      contradiction
  | failed => exact ⟨_, _, rfl⟩

end PageRefresh
