import PageRefresh.Proofs.Broadcast.Calls

/-!
Logs in which broadcasts are well nested.

Refreshers may begin broadcasts while they are called, and all of them log to the same place, so
what one broadcast logs lies scattered among the events of others.  `Surface` says how a log is put
together: a broadcast is an opening event, the log of what happened meanwhile, and an event that
closes it and counts the warnings that this log has outside of further broadcasts.

A log is read while broadcasts are under way.  Each of them stands for an opening event that is not
closed yet (`Unclosed`), and whatever a broadcast logs next keeps the log in this form.
-/

namespace PageRefresh

/-- The event opens or closes a broadcast, or warns of a failure in one. -/
def Event.isBroadcast : Event → Bool
  | .broadcastStarted .. => true
  | .refresherFailed .. => true
  | .broadcastAborted .. => true
  | .broadcastCompleted .. => true
  | _ => false

/-- No event of a broadcast is among these. -/
def Beside (log : List Event) : Prop :=
  ∀ e ∈ log, e.isBroadcast = false

/-- What is logged about a failure in a broadcast that goes on. -/
def Failure.warning (kind : BroadcastKind) (f : Failure) : Event :=
  .refresherFailed kind f.index f.fragment f.error

/-- The event closes a broadcast to `count` refreshers, when these are the warnings that it gave. -/
def Event.Closes (policy : BroadcastPolicy) (kind : BroadcastKind) (count : Nat)
    (warnings : List Event) : Event → Prop
  | .broadcastCompleted closed invoked failed =>
      closed = kind ∧ invoked = count ∧ failed = warnings.length ∧
        (policy = .abort → warnings = []) ∧
          ∃ failures : List Failure, warnings = failures.map (Failure.warning kind) ∧
            (failures.map Failure.index).Pairwise (· < ·) ∧ ∀ f ∈ failures, f.index < count
  | .broadcastAborted closed index _ _ =>
      closed = kind ∧ policy = .abort ∧ warnings = [] ∧ index < count
  | _ => False

/-- The broadcasts of a log are well nested, and these are its warnings outside of them. -/
inductive Surface (policy : BroadcastPolicy) : List Event → List Event → Prop where
  | nil : Surface policy [] []
  | beside {e : Event} {log warnings : List Event} (he : e.isBroadcast = false)
      (hlog : Surface policy log warnings) : Surface policy (e :: log) warnings
  | warning {kind : BroadcastKind} {f : Failure} {log warnings : List Event}
      (hlog : Surface policy log warnings) :
      Surface policy (f.warning kind :: log) (f.warning kind :: warnings)
  | broadcast {kind : BroadcastKind} {count : Nat} {body given log warnings : List Event}
      {closing : Event} (hbody : Surface policy body given)
      (hcloses : closing.Closes policy kind count given) (hlog : Surface policy log warnings) :
      Surface policy (.broadcastStarted kind count policy :: (body ++ closing :: log)) warnings

namespace Surface

variable {policy : BroadcastPolicy} {log more warnings given : List Event}

theorem append (hlog : Surface policy log warnings) (hmore : Surface policy more given) :
    Surface policy (log ++ more) (warnings ++ given) := by
  induction hlog with
  | nil => exact hmore
  | beside he _ ih => exact .beside he ih
  | warning _ ih => exact .warning ih
  | broadcast hbody hcloses _ _ ih =>
      simp only [List.cons_append, List.append_assoc]
      exact .broadcast hbody hcloses ih

theorem of_beside (hbeside : Beside log) : Surface policy log [] := by
  induction log with
  | nil => exact .nil
  | cons e log ih =>
      obtain ⟨he, hlog⟩ := List.forall_mem_cons.mp hbeside
      exact .beside he (ih hlog)

theorem append_beside (hlog : Surface policy log warnings) (hmore : Beside more) :
    Surface policy (log ++ more) warnings := by
  simpa using hlog.append (of_beside hmore)

/-- A log of warnings only. -/
theorem of_failures (kind : BroadcastKind) (failures : List Failure) :
    Surface policy (failures.map (Failure.warning kind)) (failures.map (Failure.warning kind)) := by
  induction failures with
  | nil => exact .nil
  | cons f failures ih => exact .warning ih

/-- A broadcast that is over is no more than what else was logged. -/
theorem append_broadcast {kind : BroadcastKind} {count : Nat} {body : List Event} {closing : Event}
    (hlog : Surface policy log warnings) (hbody : Surface policy body given)
    (hcloses : closing.Closes policy kind count given) :
    Surface policy (log ++ .broadcastStarted kind count policy :: (body ++ [closing]))
      warnings := by
  simpa using hlog.append (.broadcast hbody hcloses .nil)

end Surface

/-- The event closes some broadcast. -/
def Event.isClosing : Event → Bool
  | .broadcastAborted .. => true
  | .broadcastCompleted .. => true
  | _ => false

theorem Event.Closes.isClosing {policy : BroadcastPolicy} {kind : BroadcastKind} {count : Nat}
    {warnings : List Event} {e : Event} (hcloses : e.Closes policy kind count warnings) :
    e.isClosing = true := by
  cases e with
  | broadcastCompleted => rfl
  | broadcastAborted => rfl
  | _ => exact hcloses.elim

theorem Event.isBroadcast_of_isClosing {e : Event} (hclosing : e.isClosing = true) :
    e.isBroadcast = true := by
  cases e with
  | broadcastCompleted => rfl
  | broadcastAborted => rfl
  | _ => contradiction

namespace Surface

variable {policy : BroadcastPolicy}

/-- Nothing is closed that was not opened. -/
theorem head_not_closing {e : Event} {log warnings : List Event}
    (hlog : Surface policy (e :: log) warnings) : e.isClosing = false := by
  cases hlog with
  | beside he _ =>
      rw [← Bool.not_eq_true]
      intro hclosing
      rw [Event.isBroadcast_of_isClosing hclosing] at he
      contradiction
  | warning _ => rfl
  | broadcast _ _ _ => rfl

/-- A log that an event closes can be read in one way only: how far it goes, and which of its
warnings lie outside of the broadcasts in it. -/
theorem unique {log log' warnings warnings' later later' : List Event} {closing closing' : Event}
    (hlog : Surface policy log warnings) (hlog' : Surface policy log' warnings')
    (hclosing : closing.isClosing = true) (hclosing' : closing'.isClosing = true)
    (heq : log ++ closing :: later = log' ++ closing' :: later') :
    log = log' ∧ warnings = warnings' ∧ closing = closing' ∧ later = later' := by
  induction hlog generalizing log' warnings' closing closing' later later' with
  | nil =>
      cases log' with
      | nil =>
          obtain ⟨rfl, rfl⟩ := List.cons.inj heq
          cases hlog'
          exact ⟨rfl, rfl, rfl, rfl⟩
      | cons e log' =>
          obtain ⟨rfl, -⟩ := List.cons.inj heq
          rw [hlog'.head_not_closing] at hclosing
          contradiction
  | beside he hlog ih =>
      cases hlog' with
      | nil =>
          obtain ⟨rfl, -⟩ := List.cons.inj heq
          rw [Event.isBroadcast_of_isClosing hclosing'] at he
          contradiction
      | beside he' hlog' =>
          obtain ⟨rfl, hrest⟩ := List.cons.inj heq
          obtain ⟨rfl, hsame⟩ := ih hlog' hclosing hclosing' hrest
          exact ⟨rfl, hsame⟩
      | warning hlog' =>
          obtain ⟨rfl, -⟩ := List.cons.inj heq
          contradiction
      | broadcast hbody hcloses hlog' =>
          obtain ⟨rfl, -⟩ := List.cons.inj heq
          contradiction
  | warning hlog ih =>
      cases hlog' with
      | nil =>
          obtain ⟨rfl, -⟩ := List.cons.inj heq
          contradiction
      | beside he' hlog' =>
          obtain ⟨rfl, -⟩ := List.cons.inj heq
          contradiction
      | warning hlog' =>
          obtain ⟨hfirst, hrest⟩ := List.cons.inj heq
          obtain ⟨rfl, rfl, hsame⟩ := ih hlog' hclosing hclosing' hrest
          rw [hfirst]
          exact ⟨rfl, rfl, hsame⟩
      | broadcast hbody hcloses hlog' => cases heq
  | broadcast hbody hcloses hlog ihbody ih =>
      cases hlog' with
      | nil =>
          obtain ⟨rfl, -⟩ := List.cons.inj heq
          contradiction
      | beside he' hlog' =>
          obtain ⟨rfl, -⟩ := List.cons.inj heq
          contradiction
      | warning hlog' => cases heq
      | broadcast hbody' hcloses' hlog' =>
          rw [List.cons_append, List.cons_append, List.append_assoc, List.append_assoc] at heq
          obtain ⟨hstart, hrest⟩ := List.cons.inj heq
          obtain ⟨rfl, rfl, -⟩ := Event.broadcastStarted.inj hstart
          obtain ⟨rfl, -, rfl, hlater⟩ := ihbody hbody' hcloses.isClosing hcloses'.isClosing hrest
          obtain ⟨rfl, hsame⟩ := ih hlog' hclosing hclosing' hlater
          exact ⟨rfl, hsame⟩

end Surface

/-! ## Broadcasts under way -/

namespace Called

variable {ρ : Type}

theorem failures_concat (calls : List (Called ρ)) (call : Called ρ) :
    failures (calls ++ [call]) 0 = failures calls 0 ++ (call.failure? calls.length).toList := by
  rw [failures, List.zipIdx_append, List.filterMap_append, failures]
  cases hfailure : call.failure? calls.length <;> simp [hfailure]

end Called

namespace Report

variable {ρ : Type}

/-- The warnings that a broadcast has logged. -/
def warnings (r : Report) : List Event :=
  r.failures.map (Failure.warning r.kind)

/-- The report says what these calls came to.  Where a failure ends a broadcast that is still under
way, none of them has failed. -/
structure Covers (policy : BroadcastPolicy) (r : Report) (calls : List (Called ρ)) : Prop where
  invoked : r.invoked = calls.length
  failures : r.failures = Called.failures calls 0
  abort : policy = .abort → ∀ call ∈ calls, call.outcome = .ok ()

variable {policy : BroadcastPolicy} {r next : Report} {calls : List (Called ρ)}

theorem covers_start (policy : BroadcastPolicy) (kind : BroadcastKind) :
    (start kind).Covers policy ([] : List (Called ρ)) :=
  ⟨rfl, rfl, fun _ => by simp⟩

/-- What goes on after a call covers it, and has warned of it if it failed. -/
theorem Covers.settle_ok (hcovers : r.Covers policy calls) (call : Called ρ)
    (hnext : r.settle policy call.fragment call.outcome = .ok next) :
    next.Covers policy (calls ++ [call]) ∧ next.kind = r.kind ∧
      ∃ failed : List Failure,
        r.settleEvents policy call.fragment call.outcome = failed.map (Failure.warning r.kind) ∧
          next.warnings = r.warnings ++ failed.map (Failure.warning r.kind) := by
  obtain ⟨hinvoked, hfailures, habort⟩ := hcovers
  cases houtcome : call.outcome with
  | ok value =>
      rw [houtcome] at hnext
      obtain rfl := Except.ok.inj hnext
      refine ⟨⟨?_, ?_, ?_⟩, rfl, [], rfl, (List.append_nil _).symm⟩
      · simp [hinvoked]
      · rw [Called.failures_concat, ← hfailures, Called.failure?, houtcome]
        simp
      · intro hpolicy c hc
        rcases List.mem_append.mp hc with hbefore | hlast
        · exact habort hpolicy c hbefore
        · rw [List.mem_singleton.mp hlast, houtcome]
  | error e =>
      cases policy with
      | abort =>
          rw [houtcome] at hnext
          contradiction
      | isolate =>
          rw [houtcome] at hnext
          obtain rfl := Except.ok.inj hnext
          refine ⟨⟨?_, ?_, fun hpolicy => by contradiction⟩, rfl,
            [⟨r.invoked, call.fragment, e⟩], rfl, List.map_append⟩
          · simp [hinvoked]
          · rw [Called.failures_concat, ← hfailures, Called.failure?, houtcome, hinvoked]
            rfl

theorem settle_eq_error {fragment : Option String} {outcome : Except RefreshError Unit}
    {e : RefreshError} (hends : r.settle policy fragment outcome = .error e) :
    ∃ source, policy = .abort ∧ outcome = .error source ∧
      e = .broadcastAborted r.kind r.invoked source ∧
        r.settleEvents policy fragment outcome =
          [.broadcastAborted r.kind r.invoked fragment source] := by
  cases outcome with
  | ok value => contradiction
  | error source =>
      cases policy with
      | isolate => contradiction
      | abort =>
          obtain rfl := Except.error.inj hends
          exact ⟨source, rfl, rfl, rfl, rfl⟩

/-- Where a failure ends broadcasts there are no warnings. -/
theorem Covers.warnings_eq_nil (hcovers : r.Covers policy calls) (habort : policy = .abort) :
    r.warnings = [] := by
  rw [warnings, hcovers.failures, Called.failures_eq_nil 0 (hcovers.abort habort), List.map_nil]

theorem Covers.completedEvent_closes (hcovers : r.Covers policy calls) :
    r.completedEvent.Closes policy r.kind r.invoked r.warnings := by
  refine ⟨rfl, rfl, (List.length_map _).symm, hcovers.warnings_eq_nil, r.failures, rfl, ?_, ?_⟩
  · rw [hcovers.failures]
    exact Called.failures_index_lt calls 0
  · intro f hf
    rw [hcovers.failures, Called.mem_failures_iff] at hf
    obtain ⟨call, hcall, -⟩ := hf
    rw [hcovers.invoked]
    exact (List.getElem?_eq_some_iff.mp hcall).1

end Report

/-- A broadcast that is under way: its report so far, and how many outcomes it has not taken in. -/
structure Bracket where
  report : Report
  left : Nat

/-- The event that opened the broadcast. -/
def Bracket.startedEvent (policy : BroadcastPolicy) (b : Bracket) : Event :=
  b.report.startedEvent policy (b.report.invoked + b.left)

/-- The log has an opening event for each broadcast that is under way, the innermost first, and none
of them is closed.  Since it opened a broadcast has given the warnings of its report, and outside of
all of them there are these warnings. -/
def Unclosed (policy : BroadcastPolicy) : List Bracket → List Event → List Event → Prop
  | [], log, warnings => Surface policy log warnings
  | b :: brackets, log, warnings =>
      (∃ calls : List (Called Unit), b.report.Covers policy calls) ∧
        ∃ earlier body, log = earlier ++ b.startedEvent policy :: body ∧
          Surface policy body b.report.warnings ∧ Unclosed policy brackets earlier warnings

namespace Unclosed

variable {policy : BroadcastPolicy} {brackets : List Bracket} {b : Bracket}
  {log warnings : List Event}

theorem append_beside {more : List Event} (hlog : Unclosed policy brackets log warnings)
    (hmore : Beside more) : Unclosed policy brackets (log ++ more) warnings := by
  cases brackets with
  | nil => exact Surface.append_beside hlog hmore
  | cons b brackets =>
      obtain ⟨hcovers, earlier, body, rfl, hbody, hearlier⟩ := hlog
      exact ⟨hcovers, earlier, body ++ more, by simp, hbody.append_beside hmore, hearlier⟩

/-- A broadcast begins. -/
theorem start (hlog : Unclosed policy brackets log warnings) (kind : BroadcastKind) (count : Nat) :
    Unclosed policy (⟨.start kind, count⟩ :: brackets)
      (log ++ [(Report.start kind).startedEvent policy count]) warnings := by
  refine ⟨⟨[], Report.covers_start policy kind⟩, log, [], ?_, .nil, hlog⟩
  simp [Bracket.startedEvent, Report.start]

/-- The innermost broadcast goes on after a call. -/
theorem settle_ok {report next : Report} {left : Nat} {fragment : Option String}
    {outcome : Except RefreshError Unit}
    (hlog : Unclosed policy (⟨report, left + 1⟩ :: brackets) log warnings)
    (hnext : report.settle policy fragment outcome = .ok next) :
    Unclosed policy (⟨next, left⟩ :: brackets)
      (log ++ report.settleEvents policy fragment outcome) warnings := by
  obtain ⟨⟨calls, hcovers⟩, earlier, body, rfl, hbody, hearlier⟩ := hlog
  obtain ⟨hcovers', hkind, failed, hevents, hwarnings⟩ :=
    hcovers.settle_ok ⟨report.kind, (), fragment, outcome⟩ hnext
  refine ⟨⟨_, hcovers'⟩, earlier, body ++ report.settleEvents policy fragment outcome, ?_, ?_,
    hearlier⟩
  · have hinvoked : next.invoked = report.invoked + 1 := by
      rw [hcovers'.invoked, hcovers.invoked, List.length_append, List.length_singleton]
    simp [Bracket.startedEvent, Report.startedEvent, hkind, hinvoked, Nat.add_assoc, Nat.add_comm 1]
  · rw [hwarnings, hevents]
    exact hbody.append (.of_failures _ _)

/-- The innermost broadcast is over. -/
theorem close {closing : Event} (hlog : Unclosed policy (b :: brackets) log warnings)
    (hcloses : closing.Closes policy b.report.kind (b.report.invoked + b.left) b.report.warnings) :
    Unclosed policy brackets (log ++ [closing]) warnings := by
  obtain ⟨-, earlier, body, rfl, hbody, hearlier⟩ := hlog
  rw [List.append_assoc, List.cons_append]
  cases brackets with
  | nil => exact Surface.append_broadcast hearlier hbody hcloses
  | cons outer brackets =>
      obtain ⟨hcovers, before, between, rfl, hbetween, hbefore⟩ := hearlier
      refine ⟨hcovers, before, _, ?_, hbetween.append_broadcast hbody hcloses, hbefore⟩
      rw [List.append_assoc, List.cons_append]
      rfl

/-- Everybody was called. -/
theorem complete {report : Report} (hlog : Unclosed policy (⟨report, 0⟩ :: brackets) log warnings) :
    Unclosed policy brackets (log ++ [report.completedEvent]) warnings := by
  obtain ⟨calls, hcovers⟩ := hlog.1
  exact hlog.close hcovers.completedEvent_closes

/-- A failure ends the broadcast. -/
theorem settle_error {report : Report} {left : Nat} {fragment : Option String}
    {outcome : Except RefreshError Unit} {e : RefreshError}
    (hlog : Unclosed policy (⟨report, left + 1⟩ :: brackets) log warnings)
    (hends : report.settle policy fragment outcome = .error e) :
    Unclosed policy brackets (log ++ report.settleEvents policy fragment outcome) warnings := by
  obtain ⟨calls, hcovers⟩ := hlog.1
  obtain ⟨source, habort, -, -, hevents⟩ := Report.settle_eq_error hends
  rw [hevents]
  refine hlog.close ⟨rfl, habort, hcovers.warnings_eq_nil habort, ?_⟩
  simp only
  omega

end Unclosed

end PageRefresh
