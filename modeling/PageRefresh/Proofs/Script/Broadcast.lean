import PageRefresh.Proofs.Broadcast.Calls
import PageRefresh.Proofs.Script.Past

/-!
What a broadcast does to a simulation.

It leaves the shell alone, tells exactly the pollers that it reaches to stop or to restart, and
leaves an entry in the trace for every call that it makes.  A broadcast goes on after a call or ends
there (`broadcastRest_cons`), and the rest is by induction on the refreshers that are left.
-/

namespace PageRefresh.Script

/-- A poller after it was called by a broadcast. -/
def NamedPoller.told (now : Instant) (kind : BroadcastKind) (named : NamedPoller) : NamedPoller :=
  match kind with
  | .stop => { named with poller := named.poller.stop }
  | .restart => { named with poller := named.poller.restart now }

/-- Being told the same twice is being told once, since the clock stands still. -/
theorem NamedPoller.told_told (now : Instant) (kind : BroadcastKind) (named : NamedPoller) :
    (named.told now kind).told now kind = named.told now kind := by
  cases kind <;> rfl

theorem NamedPoller.told_name (now : Instant) (kind : BroadcastKind) (named : NamedPoller) :
    (named.told now kind).name = named.name := by
  cases kind <;> rfl

namespace Simulation

/-- What broadcasts leave alone. -/
def setting (s : Simulation) : Shell Participant × List Nat × Duration × Instant × Nat :=
  (s.shell, s.current, s.interval, s.now, s.step)

/-! ## One call -/

theorem call_setting (kind : BroadcastKind) (x : Participant) (s : Simulation) :
    (call kind x s).2.setting = s.setting := by
  cases x with
  | poller i => cases hp : s.pollers[i]? <;> cases kind <;>
      simp [call, hp, setting, setPoller, log, record]
  | faulty name => cases kind <;> rfl

theorem call_pollers (kind : BroadcastKind) (x : Participant) (s : Simulation) (i : Nat) :
    (call kind x s).2.pollers[i]? =
      (s.pollers[i]?).map fun named =>
        if x = .poller i then named.told s.now kind else named := by
  cases x with
  | faulty name => cases kind <;> simp [call, record]
  | poller j =>
      cases hp : s.pollers[j]? with
      | none =>
          have hsame : (call kind (.poller j) s).2.pollers = s.pollers := by
            cases kind <;> simp [call, hp]
          rw [hsame]
          by_cases hji : j = i
          · simp [← hji, hp]
          · simp [hji]
      | some named =>
          have hset : (call kind (.poller j) s).2.pollers =
              s.pollers.modify j fun n => { n with poller := (named.told s.now kind).poller } := by
            cases kind <;> simp [call, hp, setPoller, log, record, NamedPoller.told]
          rw [hset, List.getElem?_modify]
          by_cases hji : j = i
          · subst hji
            cases kind <;> simp [hp, NamedPoller.told]
          · simp [hji]

theorem call_trace (kind : BroadcastKind) (x : Participant) (s : Simulation) :
    ∃ made, (call kind x s).2.trace = s.trace ++ made ∧
      ∀ e ∈ made, e.step = s.step ∧ e.action = kind.name := by
  cases x with
  | faulty name => cases kind <;> exact ⟨[_], rfl, by simp [BroadcastKind.name]⟩
  | poller i =>
      cases hp : s.pollers[i]? with
      | none => exact ⟨[], by cases kind <;> simp [call, hp], by simp⟩
      | some named =>
          cases kind
          · exact ⟨[⟨s.step, "stop", some named.name, "stopped"⟩],
              by simp [call, hp, log, record, setPoller], by simp [BroadcastKind.name]⟩
          · exact ⟨[⟨s.step, "restart", some named.name,
              "polling every " ++ Nat.repr named.poller.interval.secs ++ "s"⟩],
              by simp [call, hp, log, record, setPoller], by simp [BroadcastKind.name]⟩

theorem calls_logAll (es : List Event) (s : Simulation) : calls.logAll es s = s.logAll es := by
  induction es generalizing s with
  | nil => simp [Calls.logAll, logAll]
  | cons e es ih =>
      have hrest := ih (s.log e)
      rw [Calls.logAll] at hrest
      rw [Calls.logAll, List.foldl_cons]
      exact hrest.trans (by simp [logAll, log])

theorem call_ok (kind : BroadcastKind) (i : Nat) (s : Simulation) :
    (call kind (.poller i) s).1 = .ok () := by
  cases hp : s.pollers[i]? <;> cases kind <;> simp [call, hp]

theorem call_error (kind : BroadcastKind) (name : String) (s : Simulation) :
    ∃ e, (call kind (.faulty name) s).1 = .error e := by
  cases kind <;> exact ⟨_, rfl⟩

/-! ## One call after the other -/

/-- A broadcast goes on after a call, or a failure ends it there. -/
theorem broadcastRest_cons (policy : BroadcastPolicy) (r : Report) (x : Participant)
    (entries : List Participant) (s : Simulation) :
    ∃ es,
      (∃ r', r'.kind = r.kind ∧ reachedOf policy (x :: entries) = x :: reachedOf policy entries ∧
        calls.broadcastRest policy r (x :: entries) s =
          calls.broadcastRest policy r' entries ((call r.kind x s).2.logAll es)) ∨
      (reachedOf policy (x :: entries) = [] ∧ x.isFaulty = true ∧
        (calls.broadcastRest policy r (x :: entries) s).2 = (call r.kind x s).2.logAll es) := by
  cases x with
  | poller i =>
      refine ⟨[], .inl ⟨{ r with invoked := r.invoked + 1 }, rfl, ?_, ?_⟩⟩
      · cases policy <;> simp [reachedOf, Participant.isFaulty]
      · simp only [Calls.broadcastRest, calls_logAll]
        simp [calls, call_ok, Report.settle, Report.settleEvents]
  | faulty name =>
      obtain ⟨e, he⟩ := call_error r.kind name s
      cases policy with
      | isolate =>
          let next : Report := { r with
            invoked := r.invoked + 1, failures := r.failures ++ [⟨r.invoked, some name, e⟩] }
          refine ⟨r.settleEvents .isolate (some name) (.error e), .inl ⟨next, rfl, rfl, ?_⟩⟩
          simp only [Calls.broadcastRest, calls_logAll]
          simp [calls, he, Report.settle, nameOf, next]
      | abort =>
          refine ⟨r.settleEvents .abort (some name) (.error e), .inr ⟨rfl, rfl, ?_⟩⟩
          simp only [Calls.broadcastRest, calls_logAll]
          simp [calls, he, Report.settle, nameOf]

theorem broadcastRest_setting (policy : BroadcastPolicy) (r : Report) (entries : List Participant)
    (s : Simulation) : (calls.broadcastRest policy r entries s).2.setting = s.setting :=
  Calls.broadcastRest_part call_setting (fun _ _ => rfl) policy r entries s

/-- A broadcast tells whom it reaches, and nobody else. -/
theorem broadcastRest_pollers (policy : BroadcastPolicy) (r : Report) (entries : List Participant)
    (s : Simulation) (i : Nat) :
    (calls.broadcastRest policy r entries s).2.pollers[i]? =
      (s.pollers[i]?).map fun named =>
        if .poller i ∈ reachedOf policy entries then named.told s.now r.kind else named := by
  induction entries generalizing r s with
  | nil => cases policy <;> simp [Calls.broadcastRest, reachedOf, calls, log]
  | cons x entries ih =>
      obtain ⟨es, ⟨r', hkind, hreached, hrest⟩ | ⟨hreached, hfaulty, hends⟩⟩ :=
        broadcastRest_cons policy r x entries s
      · have hnow : ((call r.kind x s).2.logAll es).now = s.now :=
          congrArg (fun e => e.2.2.2.1) (call_setting r.kind x s)
        have hcalled : ((call r.kind x s).2.logAll es).pollers[i]? = _ := call_pollers r.kind x s i
        rw [hrest, ih, hnow, hkind, hcalled, hreached, Option.map_map]
        congr 1
        funext named
        by_cases hx : x = .poller i
        · by_cases hmem : .poller i ∈ reachedOf policy entries
          · simp [hx, hmem, NamedPoller.told_told]
          · simp [hx, hmem]
        · have hne : ¬ .poller i = x := fun h => hx h.symm
          simp [hx, hne]
      · have hcalled : ((call r.kind x s).2.logAll es).pollers[i]? = _ := call_pollers r.kind x s i
        have hx : x ≠ .poller i := by
          rintro rfl
          contradiction
        rw [hends, hcalled, hreached]
        simp [hx]

/-- Every entry that a broadcast leaves is that of one of its calls. -/
theorem broadcastRest_trace (policy : BroadcastPolicy) (r : Report) (entries : List Participant)
    (s : Simulation) :
    ∃ made, (calls.broadcastRest policy r entries s).2.trace = s.trace ++ made ∧
      ∀ e ∈ made, e.step = s.step ∧ e.action = r.kind.name := by
  induction entries generalizing r s with
  | nil => exact ⟨[], by simp [Calls.broadcastRest, calls, log], by simp⟩
  | cons x entries ih =>
      obtain ⟨made, htrace, hmade⟩ := call_trace r.kind x s
      obtain ⟨es, ⟨r', hkind, -, hrest⟩ | ⟨-, -, hends⟩⟩ := broadcastRest_cons policy r x entries s
      · have hstep : ((call r.kind x s).2.logAll es).step = s.step :=
          congrArg (fun e => e.2.2.2.2) (call_setting r.kind x s)
        obtain ⟨more, htrace', hmore⟩ := ih r' ((call r.kind x s).2.logAll es)
        refine ⟨made ++ more, ?_, ?_⟩
        · rw [hrest, htrace', ← List.append_assoc]
          exact congrArg (· ++ more) htrace
        · intro e he
          rcases List.mem_append.mp he with hcalled | hlater
          · exact hmade e hcalled
          · rw [← hkind, ← hstep]
            exact hmore e hlater
      · exact ⟨made, by rw [hends]; exact htrace, hmade⟩

/-! ## A whole broadcast -/

theorem broadcast_setting (s : Simulation) (kind : BroadcastKind) :
    (s.broadcast kind).2.setting = s.setting :=
  broadcastRest_setting s.policy (.start kind) s.shell.registry.entries _

theorem broadcast_pollers (s : Simulation) (kind : BroadcastKind) (i : Nat) :
    (s.broadcast kind).2.pollers[i]? =
      (s.pollers[i]?).map fun named =>
        if .poller i ∈ reachedOf s.policy s.shell.registry.entries then named.told s.now kind
        else named :=
  broadcastRest_pollers s.policy (.start kind) s.shell.registry.entries _ i

theorem broadcast_trace (s : Simulation) (kind : BroadcastKind) :
    ∃ made, (s.broadcast kind).2.trace = s.trace ++ made ∧
      ∀ e ∈ made, e.step = s.step ∧ e.action = kind.name :=
  broadcastRest_trace s.policy (.start kind) s.shell.registry.entries _

end Simulation

end PageRefresh.Script
