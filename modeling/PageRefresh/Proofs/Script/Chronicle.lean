import PageRefresh.Proofs.Script.Cycles
import PageRefresh.Proofs.Script.Roll

/-!
The chronicle of a script.

What a step writes into the trace, and the error by which it fails, are read off the steps before
it, as everything else in its past.  `Mirrors.chronicled` says so for one step, in any state that
mirrors the steps before it, and `entriesOf_chronicle` for every step of a script.  Neither the
clock nor the page has a part in it.
-/

namespace PageRefresh.Script

/-! ## Entries -/

/-- The entry of a modal that was opened or closed, with the depth after it. -/
def modalEntry (n : Nat) (action : String) (depth : Nat) (nested : Bool) : TraceEntry where
  step := n
  action := action
  target := none
  detail :=
    match nested with
    | true => "depth " ++ Nat.repr depth ++ ", nested"
    | false => "depth " ++ Nat.repr depth

/-- The summary of a broadcast that was carried through. -/
def summaryEntry (n : Nat) (kind : BroadcastKind) (roll : List Member) : TraceEntry where
  step := n
  action := "broadcast"
  target := none
  detail := kind.name ++ ": " ++ Nat.repr roll.length ++ " invoked, " ++
    Nat.repr (roll.countP Member.faulty) ++ " failed"

def errorEntry (n : Nat) (e : ShellError) : TraceEntry :=
  ⟨n, "error", none, e.message⟩

namespace Past

/-- The error by which the broadcast of a step ends early. -/
def aborts? (policy : BroadcastPolicy) (past : Past) (step : Step) : Option ShellError :=
  (past.broadcast? step).bind fun kind => (abortOf policy kind 0 past.roll).map .refresh

/-- The error by which a step fails. -/
def fault? (policy : BroadcastPolicy) (past : Past) (step : Step) : Option ShellError :=
  match step with
  | .named .cycle name =>
      match past.newest? name with
      | none => some (.refresh (.unknownFragment name))
      | some p =>
          if told? policy p past = some .stop then some (.refresh (.notRunning name)) else none
  | .bare .modalClose => if past.depth = 0 then some .noOpenModal else past.aborts? policy step
  | _ => past.aborts? policy step

/-- The modal entry of a step that does not fail; nested among others, it calls nobody. -/
def modalRecord? (past : Past) (step : Step) : Option TraceEntry :=
  let nested := (past.broadcast? step).isNone
  match step with
  | .bare .modalOpen => some (modalEntry (past.length + 1) "modal-open" (past.depth + 1) nested)
  | .bare .modalClose => some (modalEntry (past.length + 1) "modal-close" (past.depth - 1) nested)
  | _ => none

/-- The entries of the calls that a step makes. -/
def callEntries (policy : BroadcastPolicy) (interval : Duration) (past : Past) (step : Step) :
    List TraceEntry :=
  match past.broadcast? step with
  | some kind => (calledOf policy past.roll).map (Member.entry interval (past.length + 1) kind)
  | none => []

/-- The entries that close a step about everybody on the roll, unless it fails. -/
def closingEntries (past : Past) (step : Step) : List TraceEntry :=
  (past.modalRecord? step).toList ++
    ((past.broadcast? step).map (summaryEntry (past.length + 1) · past.roll)).toList

/-- What a step writes by itself. -/
def writes (policy : BroadcastPolicy) (interval : Duration) (past : Past) (step : Step) :
    List TraceEntry :=
  let n := past.length + 1
  match step with
  | .named .page name => [⟨n, "page", some name, "entered"⟩]
  | .named .add name => [⟨n, "register", some name, "registered"⟩]
  | .named .main name => [⟨n, "register", some name, "registered as main"⟩]
  | .named .fail name => [⟨n, "register", some name, "registered (faulty)"⟩]
  | .named .after name =>
      match past.main? with
      | none =>
          [⟨n, "after", some name, "main refresher: none"⟩, Simulation.callbackEntry n name]
      | some (_, main) =>
          [⟨n, "after", some name, "main refresher: " ++ main⟩,
              ⟨n, "queue", some name, "callback queued on " ++ main⟩] ++
            if main = name then [] else [Simulation.callbackEntry n name]
  | .named .cycle name =>
      match past.completes? policy step with
      | none => []
      | some p =>
          List.replicate (waiting policy p past).length (Simulation.callbackEntry n name) ++
            [Simulation.cycleEntry n name (completed policy p past + 1)
              (waiting policy p past).length]
  | .bare .clear =>
      [⟨n, "clear", none, Nat.repr past.roll.length ++ " refresher(s) removed"⟩]
  | .bare _ =>
      past.callEntries policy interval step ++
        if past.fault? policy step = none then past.closingEntries step else []

/-- All entries of a step: what it writes, and its error if it fails. -/
def entries (policy : BroadcastPolicy) (interval : Duration) (past : Past) (step : Step) :
    List TraceEntry :=
  past.writes policy interval step ++
    ((past.fault? policy step).map (errorEntry (past.length + 1))).toList

end Past

/-- How a step ends that fails with this error, if there is one. -/
def endsWith : Option ShellError → Except ShellError Unit
  | none => .ok ()
  | some e => .error e

/-- The step ends as the past says, and writes what the past says. -/
structure Chronicled (policy : BroadcastPolicy) (interval : Duration) (past : Past) (step : Step)
    (s : Simulation) (ended : Except ShellError Unit × Simulation) : Prop where
  ends : ended.1 = endsWith (past.fault? policy step)
  trace : ended.2.trace = s.trace ++ past.writes policy interval step

namespace Mirrors

variable {policy : BroadcastPolicy} {interval : Duration} {past : Past} {s s' : Simulation}

theorem roll (hmirrors : Mirrors policy past s) :
    s.shell.registry.entries.map (memberOf (s.pollers.map NamedPoller.name)) =
      past.roll.map some := by
  rw [hmirrors.entries, hmirrors.names]
  exact past.registered_roll

/-! ### Callbacks and cycles -/

theorem after_chronicled (hmirrors : Mirrors policy past s) (name : String) :
    Chronicled policy interval past (.named .after name) s (.ok (), s.atNext.after name) := by
  refine ⟨rfl, ?_⟩
  have hmain : s.atNext.mainPoller? = _ := hmirrors.mainPoller?
  have hstep : s.atNext.step = past.length + 1 := congrArg (· + 1) hmirrors.step
  cases hmain? : past.main? with
  | none =>
      rw [hmain?, Option.bind_none] at hmain
      simp only [Simulation.after, hmain, Past.writes, hmain?]
      rw [← hstep]
      simp [Simulation.runCallback, Simulation.record, Simulation.log, Simulation.callbackEntry,
        Simulation.atNext]
  | some found =>
      obtain ⟨i, main⟩ := found
      obtain ⟨named, hnamed, rfl⟩ := hmirrors.getElem? (Past.main?_name hmain?)
      have howns : named.poller.owns name = decide (named.name = name) := by
        simp [Poller.owns, (hmirrors.pollers i named hnamed).fragments, eq_comm]
      rw [hmain?, Option.bind_some, hnamed, Option.map_some] at hmain
      simp only [Simulation.after, hmain, Past.writes, hmain?, howns]
      rw [← hstep]
      by_cases hname : named.name = name <;>
        simp [hname, Simulation.runCallback, Simulation.record, Simulation.log,
          Simulation.callbackEntry, Simulation.setPoller, Simulation.atNext]

theorem cycle_chronicled (hmirrors : Mirrors policy past s) (name : String) :
    Chronicled policy interval past (.named .cycle name) s (s.atNext.cycle name) := by
  have hstep : s.atNext.step = past.length + 1 := congrArg (· + 1) hmirrors.step
  rcases hmirrors.cycle_cases name with ⟨hnone, hcycle⟩ | ⟨i, hnewest, hstopped, hcycle⟩ |
    ⟨i, named, p, batch, hnewest, hruns, hnamed, rfl, hfound, hcomplete, hcycles, hcallbacks⟩
  · rw [hcycle]
    exact ⟨by simp [Past.fault?, hnone, endsWith],
      by simp [Past.writes, Past.completes?, hnone, Simulation.atNext]⟩
  · have hcompletes : past.completes? policy (.named .cycle name) = none := by
      simp [Past.completes?, hnewest, hstopped]
    rw [hcycle]
    exact ⟨by simp [Past.fault?, hnewest, hstopped, endsWith],
      by simp [Past.writes, hcompletes, Simulation.atNext]⟩
  · obtain ⟨events, hcycle⟩ := Simulation.cycle_ok hfound hcomplete
    have hcompletes := Past.completes?_eq_some_iff.mpr ⟨hnewest, hruns⟩
    rw [hcycle]
    refine ⟨by simp [Past.fault?, hnewest, hruns, endsWith], ?_⟩
    simp only [Past.writes, hcompletes]
    rw [hcycles, hcallbacks, hstep, List.length_replicate, List.map_replicate]
    rfl

end Mirrors

/-! ### Broadcasts and modals -/

theorem recordReport_trace (s : Simulation) {r : Report} {kind : BroadcastKind}
    {roll : List Member} (hkind : r.kind = kind) (hinvoked : r.invoked = roll.length)
    (hfailures : r.failures.length = roll.countP Member.faulty) :
    (s.recordReport r).trace = s.trace ++ [summaryEntry s.step kind roll] := by
  rw [Simulation.recordReport, hkind, hinvoked, hfailures]
  rfl

theorem Past.writes_bare {verb : BareVerb} (policy : BroadcastPolicy) (interval : Duration)
    (past : Past) (hverb : verb ≠ .clear) :
    past.writes policy interval (.bare verb) =
      past.callEntries policy interval (.bare verb) ++
        if past.fault? policy (.bare verb) = none then past.closingEntries (.bare verb)
        else [] := by
  cases verb with
  | clear => contradiction
  | _ => rfl

namespace Past

variable {policy : BroadcastPolicy} {interval : Duration} {past : Past} {step : Step}
  {e : TraceEntry}

theorem modalRecord?_action (he : past.modalRecord? step = some e) :
    e.action = "modal-open" ∨ e.action = "modal-close" := by
  unfold modalRecord? at he
  split at he
  · rw [← Option.some.inj he]
    exact .inl rfl
  · rw [← Option.some.inj he]
    exact .inr rfl
  · contradiction

theorem closingEntries_action (he : e ∈ past.closingEntries step) :
    e.action ∈ ["modal-open", "modal-close", "broadcast"] := by
  rcases List.mem_append.mp he with hmodal | hsummary
  · rcases modalRecord?_action (Option.mem_toList.mp hmodal) with haction | haction <;>
      simp [haction]
  · obtain ⟨kind, -, rfl⟩ := Option.map_eq_some_iff.mp (Option.mem_toList.mp hsummary)
    simp [summaryEntry]

theorem callEntries_action (he : e ∈ past.callEntries policy interval step) :
    ∃ kind, past.broadcast? step = some kind ∧ e.action = BroadcastKind.name kind := by
  rw [callEntries] at he
  split at he
  · rename_i kind hbroadcast
    obtain ⟨m, -, rfl⟩ := List.mem_map.mp he
    exact ⟨kind, hbroadcast, rfl⟩
  · contradiction

/-- The actions of entries that are neither of calls nor of errors. -/
def plainActions : List String :=
  ["page", "register", "after", "queue", "callback", "cycle", "clear", "modal-open", "modal-close",
    "broadcast"]

/-- What a step writes are the entries of its calls, and others after them. -/
theorem writes_calls (policy : BroadcastPolicy) (interval : Duration) (past : Past) (step : Step) :
    ∃ others, past.writes policy interval step = past.callEntries policy interval step ++ others ∧
      ∀ e ∈ others, e.action ∈ plainActions := by
  cases step with
  | named verb name =>
      refine ⟨past.writes policy interval (.named verb name), rfl, ?_⟩
      intro e he
      cases verb with
      | after =>
          rw [writes] at he
          split at he
          · simp only [List.mem_cons, List.not_mem_nil, or_false] at he
            rcases he with rfl | rfl <;> simp [Simulation.callbackEntry, plainActions]
          · split at he <;>
              simp only [List.mem_append, List.mem_cons, List.not_mem_nil, or_false] at he
            · rcases he with rfl | rfl <;> simp [plainActions]
            · rcases he with (rfl | rfl) | rfl <;> simp [Simulation.callbackEntry, plainActions]
      | cycle =>
          rw [writes] at he
          split at he
          · contradiction
          · rcases List.mem_append.mp he with hcallback | hcycle
            · rw [List.eq_of_mem_replicate hcallback]
              simp [Simulation.callbackEntry, plainActions]
            · rw [List.mem_singleton.mp hcycle]
              simp [Simulation.cycleEntry, plainActions]
      | _ =>
          rw [List.mem_singleton.mp he]
          simp [plainActions]
  | bare verb =>
      by_cases hverb : verb = .clear
      · rw [hverb]
        exact ⟨_, rfl, by simp [plainActions]⟩
      · refine ⟨_, writes_bare policy interval past hverb, ?_⟩
        intro e he
        split at he
        · have haction := closingEntries_action he
          simp only [List.mem_cons, List.not_mem_nil, or_false] at haction
          rcases haction with haction | haction | haction <;> simp [haction, plainActions]
        · contradiction

/-- No step says by itself that it fails. -/
theorem writes_action_ne_error (he : e ∈ past.writes policy interval step) :
    e.action ≠ "error" := by
  obtain ⟨others, hwrites, hplain⟩ := past.writes_calls policy interval step
  rw [hwrites] at he
  intro herror
  rcases List.mem_append.mp he with hcall | hother
  · obtain ⟨kind, -, haction⟩ := callEntries_action hcall
    rw [haction] at herror
    cases kind <;> contradiction
  · have haction := hplain e hother
    simp [herror, plainActions] at haction

end Past

/-- Only a step without a name makes a broadcast. -/
theorem Past.bare_of_broadcast? {past : Past} {step : Step} {kind : BroadcastKind}
    (hbroadcast : past.broadcast? step = some kind) :
    ∃ verb, verb ≠ .clear ∧ step = .bare verb := by
  cases step with
  | named verb name => contradiction
  | bare verb =>
      refine ⟨verb, ?_, rfl⟩
      rintro rfl
      contradiction

/-- A step that makes a broadcast fails only with it. -/
theorem Past.fault?_of_broadcast? {past : Past} {step : Step} {kind : BroadcastKind}
    (policy : BroadcastPolicy) (hbroadcast : past.broadcast? step = some kind) :
    past.fault? policy step = (abortOf policy kind 0 past.roll).map .refresh := by
  have haborts : past.aborts? policy step = (abortOf policy kind 0 past.roll).map .refresh := by
    rw [aborts?, hbroadcast, Option.bind_some]
  obtain ⟨verb, -, rfl⟩ := bare_of_broadcast? hbroadcast
  cases verb with
  | modalClose =>
      have hopen : past.depth ≠ 0 := by
        intro hzero
        simp [broadcast?, hzero] at hbroadcast
      rw [fault?, if_neg hopen, haborts]
  | _ => exact haborts

/-- A step that makes a broadcast writes the entries of its calls, and then either what closes the
step or its error. -/
theorem Past.entries_of_broadcast? {past : Past} {step : Step} {kind : BroadcastKind}
    (policy : BroadcastPolicy) (interval : Duration)
    (hbroadcast : past.broadcast? step = some kind) :
    past.entries policy interval step =
      (calledOf policy past.roll).map (Member.entry interval (past.length + 1) kind) ++
        match abortOf policy kind 0 past.roll with
        | none => (past.modalRecord? step).toList ++ [summaryEntry (past.length + 1) kind past.roll]
        | some e => [errorEntry (past.length + 1) (.refresh e)] := by
  have hfault := fault?_of_broadcast? policy hbroadcast
  obtain ⟨verb, hverb, rfl⟩ := bare_of_broadcast? hbroadcast
  rw [entries, writes_bare policy interval past hverb, callEntries, hbroadcast, hfault]
  cases habort : abortOf policy kind 0 past.roll with
  | none => simp [closingEntries, hbroadcast]
  | some e => simp

/-- The entries of calls that a broadcast made. -/
def callsOf (entries : List TraceEntry) : List TraceEntry :=
  entries.filter fun e => e.action == "stop" || e.action == "restart"

theorem Past.callsOf_entries (policy : BroadcastPolicy) (interval : Duration) (past : Past)
    (step : Step) :
    callsOf (past.entries policy interval step) = past.callEntries policy interval step := by
  obtain ⟨others, hwrites, hplain⟩ := past.writes_calls policy interval step
  rw [callsOf, entries, hwrites, List.filter_append, List.filter_append]
  have hcalls : (past.callEntries policy interval step).filter
      (fun e => e.action == "stop" || e.action == "restart") =
        past.callEntries policy interval step := by
    rw [List.filter_eq_self]
    intro e he
    obtain ⟨kind, -, haction⟩ := callEntries_action he
    rw [haction]
    cases kind <;> rfl
  have hothers : others.filter (fun e => e.action == "stop" || e.action == "restart") = [] := by
    rw [List.filter_eq_nil_iff]
    intro e he hcall
    have haction := hplain e he
    rcases (Bool.or_eq_true _ _).mp hcall with hcall | hcall <;>
      simp [eq_of_beq hcall, plainActions] at haction
  have herror : ((past.fault? policy step).map (errorEntry (past.length + 1))).toList.filter
      (fun e => e.action == "stop" || e.action == "restart") = [] := by
    cases past.fault? policy step <;> rfl
  rw [hcalls, hothers, herror, List.append_nil, List.append_nil]

/-- The next step is under way, has recorded nothing yet, and finds everybody where the past has
put them on the roll. -/
structure Ready (policy : BroadcastPolicy) (interval : Duration) (past : Past)
    (s s' : Simulation) : Prop where
  step : s'.step = past.length + 1
  trace : s'.trace = s.trace
  policy : s'.policy = policy
  paced : s'.Paced interval
  roll : s'.shell.registry.entries.map (memberOf (s'.pollers.map NamedPoller.name)) =
    past.roll.map some

namespace Ready

variable {policy : BroadcastPolicy} {interval : Duration} {past : Past} {s s' : Simulation}
  {verb : BareVerb} {kind : BroadcastKind}

/-- A broadcast ends early with an error, or it is carried through and can be summed up. -/
theorem broadcast_cases (hready : Ready policy interval past s s')
    (hbroadcast : past.broadcast? (.bare verb) = some kind) :
    (∃ e t, past.aborts? policy (.bare verb) = some (.refresh e) ∧
        s'.broadcast kind = (.error e, t) ∧
        t.trace = s.trace ++ past.callEntries policy interval (.bare verb)) ∨
      (∃ r t, past.aborts? policy (.bare verb) = none ∧ s'.broadcast kind = (.ok r, t) ∧
        t.trace = s.trace ++ past.callEntries policy interval (.bare verb) ∧
        t.step = past.length + 1 ∧
          ∀ u : Simulation, (u.recordReport r).trace =
            u.trace ++ [summaryEntry u.step kind past.roll]) := by
  obtain ⟨htrace, hanswers⟩ := Simulation.broadcast_roll kind hready.paced hready.roll
  have hstep : (s'.broadcast kind).2.step = s'.step :=
    congrArg (fun e => e.2.2.2.2) (s'.broadcast_setting kind)
  rw [hready.policy] at htrace hanswers
  rw [hready.trace, hready.step] at htrace
  have hcalled : past.callEntries policy interval (.bare verb) =
      (calledOf policy past.roll).map (Member.entry interval (past.length + 1) kind) := by
    rw [Past.callEntries, hbroadcast]
  rw [Past.aborts?, hbroadcast, Option.bind_some, hcalled]
  rw [Simulation.Answers] at hanswers
  split at hanswers
  · rename_i e habort
    have habort' : abortOf policy kind 0 past.roll = some e := habort
    exact .inl ⟨e, _, by rw [habort', Option.map_some], Prod.ext hanswers rfl, htrace⟩
  · rename_i habort
    have habort' : abortOf policy kind 0 past.roll = none := habort
    obtain ⟨r, hresult, hkind, hinvoked, hfailures⟩ := hanswers
    refine .inr ⟨r, _, by rw [habort', Option.map_none], Prod.ext hresult rfl, htrace,
      hstep.trans hready.step, ?_⟩
    intro u
    exact recordReport_trace u hkind (by simpa [Report.start] using hinvoked)
      (by simpa [Report.start] using hfailures)

theorem broadcastStep (hready : Ready policy interval past s s') (hverb : verb ≠ .clear)
    (hbroadcast : past.broadcast? (.bare verb) = some kind)
    (hmodal : past.modalRecord? (.bare verb) = none)
    (hfault : past.fault? policy (.bare verb) = past.aborts? policy (.bare verb)) :
    Chronicled policy interval past (.bare verb) s (s'.broadcastStep kind) := by
  have hwrites := past.writes_bare policy interval hverb
  rcases hready.broadcast_cases hbroadcast with ⟨e, t, haborts, hresult, htrace⟩ |
    ⟨r, t, hcarried, hresult, htrace, hstep, hreport⟩
  · rw [Simulation.broadcastStep, hresult]
    refine ⟨by rw [hfault, haborts]; rfl, ?_⟩
    rw [hwrites, hfault, haborts, htrace]
    simp
  · rw [Simulation.broadcastStep, hresult]
    refine ⟨by rw [hfault, hcarried]; rfl, ?_⟩
    rw [hwrites, hfault, hcarried]
    simp only [hreport, htrace, hstep, Past.closingEntries, hmodal, hbroadcast]
    simp

theorem modalStep {action : String} (hready : Ready policy interval past s s')
    (hverb : verb ≠ .clear)
    (hmodal : past.modalRecord? (.bare verb) = some (modalEntry (past.length + 1) action
      s'.shell.modalDepth (past.broadcast? (.bare verb)).isNone))
    (hfault : past.fault? policy (.bare verb) = past.aborts? policy (.bare verb)) :
    Chronicled policy interval past (.bare verb) s
      (s'.modalStep action (past.broadcast? (.bare verb))) := by
  have hwrites := past.writes_bare policy interval hverb
  cases hbroadcast : past.broadcast? (.bare verb) with
  | none =>
      have hnone : past.aborts? policy (.bare verb) = none := by
        rw [Past.aborts?, hbroadcast, Option.bind_none]
      refine ⟨by rw [hfault, hnone]; rfl, ?_⟩
      rw [hwrites, hfault, hnone]
      simp only [Past.callEntries, Past.closingEntries, hmodal, hbroadcast]
      simp [Simulation.modalStep, Simulation.record, hready.trace, hready.step, modalEntry]
  | some kind =>
      rcases hready.broadcast_cases hbroadcast with ⟨e, t, haborts, hresult, htrace⟩ |
        ⟨r, t, hcarried, hresult, htrace, hstep, hreport⟩
      · simp only [Simulation.modalStep, hresult]
        refine ⟨by rw [hfault, haborts]; rfl, ?_⟩
        rw [hwrites, hfault, haborts, htrace]
        simp
      · simp only [Simulation.modalStep, hresult]
        refine ⟨by rw [hfault, hcarried]; rfl, ?_⟩
        rw [hwrites, hfault, hcarried]
        simp only [hreport, Simulation.record, htrace, hstep, Past.closingEntries, hmodal,
          hbroadcast]
        simp [modalEntry]

end Ready

namespace Mirrors

variable {policy : BroadcastPolicy} {interval : Duration} {past : Past} {s s' : Simulation}

theorem ready (hmirrors : Mirrors policy past s) (hpaced : s.Paced interval) :
    Ready policy interval past s s.atNext where
  step := congrArg (· + 1) hmirrors.step
  trace := rfl
  policy := hmirrors.keeps
  paced := hpaced.congr rfl
  roll := hmirrors.roll

theorem openModal_chronicled (hmirrors : Mirrors policy past s) (hpaced : s.Paced interval) :
    Chronicled policy interval past (.bare .modalOpen) s s.atNext.openModal := by
  have hopened : Ready policy interval past s
      ({ s.atNext with shell := s.shell.openModal }.log s.shell.openModal.openedEvent) :=
    { hmirrors.ready hpaced with paced := hpaced.congr rfl }
  have hmodal : past.modalRecord? (.bare .modalOpen) = some (modalEntry (past.length + 1)
      "modal-open" s.shell.openModal.modalDepth
        (past.broadcast? (.bare .modalOpen)).isNone) := by
    rw [Shell.openModal, hmirrors.depth]
    rfl
  have hchronicled := hopened.modalStep (by decide) hmodal rfl
  rw [← hmirrors.opensWith] at hchronicled
  exact hchronicled

theorem closeModal_chronicled (hmirrors : Mirrors policy past s) (hpaced : s.Paced interval) :
    Chronicled policy interval past (.bare .modalClose) s s.atNext.closeModal := by
  have hcloses : s.atNext.shell.closesWith = _ := hmirrors.closesWith
  by_cases hdepth : past.depth = 0
  · rw [if_pos hdepth] at hcloses
    have hbroadcast : past.broadcast? (.bare .modalClose) = none := by
      simp [Past.broadcast?, hdepth]
    have hfault : past.fault? policy (.bare .modalClose) = some .noOpenModal := if_pos hdepth
    simp only [Simulation.closeModal, hcloses]
    refine ⟨by rw [hfault]; rfl, ?_⟩
    rw [past.writes_bare policy interval (by decide), hfault, Past.callEntries, hbroadcast]
    simp [Simulation.atNext]
  · rw [if_neg hdepth] at hcloses
    have hclosed : Ready policy interval past s
        ({ s.atNext with shell := s.shell.closeModal }.log s.shell.closeModal.closedEvent) :=
      { hmirrors.ready hpaced with paced := hpaced.congr rfl }
    have hmodal : past.modalRecord? (.bare .modalClose) = some (modalEntry (past.length + 1)
        "modal-close" s.shell.closeModal.modalDepth
          (past.broadcast? (.bare .modalClose)).isNone) := by
      rw [Shell.closeModal, hmirrors.depth]
      rfl
    simp only [Simulation.closeModal, hcloses]
    exact hclosed.modalStep (by decide) hmodal (if_neg hdepth)

/-! ### Whole steps -/

/-- A step ends, and writes, as its past says. -/
theorem chronicled (hmirrors : Mirrors policy past s) (hpaced : s.Paced interval) (step : Step) :
    Chronicled policy interval past step s (s.atNext.apply step) := by
  have hready := hmirrors.ready hpaced
  have hsingle : ∀ {action : String} {target : Option String} {detail : String} {t : Simulation},
      t.trace = s.trace ++ [⟨s.step + 1, action, target, detail⟩] →
        t.trace = s.trace ++ [⟨past.length + 1, action, target, detail⟩] := by
    intro action target detail t ht
    rw [ht, hmirrors.step]
  cases step with
  | named verb name =>
      cases verb with
      | page => exact ⟨rfl, hsingle rfl⟩
      | add => exact ⟨rfl, hsingle rfl⟩
      | main => exact ⟨rfl, hsingle rfl⟩
      | fail => exact ⟨rfl, hsingle rfl⟩
      | after => exact hmirrors.after_chronicled name
      | cycle => exact hmirrors.cycle_chronicled name
  | bare verb =>
      cases verb with
      | disable => exact hready.broadcastStep (by decide) rfl rfl rfl
      | enable => exact hready.broadcastStep (by decide) rfl rfl rfl
      | modalOpen => exact hmirrors.openModal_chronicled hpaced
      | modalClose => exact hmirrors.closeModal_chronicled hpaced
      | clear =>
          have hsize : s.shell.registry.size = past.roll.length := by
            simpa [Registry.size] using congrArg List.length hmirrors.roll
          refine ⟨rfl, ?_⟩
          rw [Past.writes, ← hsize]
          exact hsingle rfl

/-- The entries of a step. -/
theorem recorded (hmirrors : Mirrors policy past s) (hpaced : s.Paced interval) (step : Step) :
    s.recorded step = past.entries policy interval step := by
  have hchronicled := hmirrors.chronicled hpaced step
  cases happly : s.atNext.apply step with
  | mk result s' =>
      rw [happly] at hchronicled
      obtain ⟨hends, htrace⟩ := hchronicled
      have hends' : result = endsWith (past.fault? policy step) := hends
      have htrace' : s'.trace = s.trace ++ past.writes policy interval step := htrace
      have hstep : s'.step = past.length + 1 := by
        have hextends := (Simulation.apply_extends s.atNext step).step
        rw [happly] at hextends
        exact hextends.trans (congrArg (· + 1) hmirrors.step)
      apply Simulation.recorded_eq
      rw [Past.entries, ← List.append_assoc, ← htrace']
      cases hfault : past.fault? policy step with
      | none =>
          rw [hfault] at hends'
          rw [hends'] at happly
          rw [Simulation.next_of_ok happly]
          exact (List.append_nil _).symm
      | some e =>
          rw [hfault] at hends'
          rw [hends'] at happly
          rw [Simulation.next_of_error happly, ← hstep]
          rfl

end Mirrors

/-! ## Whole scripts -/

namespace Past

/-- The trace of these steps. -/
def chronicle (policy : BroadcastPolicy) (interval : Duration) : Past → List TraceEntry
  | [] => []
  | step :: past => chronicle policy interval past ++ entries policy interval past step

/-- The page that the last `page` step has entered. -/
def page? : Past → Option String
  | [] => none
  | .named .page name :: _ => some name
  | _ :: past => page? past

theorem page?_eq_none_iff {past : Past} :
    past.page? = none ↔ ∀ name, .named .page name ∉ past := by
  fun_induction page? past with
  | case1 => simp
  | case2 name past => exact iff_of_false (by simp) fun hnone => hnone name List.mem_cons_self
  | case3 step past hstep ih =>
      simp only [ih, List.mem_cons, not_or, forall_and]
      exact (and_iff_right fun name heq => hstep name heq.symm).symm

end Past

namespace Simulation

theorem broadcast_page (s : Simulation) (kind : BroadcastKind) :
    (s.broadcast kind).2.view.1.1.page = s.shell.page :=
  congrArg (fun e => e.1.page) (s.broadcast_setting kind)

theorem modalStep_page (s : Simulation) (action : String) (cause : Option BroadcastKind) :
    (s.modalStep action cause).2.shell.page = s.shell.page := by
  have hview := congrArg (fun v => v.1.1.page) (s.modalStep_view action cause)
  cases cause with
  | none => exact hview
  | some kind => exact hview.trans (s.broadcast_page kind)

theorem cycle_page (s : Simulation) (name : String) :
    (s.cycle name).2.shell.page = s.shell.page := by
  cases hcycle : s.cycle name with
  | mk result s' =>
      cases result with
      | error e => rw [cycle_error hcycle]
      | ok value =>
          obtain ⟨i, named, p, batch, hnewest, hcomplete⟩ := newest?_of_cycle hcycle
          obtain ⟨events, hok⟩ := cycle_ok hnewest hcomplete
          obtain ⟨-, rfl⟩ := Prod.mk.inj (hcycle.symm.trans hok)
          rfl

theorem after_page (s : Simulation) (name : String) :
    (s.after name).shell.page = s.shell.page := by
  unfold after
  split
  · rfl
  · split <;> rfl

/-- Only a `page` step enters a page, and no step leaves it for none. -/
theorem next_page (s : Simulation) {past : Past} (hpage : s.shell.page = past.page?)
    (step : Step) : (s.next step).shell.page = Past.page? (step :: past) := by
  have hview := congrArg (fun v => v.1.1.page) (s.next_view step)
  refine Eq.trans hview ?_
  cases step with
  | named verb name =>
      cases verb with
      | page => rfl
      | after => exact (s.atNext.after_page name).trans hpage
      | cycle => exact (s.atNext.cycle_page name).trans hpage
      | _ => exact hpage
  | bare verb =>
      cases verb with
      | clear => exact hpage
      | disable =>
          have hsame := congrArg (fun v => v.1.1.page) (s.atNext.broadcastStep_view .stop)
          exact hsame.trans ((s.atNext.broadcast_page .stop).trans hpage)
      | enable =>
          have hsame := congrArg (fun v => v.1.1.page) (s.atNext.broadcastStep_view .restart)
          exact hsame.trans ((s.atNext.broadcast_page .restart).trans hpage)
      | modalOpen => exact (modalStep_page _ _ _).trans hpage
      | modalClose =>
          refine Eq.trans ?_ hpage
          change s.atNext.closeModal.2.shell.page = s.shell.page
          unfold closeModal
          split
          · rfl
          · exact modalStep_page _ _ _

end Simulation

variable {policy : BroadcastPolicy} {interval : Duration} {script : List Step} {i : Nat}
  {step : Step}

theorem paced_simulate (policy : BroadcastPolicy) (interval : Duration) (now : Instant)
    (script : List Step) : (simulate policy interval now script).Paced interval :=
  (Simulation.Paced.start policy interval now).run script

/-- How a step of a script ends, and what it writes. -/
theorem chronicled_at (policy : BroadcastPolicy) (interval : Duration) (now : Instant)
    (script : List Step) (i : Nat) (step : Step) :
    Chronicled policy interval (pastAt script i) step (simulate policy interval now (script.take i))
      ((simulate policy interval now (script.take i)).atNext.apply step) :=
  (mirrors_at policy interval now script i).chronicled (paced_simulate policy interval now _) step

/-- The entries of a step of a script are those that its past says. -/
theorem entriesOf_chronicle (policy : BroadcastPolicy) (interval : Duration) (now : Instant)
    (hstep : script[i]? = some step) :
    entriesOf (simulate policy interval now script).trace i =
      (pastAt script i).entries policy interval step := by
  rw [entriesOf_eq hstep]
  exact (mirrors_at policy interval now script i).recorded
    (paced_simulate policy interval now _) step

theorem run_chronicle {past : Past} {s : Simulation} (hmirrors : Mirrors policy past s)
    (hpaced : s.Paced interval) (htrace : s.trace = past.chronicle policy interval)
    (hpage : s.shell.page = past.page?) (script : List Step) :
    (s.run script).trace = Past.chronicle policy interval (script.reverse ++ past) ∧
      (s.run script).shell.page = Past.page? (script.reverse ++ past) := by
  induction script generalizing past s with
  | nil => exact ⟨htrace, hpage⟩
  | cons step script ih =>
      have hnext : (s.next step).trace = Past.chronicle policy interval (step :: past) := by
        rw [(s.next_trace step).1, htrace, hmirrors.recorded hpaced, Past.chronicle]
      rw [Simulation.run_cons, List.reverse_cons, List.append_assoc]
      exact ih (hmirrors.next step) (hpaced.next step) hnext (s.next_page hpage step)

/-- What a script comes to can be said without running it. -/
theorem simulate_outcome (policy : BroadcastPolicy) (interval : Duration) (now : Instant)
    (script : List Step) (steps : Nat) :
    (simulate policy interval now script).outcome steps =
      { policy := policy
        intervalSecs := interval.secs
        steps := steps
        registered := (Past.roll script.reverse).length
        page := Past.page? script.reverse
        trace := Past.chronicle policy interval script.reverse } := by
  have hmirrors := mirrors_simulate policy interval now script
  have hpaced := paced_simulate policy interval now script
  obtain ⟨htrace, hpage⟩ := run_chronicle (Mirrors.start policy interval now)
    (Simulation.Paced.start policy interval now) rfl rfl script
  rw [List.append_nil] at htrace hpage
  have hsize : (simulate policy interval now script).shell.registry.size =
      (Past.roll script.reverse).length := by
    simpa [Registry.size] using congrArg List.length hmirrors.roll
  rw [Simulation.outcome, hmirrors.keeps, hpaced.pace, hsize]
  simp only [Outcome.mk.injEq, true_and]
  exact ⟨hpage, htrace⟩

end PageRefresh.Script
