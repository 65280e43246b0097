import PageRefresh.Proofs.Script.Chronicle

/-!
What the trace says about broadcasts.

The refreshers themselves record that they are called, and the step sums up what the broadcast has
reported.  Both agree with the roll: in a step that makes a broadcast exactly those on the roll are
called, in their order, and those that are faulty fail.  In other steps nobody is called.
-/

namespace PageRefresh.Script

/-- Entries of calls to these members, one after another. -/
structure Tells (kind : BroadcastKind) (members : List Member) (calls : List TraceEntry) :
    Prop where
  actions : ∀ e ∈ calls, e.action = kind.name
  targets : calls.map TraceEntry.target = members.map fun x => some x.name
  failed : calls.map (fun e => decide (e.detail = "failed")) = members.map Member.faulty

/-- The modal entry of a step that ends at this depth. -/
def modalEntries (n : Nat) (depth : Nat) (nested : Bool) : Step → List TraceEntry
  | .bare .modalOpen => [modalEntry n "modal-open" depth nested]
  | .bare .modalClose => [modalEntry n "modal-close" depth nested]
  | _ => []

theorem BroadcastKind.name_inj {kind kind' : BroadcastKind} (hname : kind.name = kind'.name) :
    kind = kind' := by
  cases kind <;> cases kind' <;> simp [BroadcastKind.name] at hname ⊢

theorem tells_entries (interval : Duration) (n : Nat) (kind : BroadcastKind)
    (members : List Member) : Tells kind members (members.map (Member.entry interval n kind)) where
  actions e he := by
    obtain ⟨x, -, rfl⟩ := List.mem_map.mp he
    rfl
  targets := by
    rw [List.map_map]
    rfl
  failed := by
    rw [List.map_map]
    apply List.map_congr_left
    intro x _
    rw [Function.comp_apply, Bool.eq_iff_iff, decide_eq_true_iff,
      Member.entry_detail_eq_failed_iff]

/-- Of a roll that is not empty somebody is called. -/
theorem calledOf_eq_nil_iff {policy : BroadcastPolicy} {roll : List Member} :
    calledOf policy roll = [] ↔ roll = [] := by
  cases policy <;> simp [calledOf]

namespace Past

variable {policy : BroadcastPolicy} {interval : Duration} {past : Past} {step : Step}

theorem broadcast?_eq_stop_iff : past.broadcast? step = some .stop ↔
    step = .bare .disable ∨ step = .bare .modalOpen ∧ past.depth = 0 := by
  cases step with
  | named verb name => simp [broadcast?]
  | bare verb => cases verb <;> simp [broadcast?]

theorem broadcast?_eq_restart_iff : past.broadcast? step = some .restart ↔
    step = .bare .enable ∨ step = .bare .modalClose ∧ past.depth = 1 := by
  cases step with
  | named verb name => simp [broadcast?]
  | bare verb => cases verb <;> simp [broadcast?]

theorem modalRecord?_toList (past : Past) (step : Step) :
    (past.modalRecord? step).toList =
      modalEntries (past.length + 1) (depth (step :: past)) (past.broadcast? step).isNone step := by
  cases step with
  | named verb name => rfl
  | bare verb => cases verb <;> rfl

/-- Calls of a kind are recorded exactly if there is such a broadcast and somebody to call. -/
theorem exists_call_iff (policy : BroadcastPolicy) (interval : Duration) (past : Past)
    (step : Step) (kind : BroadcastKind) :
    (∃ e ∈ past.entries policy interval step, e.action = kind.name) ↔
      past.broadcast? step = some kind ∧ past.roll ≠ [] := by
  have hcall : ∀ e : TraceEntry, e.action = kind.name →
      (e ∈ past.entries policy interval step ↔ e ∈ past.callEntries policy interval step) := by
    intro e haction
    have hkind : (e.action == "stop" || e.action == "restart") = true := by
      rw [haction]
      cases kind <;> rfl
    rw [← callsOf_entries, callsOf, List.mem_filter]
    exact ⟨fun he => ⟨he, hkind⟩, fun he => he.1⟩
  constructor
  · rintro ⟨e, he, haction⟩
    rw [hcall e haction, callEntries] at he
    split at he
    · rename_i kind' hbroadcast
      obtain ⟨x, hx, rfl⟩ := List.mem_map.mp he
      obtain rfl : kind' = kind := BroadcastKind.name_inj haction
      refine ⟨hbroadcast, ?_⟩
      intro hempty
      rw [calledOf_eq_nil_iff.mpr hempty] at hx
      contradiction
    · contradiction
  · rintro ⟨hbroadcast, hroll⟩
    have hcalled : calledOf policy past.roll ≠ [] := mt calledOf_eq_nil_iff.mp hroll
    obtain ⟨x, hx⟩ := List.exists_mem_of_ne_nil _ hcalled
    refine ⟨x.entry interval (past.length + 1) kind, ?_, rfl⟩
    rw [hcall _ rfl, callEntries, hbroadcast]
    exact List.mem_map_of_mem hx

/-- Whoever opens or closes a modal says how many are open now. -/
theorem modal_entry {e : TraceEntry} (hstep : e.action ∈ step.actions)
    (he : e ∈ past.entries policy interval step)
    (haction : e.action = "modal-open" ∨ e.action = "modal-close") :
    e = modalEntry (past.length + 1) e.action (depth (step :: past))
      (past.broadcast? step).isNone := by
  have hbare : ∃ verb, verb ≠ .clear ∧ step = .bare verb := by
    cases step with
    | named verb name =>
        cases verb <;> rcases haction with h | h <;> simp [h, Step.actions] at hstep
    | bare verb =>
        refine ⟨verb, ?_, rfl⟩
        rintro rfl
        rcases haction with h | h <;> simp [h, Step.actions] at hstep
  obtain ⟨verb, hverb, rfl⟩ := hbare
  have hmodal : e ∈ (past.modalRecord? (.bare verb)).toList := by
    rw [entries, writes_bare policy interval past hverb] at he
    rcases List.mem_append.mp he with hwrites | herror
    · rcases List.mem_append.mp hwrites with hcall | hclosing
      · obtain ⟨kind, -, hkind⟩ := callEntries_action hcall
        rw [hkind] at haction
        cases kind <;> simp [BroadcastKind.name] at haction
      · split at hclosing
        · rcases List.mem_append.mp hclosing with hmodal | hsummary
          · exact hmodal
          · obtain ⟨kind, -, rfl⟩ := Option.map_eq_some_iff.mp (Option.mem_toList.mp hsummary)
            simp [summaryEntry] at haction
        · contradiction
    · obtain ⟨error, -, rfl⟩ := Option.map_eq_some_iff.mp (Option.mem_toList.mp herror)
      simp [errorEntry] at haction
  rw [modalRecord?_toList] at hmodal
  cases verb with
  | modalOpen =>
      rw [List.mem_singleton.mp hmodal]
      rfl
  | modalClose =>
      rw [List.mem_singleton.mp hmodal]
      rfl
  | _ => contradiction

end Past

/-- The entries of a step that makes a broadcast to everybody on the roll. -/
structure TellsBroadcast (policy : BroadcastPolicy) (i depth : Nat) (step : Step)
    (kind : BroadcastKind) (roll : List Member) (entries : List TraceEntry) : Prop where
  /-- Everybody is called, and then the step sums up. -/
  whole : policy = .isolate ∨ roll.any Member.faulty = false →
    Tells kind roll (callsOf entries) ∧
      entries = callsOf entries ++ modalEntries (i + 1) depth false step ++
        [summaryEntry (i + 1) kind roll]
  /-- Nobody is called after the first one who fails. -/
  aborted : policy = .abort → roll.any Member.faulty = true →
    ∃ sound failed rest, roll = sound ++ failed :: rest ∧
      (∀ x ∈ sound, x.faulty = false) ∧ failed.faulty = true ∧
      Tells kind (sound ++ [failed]) (callsOf entries) ∧
      entries = callsOf entries ++ [errorEntry (i + 1)
        (.refresh (.broadcastAborted kind sound.length (failed.fault kind)))]

/-- What the entries of a step say of broadcasts and modals, from the shell before it to the one
after it. -/
structure TellsTruth (policy : BroadcastPolicy) (script : List Step) (i : Nat) (step : Step)
    (before after : Shell Participant) (entries : List TraceEntry) : Prop where
  /-- They stop somebody if the step is to, and there is anybody. -/
  stops : (∃ e ∈ entries, e.action = "stop") ↔
    (step = .bare .disable ∨ step = .bare .modalOpen ∧ before.modalDepth = 0) ∧
      Past.roll (pastAt script i) ≠ []
  restarts : (∃ e ∈ entries, e.action = "restart") ↔
    (step = .bare .enable ∨ step = .bare .modalClose ∧ before.modalDepth = 1) ∧
      Past.roll (pastAt script i) ≠ []
  broadcast : ∀ kind, step.calls? before = some kind →
    TellsBroadcast policy i after.modalDepth step kind (Past.roll (pastAt script i)) entries
  depth : after.modalDepth = Past.depth (pastAt script (i + 1))
  /-- Whoever opens or closes a modal says how many are open now. -/
  modals : ∀ e ∈ entries, e.action = "modal-open" ∨ e.action = "modal-close" →
    e = modalEntry (i + 1) e.action after.modalDepth (step.calls? before).isNone

/-- The trace tells the truth about the broadcasts and the modals of every step. -/
theorem broadcast_entries_exact (policy : BroadcastPolicy) (interval : Duration) (now : Instant)
    {script : List Step} {i : Nat} {step : Step} (hstep : script[i]? = some step) :
    let before := simulate policy interval now (script.take i)
    let after := simulate policy interval now (script.take (i + 1))
    let entries := entriesOf (simulate policy interval now script).trace i
    TellsTruth policy script i step before.shell after.shell entries := by
  intro before after entries
  let roll := Past.roll (pastAt script i)
  have hmirrors := mirrors_at policy interval now script i
  have hi := pastAt_length (le_length hstep)
  have hdepth : before.shell.modalDepth = (pastAt script i).depth := hmirrors.depth
  have hafter : after.shell.modalDepth = Past.depth (step :: pastAt script i) := by
    rw [← pastAt_succ hstep]
    exact (mirrors_at policy interval now script (i + 1)).depth
  have hentries : entries = (pastAt script i).entries policy interval step :=
    entriesOf_chronicle policy interval now hstep
  have hcalls : step.calls? before.shell = (pastAt script i).broadcast? step := hmirrors.calls? step
  constructor
  case stops =>
    rw [hentries, hdepth, ← Past.broadcast?_eq_stop_iff]
    exact Past.exists_call_iff policy interval _ step .stop
  case restarts =>
    rw [hentries, hdepth, ← Past.broadcast?_eq_restart_iff]
    exact Past.exists_call_iff policy interval _ step .restart
  case broadcast =>
    intro kind hkind
    have hbroadcast := hcalls.symm.trans hkind
    have hwhole := Past.entries_of_broadcast? policy interval hbroadcast
    have htold : callsOf entries =
        (calledOf policy roll).map (Member.entry interval (i + 1) kind) := by
      rw [hentries, Past.callsOf_entries, Past.callEntries, hbroadcast]
      simp only [hi, roll]
    have hmodal := Past.modalRecord?_toList (pastAt script i) step
    rw [hbroadcast, ← hafter] at hmodal
    rw [hmodal, hi, ← htold, ← hentries] at hwhole
    constructor
    · intro hcarried
      have hcalled : calledOf policy roll = roll := by
        rcases hcarried with rfl | hsound
        · rfl
        · exact calledOf_of_sound hsound
      have habort : abortOf policy kind 0 (pastAt script i).roll = none :=
        abortOf_eq_none_iff.mpr hcarried
      refine ⟨?_, ?_⟩
      · rw [htold, hcalled]
        exact tells_entries interval (i + 1) kind roll
      · rw [habort] at hwhole
        rw [List.append_assoc]
        exact hwhole
    · rintro rfl hfaulty
      obtain ⟨sound, failed, rest, hroll, hfailed, hsound, -, hcalled, habort⟩ := roll_cut hfaulty
      have hended : abortOf .abort kind 0 (pastAt script i).roll = _ := habort kind
      refine ⟨sound, failed, rest, hroll, hsound, hfailed, ?_, ?_⟩
      · rw [htold, hcalled]
        exact tells_entries interval (i + 1) kind (sound ++ [failed])
      · rw [hended] at hwhole
        exact hwhole
  case depth => rw [hafter, pastAt_succ hstep]
  case modals =>
    intro e he haction
    have hactions : e.action ∈ step.actions := by
      have hrecorded : entries = before.recorded step := entriesOf_eq hstep
      exact ((before.next_trace step).2 e (hrecorded ▸ he)).2
    have hmodal := Past.modal_entry hactions (hentries ▸ he) haction
    rw [hi] at hmodal
    rw [hafter, hcalls]
    exact hmodal

/-- A modal over a faulty refresher between two pollers. -/
def openedOverFaulty : List Step :=
  [.named .add "f", .named .fail "x", .named .main "g", .bare .modalOpen]

theorem broadcast_entries_openedOverFaulty :
    let roll : List Member := [⟨"f", false⟩, ⟨"x", true⟩, ⟨"g", false⟩]
    let entries (policy : BroadcastPolicy) : List TraceEntry :=
      entriesOf (simulate policy (.ofSecs 10) ⟨0⟩ openedOverFaulty).trace 3
    (Tells .stop roll (callsOf (entries .isolate)) ∧
        entries .isolate = callsOf (entries .isolate) ++
          [⟨4, "modal-open", none, "depth 1"⟩] ++
          [⟨4, "broadcast", none, "stop: 3 invoked, 1 failed"⟩]) ∧
      ∃ sound failed rest, roll = sound ++ failed :: rest ∧ (∀ x ∈ sound, x.faulty = false) ∧
        failed.faulty = true ∧ Tells .stop (sound ++ [failed]) (callsOf (entries .abort)) ∧
        entries .abort = callsOf (entries .abort) ++ [errorEntry 4
          (.refresh (.broadcastAborted .stop sound.length (failed.fault .stop)))] := by
  have hstep : openedOverFaulty[3]? = some (.bare .modalOpen) := rfl
  have hisolate := broadcast_entries_exact .isolate (.ofSecs 10) ⟨0⟩ hstep
  have habort := broadcast_entries_exact .abort (.ofSecs 10) ⟨0⟩ hstep
  exact ⟨(hisolate.broadcast .stop rfl).whole (.inl rfl),
    (habort.broadcast .stop rfl).aborted rfl rfl⟩

end PageRefresh.Script
