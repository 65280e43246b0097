import PageRefresh.Proofs.Script.Mirror

/-!
The roll of the registry, and what a broadcast writes about it.

A broadcast of a simulation calls pollers, which never fail, and faulty refreshers, which always do.
So the roll alone, names in order and which of them are faulty, decides whom a broadcast calls, what
is recorded of each call and how the broadcast ends.  How the pollers are does not matter, beyond
the interval that they all poll at (`Paced`).
-/

namespace PageRefresh.Script

/-- Somebody on the roll of the registry. -/
structure Member where
  name : String
  /-- Every call to it fails. -/
  faulty : Bool
deriving DecidableEq, Repr

/-- The member that a step puts on the roll. -/
def Step.enrols? : Step → Option Member
  | .named .add name => some ⟨name, false⟩
  | .named .main name => some ⟨name, false⟩
  | .named .fail name => some ⟨name, true⟩
  | _ => none

/-- Whom the steps since the registry was emptied have put on the roll, in their order. -/
def Past.roll (past : Past) : List Member :=
  (past.takeWhile fun step => !step.resets).reverse.filterMap Step.enrols?

namespace Member

/-- The error of a faulty refresher. -/
def fault (kind : BroadcastKind) (x : Member) : RefreshError :=
  match kind with
  | .stop => .stopFailed x.name "refresher is faulty"
  | .restart => .restartFailed x.name "refresher is faulty"

def answer (kind : BroadcastKind) (x : Member) : Except RefreshError Unit :=
  if x.faulty then .error (x.fault kind) else .ok ()

/-- The entry of a call that is made in step `n`. -/
def entry (interval : Duration) (n : Nat) (kind : BroadcastKind) (x : Member) : TraceEntry where
  step := n
  action := kind.name
  target := some x.name
  detail :=
    match x.faulty, kind with
    | true, _ => "failed"
    | false, .stop => "stopped"
    | false, .restart => "polling every " ++ Nat.repr interval.secs ++ "s"

/-- The entry tells who is faulty. -/
theorem entry_detail_eq_failed_iff (interval : Duration) (n : Nat) (kind : BroadcastKind)
    (x : Member) : (x.entry interval n kind).detail = "failed" ↔ x.faulty = true := by
  cases hfaulty : x.faulty with
  | true => simp [entry, hfaulty]
  | false =>
      cases kind with
      | stop => simp [entry, hfaulty]
      | restart =>
          have hother : "polling every " ++ Nat.repr interval.secs ++ "s" ≠ "failed" := by
            intro hsame
            have hchars := congrArg String.toList hsame
            simp at hchars
          simp [entry, hfaulty, hother]

end Member

/-- Whom a broadcast calls: everybody, or nobody after the first who is faulty. -/
def calledOf (policy : BroadcastPolicy) (roll : List Member) : List Member :=
  match policy with
  | .isolate => roll
  | .abort => roll.take (roll.findIdx Member.faulty + 1)

/-- The error by which a broadcast ends early, when the first of the roll has position `index`. -/
def abortOf (policy : BroadcastPolicy) (kind : BroadcastKind) (index : Nat) (roll : List Member) :
    Option RefreshError :=
  match policy with
  | .isolate => none
  | .abort => (roll.find? Member.faulty).map fun x =>
      .broadcastAborted kind (index + roll.findIdx Member.faulty) (x.fault kind)

section

variable {m : Member} {kind : BroadcastKind} {index : Nat}

/-- Isolating failures, or after somebody who is not faulty, a broadcast goes on. -/
theorem roll_goes_on {policy : BroadcastPolicy} (kind : BroadcastKind) (index : Nat)
    (roll : List Member) (hgoes : policy = .isolate ∨ m.faulty = false) :
    calledOf policy (m :: roll) = m :: calledOf policy roll ∧
      abortOf policy kind index (m :: roll) = abortOf policy kind (index + 1) roll := by
  cases policy with
  | isolate => exact ⟨rfl, rfl⟩
  | abort =>
      have hsound : m.faulty = false := by simpa using hgoes
      simp [calledOf, abortOf, List.findIdx_cons, hsound, Nat.add_assoc, Nat.add_comm 1]

theorem roll_ends (kind : BroadcastKind) (index : Nat) (roll : List Member)
    (hfaulty : m.faulty = true) :
    calledOf .abort (m :: roll) = [m] ∧
      abortOf .abort kind index (m :: roll) =
        some (.broadcastAborted kind index (m.fault kind)) := by
  simp [calledOf, abortOf, List.findIdx_cons, hfaulty]

/-- Without a faulty member both policies call everybody. -/
theorem abortOf_eq_none_iff {policy : BroadcastPolicy} {roll : List Member} :
    abortOf policy kind index roll = none ↔
      policy = .isolate ∨ roll.any Member.faulty = false := by
  cases policy <;> simp [abortOf]

theorem calledOf_of_sound {policy : BroadcastPolicy} {roll : List Member}
    (hsound : roll.any Member.faulty = false) : calledOf policy roll = roll := by
  cases policy with
  | isolate => rfl
  | abort =>
      have hnone : roll.findIdx Member.faulty = roll.length := by
        simpa [List.findIdx_eq_length] using hsound
      rw [calledOf, hnone, List.take_of_length_le (Nat.le_succ _)]

/-- Aborting at the first failure, a broadcast calls everybody up to the first faulty member. -/
theorem roll_cut {roll : List Member} (hfaulty : roll.any Member.faulty = true) :
    ∃ before failed after, roll = before ++ failed :: after ∧ failed.faulty = true ∧
      (∀ x ∈ before, x.faulty = false) ∧ before.length = roll.findIdx Member.faulty ∧
        calledOf .abort roll = before ++ [failed] ∧
          ∀ kind, abortOf .abort kind 0 roll =
            some (.broadcastAborted kind before.length (failed.fault kind)) := by
  let i := roll.findIdx Member.faulty
  have hi : i < roll.length := List.findIdx_lt_length.mpr (List.any_eq_true.mp hfaulty)
  have hfailed : (roll[i]).faulty = true := List.findIdx_getElem
  have hfind : roll.find? Member.faulty = some roll[i] := by
    rw [List.find?_eq_some_iff_getElem]
    exact ⟨hfailed, i, hi, rfl, fun j hj => by simpa using List.not_of_lt_findIdx hj⟩
  have hlength : (roll.take i).length = i := List.length_take_of_le (Nat.le_of_lt hi)
  refine ⟨roll.take i, roll[i], roll.drop (i + 1), ?_, hfailed, ?_, hlength, ?_, ?_⟩
  · rw [List.getElem_cons_drop, List.take_append_drop]
  · intro x hx
    obtain ⟨j, hj, rfl⟩ := List.mem_take_iff_getElem.mp hx
    simpa using List.not_of_lt_findIdx (Nat.lt_of_lt_of_le hj (Nat.min_le_left _ _))
  · exact (List.take_append_getElem hi).symm
  · intro kind
    rw [abortOf, hfind, hlength, Nat.zero_add]
    rfl

end

/-! ## The roll and the registry -/

/-- The member that a refresher is, by the names of the pollers. -/
def memberOf (names : List String) : Participant → Option Member
  | .poller i => (names[i]?).map (⟨·, false⟩)
  | .faulty name => some ⟨name, true⟩

namespace Past

variable {past : Past} {step : Step}

theorem roll_cons (step : Step) (past : Past) :
    roll (step :: past) = if step.resets then [] else roll past ++ step.enrols?.toList := by
  cases hresets : step.resets with
  | true => simp [roll, hresets]
  | false => cases henrols : step.enrols? <;> simp [roll, hresets, henrols]

theorem memberOf_names_cons {x : Participant} (hmem : x ∈ registered past) :
    memberOf (names (step :: past)) x = memberOf (names past) x := by
  cases x with
  | faulty name => rfl
  | poller i =>
      have hi := lt_of_mem_registered hmem
      rw [memberOf, memberOf, names, List.getElem?_append_left hi]

theorem memberOf_registers? (step : Step) (past : Past) :
    (step.registers? (names past).length).toList.map (memberOf (names (step :: past))) =
      step.enrols?.toList.map some := by
  cases step with
  | bare verb => rfl
  | named verb name => cases verb <;> simp [Step.registers?, Step.enrols?, memberOf, names,
      Step.makes?]

/-- Everybody in the registry is on the roll, in the same order. -/
theorem registered_roll (past : Past) :
    (registered past).map (memberOf (names past)) = (roll past).map some := by
  induction past with
  | nil => rfl
  | cons step past ih =>
      rw [registered, roll_cons]
      split
      · rfl
      · rw [List.map_append, List.map_append, memberOf_registers?, ← ih]
        congr 1
        exact List.map_congr_left fun x hx => memberOf_names_cons hx

end Past

/-- The same of them are faulty. -/
theorem Past.registered_faulty (past : Past) :
    (Past.registered past).map Participant.isFaulty = past.roll.map Member.faulty := by
  induction past with
  | nil => rfl
  | cons step past ih =>
      rw [registered, roll_cons]
      split
      · rfl
      · rw [List.map_append, List.map_append, ih]
        congr 1
        cases step with
        | bare verb => rfl
        | named verb name => cases verb <;> rfl

theorem Past.registered_any_faulty (past : Past) :
    (Past.registered past).any Participant.isFaulty = past.roll.any Member.faulty := by
  have hsame := congrArg (List.any · id) past.registered_faulty
  simpa only [List.any_map, Function.id_comp] using hsame

theorem Past.registered_findIdx_faulty (past : Past) :
    (Past.registered past).findIdx Participant.isFaulty = past.roll.findIdx Member.faulty := by
  have hsame := congrArg (List.findIdx id) past.registered_faulty
  simpa only [List.findIdx_map, Function.id_comp] using hsame

/-! ## Pollers and their interval -/

theorem complete_interval {p p' : Poller String} {batch : Poller.Batch String} {fragment : String}
    {now : Instant} (hcomplete : p.complete fragment now = .ok (p', batch)) :
    p'.interval = p.interval := by
  unfold Poller.complete at hcomplete
  split at hcomplete
  · split at hcomplete
    · obtain ⟨rfl, -⟩ := Prod.mk.inj (Except.ok.inj hcomplete)
      rfl
    · contradiction
  · contradiction

theorem NamedPoller.told_interval (now : Instant) (kind : BroadcastKind) (named : NamedPoller) :
    (named.told now kind).poller.interval = named.poller.interval := by
  cases kind <;> rfl

namespace Simulation

/-- Every poller polls at the interval of the simulation. -/
structure Paced (interval : Duration) (s : Simulation) : Prop where
  pace : s.interval = interval
  pollers : ∀ (i : Nat) (named : NamedPoller), s.pollers[i]? = some named →
    named.poller.interval = interval

theorem getElem?_of_mainPoller? {s : Simulation} {i : Nat} {named : NamedPoller}
    (hmain : s.mainPoller? = some (i, named)) : s.pollers[i]? = some named := by
  unfold mainPoller? at hmain
  split at hmain
  · obtain ⟨found, hfound, hpair⟩ := Option.map_eq_some_iff.mp hmain
    obtain ⟨rfl, rfl⟩ := Prod.mk.inj hpair
    exact hfound
  · contradiction

theorem getElem?_of_newest? {s : Simulation} {name : String} {i : Nat} {named : NamedPoller}
    (hnewest : s.newest? name = some (i, named)) : s.pollers[i]? = some named := by
  obtain ⟨j, -, hfound⟩ := List.exists_of_findSome?_eq_some hnewest
  split at hfound
  · rename_i other hother
    simp only [Option.ite_none_right_eq_some, Option.some.injEq, Prod.mk.injEq] at hfound
    obtain ⟨-, rfl, rfl⟩ := hfound
    exact hother
  · contradiction

namespace Paced

variable {interval : Duration} {s s' : Simulation}

/-- Pollers are changed one by one, and none of them takes another interval. -/
theorem of_pollers {change : Nat → NamedPoller → NamedPoller} (hpaced : Paced interval s)
    (hinterval : s'.interval = s.interval)
    (hpollers : ∀ i : Nat, s'.pollers[i]? = (s.pollers[i]?).map (change i))
    (hchange : ∀ (i : Nat) (named : NamedPoller), s.pollers[i]? = some named →
      (change i named).poller.interval = named.poller.interval) : Paced interval s' := by
  refine ⟨hinterval.trans hpaced.pace, ?_⟩
  intro i named hnamed
  rw [hpollers, Option.map_eq_some_iff] at hnamed
  obtain ⟨before, hbefore, rfl⟩ := hnamed
  exact (hchange i before hbefore).trans (hpaced.pollers i before hbefore)

theorem congr (hpaced : Paced interval s)
    (hsame : (s'.interval, s'.pollers) = (s.interval, s.pollers)) : Paced interval s' := by
  obtain ⟨hinterval, hpollers⟩ := Prod.mk.inj hsame
  have hkept : ∀ i : Nat, s'.pollers[i]? = (s.pollers[i]?).map fun named => named := by
    simp [hpollers]
  exact hpaced.of_pollers hinterval hkept fun _ _ _ => rfl

theorem of_view (hpaced : Paced interval s) (hview : s'.view = s.view) : Paced interval s' :=
  hpaced.congr (congrArg (fun v => (v.1.2.2.1, v.2)) hview)

theorem set {i : Nat} {named : NamedPoller} {p : Poller String} (hpaced : Paced interval s)
    (hnamed : s.pollers[i]? = some named) (hp : p.interval = named.poller.interval) :
    Paced interval (s.setPoller i p) := by
  refine hpaced.of_pollers rfl (s.getElem?_setPoller i · p) ?_
  intro j other hother
  split
  · rename_i hij
    obtain rfl : named = other := Option.some.inj (hnamed.symm.trans (hij ▸ hother))
    exact hp
  · rfl

theorem call (hpaced : Paced interval s) (kind : BroadcastKind) (x : Participant) :
    Paced interval (Simulation.call kind x s).2 := by
  refine hpaced.of_pollers ?_ (call_pollers kind x s) ?_
  · exact congrArg (fun e => e.2.2.1) (call_setting kind x s)
  · intro i named _
    split
    · exact named.told_interval s.now kind
    · rfl

theorem broadcast (hpaced : Paced interval s) (kind : BroadcastKind) :
    Paced interval (s.broadcast kind).2 := by
  refine hpaced.of_pollers ?_ (s.broadcast_pollers kind) ?_
  · exact congrArg (fun e => e.2.2.1) (s.broadcast_setting kind)
  · intro i named _
    split
    · exact named.told_interval s.now kind
    · rfl

/-- A new poller takes the interval of the simulation. -/
theorem made {name : String} (hpaced : Paced interval s) (hinterval : s'.interval = s.interval)
    (hpollers : s'.pollers = s.pollers ++ [⟨name, .start [name] s.interval s.now⟩]) :
    Paced interval s' := by
  refine ⟨hinterval.trans hpaced.pace, ?_⟩
  intro i named hnamed
  rw [hpollers, List.getElem?_append] at hnamed
  split at hnamed
  · exact hpaced.pollers i named hnamed
  · rw [List.getElem?_singleton] at hnamed
    split at hnamed
    · rw [← Option.some.inj hnamed]
      exact hpaced.pace
    · contradiction

theorem modalStep (hpaced : Paced interval s) (action : String) (cause : Option BroadcastKind) :
    Paced interval (s.modalStep action cause).2 := by
  have hview := s.modalStep_view action cause
  cases cause with
  | none => exact hpaced.of_view hview
  | some kind => exact (hpaced.broadcast kind).of_view hview

theorem closeModal (hpaced : Paced interval s) : Paced interval s.closeModal.2 := by
  unfold Simulation.closeModal
  split
  · exact hpaced
  · apply modalStep
    exact hpaced.congr rfl

theorem after (hpaced : Paced interval s) (name : String) : Paced interval (s.after name) := by
  cases howns : s.mainPoller?.any (·.2.poller.owns name) with
  | false => exact hpaced.of_view (after_view_of_none howns)
  | true =>
      obtain ⟨⟨i, named⟩, hmain, howned⟩ := (Option.any_eq_true _ _).mp howns
      have hset : Paced interval (s.setPoller i (named.poller.enqueue name name)) :=
        hpaced.set (getElem?_of_mainPoller? hmain) rfl
      exact hset.of_view (after_view_of_some hmain howned)

theorem cycle (hpaced : Paced interval s) (name : String) : Paced interval (s.cycle name).2 := by
  cases hcycle : s.cycle name with
  | mk result s' =>
      cases result with
      | error e =>
          rw [cycle_error hcycle]
          exact hpaced
      | ok value =>
          obtain ⟨i, named, p, batch, hnewest, hcomplete⟩ := newest?_of_cycle hcycle
          obtain ⟨events, hok⟩ := cycle_ok hnewest hcomplete
          obtain ⟨-, rfl⟩ := Prod.mk.inj (hcycle.symm.trans hok)
          have hset : Paced interval (s.setPoller i p) :=
            hpaced.set (getElem?_of_newest? hnewest) (complete_interval hcomplete)
          exact hset.congr rfl

/-- Every step keeps the pace. -/
theorem next (hpaced : Paced interval s) (step : Step) : Paced interval (s.next step) := by
  have hnext : Paced interval s.atNext := hpaced.congr rfl
  refine Paced.of_view ?_ (s.next_view step)
  cases step with
  | named verb name =>
      cases verb with
      | page => exact hnext.congr rfl
      | add => exact hnext.made rfl rfl
      | main => exact hnext.made rfl rfl
      | fail => exact hnext.congr rfl
      | after => exact hnext.after name
      | cycle => exact hnext.cycle name
  | bare verb =>
      cases verb with
      | disable => exact (hnext.broadcast .stop).of_view (s.atNext.broadcastStep_view .stop)
      | enable => exact (hnext.broadcast .restart).of_view (s.atNext.broadcastStep_view .restart)
      | modalOpen =>
          apply modalStep
          exact hnext.congr rfl
      | modalClose => exact hnext.closeModal
      | clear => exact hnext.congr rfl

theorem start (policy : BroadcastPolicy) (interval : Duration) (now : Instant) :
    Paced interval (.start policy interval now) :=
  ⟨rfl, by simp [Simulation.start]⟩

theorem run (hpaced : Paced interval s) (script : List Step) : Paced interval (s.run script) := by
  induction script generalizing s with
  | nil => exact hpaced
  | cons step script ih => exact ih (hpaced.next step)

end Paced

/-! ## The calls of a broadcast -/

variable {interval : Duration} {s : Simulation}

/-- A call is answered and recorded as the roll says. -/
theorem call_member {x : Participant} {m : Member} (kind : BroadcastKind)
    (hpaced : Paced interval s) (hmember : memberOf (s.pollers.map NamedPoller.name) x = some m) :
    (call kind x s).1 = m.answer kind ∧
      (call kind x s).2.trace = s.trace ++ [m.entry interval s.step kind] := by
  cases x with
  | faulty name =>
      obtain rfl := Option.some.inj hmember
      cases kind <;> exact ⟨rfl, rfl⟩
  | poller i =>
      rw [memberOf, List.getElem?_map, Option.map_map] at hmember
      obtain ⟨named, hnamed, rfl⟩ := Option.map_eq_some_iff.mp hmember
      refine ⟨call_ok kind i s, ?_⟩
      have hinterval := hpaced.pollers i named hnamed
      cases kind <;> simp [call, hnamed, hinterval, record, log, setPoller, Member.entry,
        BroadcastKind.name]

theorem call_names (kind : BroadcastKind) (x : Participant) (s : Simulation) :
    (call kind x s).2.pollers.map NamedPoller.name = s.pollers.map NamedPoller.name := by
  apply List.ext_getElem?
  intro i
  rw [List.getElem?_map, List.getElem?_map, call_pollers, Option.map_map]
  congr 1
  funext named
  simp only [Function.comp_apply]
  split
  · exact named.told_name s.now kind
  · rfl

/-- What a broadcast to this roll answers, on top of a report so far. -/
def Answers (policy : BroadcastPolicy) (r : Report) (roll : List Member)
    (result : Except RefreshError Report) : Prop :=
  match abortOf policy r.kind r.invoked roll with
  | some e => result = .error e
  | none => ∃ r', result = .ok r' ∧ r'.kind = r.kind ∧ r'.invoked = r.invoked + roll.length ∧
      r'.failures.length = r.failures.length + roll.countP Member.faulty

theorem Answers.cons {policy : BroadcastPolicy} {r r' : Report} {m : Member} {roll : List Member}
    {result : Except RefreshError Report} (hgoes : policy = .isolate ∨ m.faulty = false)
    (hkind : r'.kind = r.kind) (hinvoked : r'.invoked = r.invoked + 1)
    (hfailures : r'.failures.length = r.failures.length + [m].countP Member.faulty)
    (hanswers : Answers policy r' roll result) : Answers policy r (m :: roll) result := by
  rw [Answers, (roll_goes_on _ _ roll hgoes).2, ← hkind, ← hinvoked]
  rw [Answers] at hanswers
  split at hanswers
  · exact hanswers
  · obtain ⟨q, hq, hqkind, hqinvoked, hqfailures⟩ := hanswers
    refine ⟨q, hq, hqkind, ?_, ?_⟩
    · rw [hqinvoked, hinvoked, List.length_cons]
      omega
    · rw [hqfailures, hfailures, Nat.add_assoc, ← List.countP_append]
      rfl

/-- A call is recorded, and then the broadcast goes on or ends with the error of the call. -/
theorem broadcastRest_member {x : Participant} {m : Member} (policy : BroadcastPolicy) (r : Report)
    (entries : List Participant) (hpaced : Paced interval s)
    (hmember : memberOf (s.pollers.map NamedPoller.name) x = some m) :
    ∃ s', (s'.trace = s.trace ++ [m.entry interval s.step r.kind] ∧ s'.step = s.step ∧
        Paced interval s' ∧ s'.pollers.map NamedPoller.name = s.pollers.map NamedPoller.name) ∧
      ((policy = .isolate ∨ m.faulty = false) ∧
          (∃ r', r'.kind = r.kind ∧ r'.invoked = r.invoked + 1 ∧
            r'.failures.length = r.failures.length + [m].countP Member.faulty ∧
            calls.broadcastRest policy r (x :: entries) s =
              calls.broadcastRest policy r' entries s') ∨
        policy = .abort ∧ m.faulty = true ∧
          calls.broadcastRest policy r (x :: entries) s =
            (.error (.broadcastAborted r.kind r.invoked (m.fault r.kind)), s')) := by
  obtain ⟨hanswer, htrace⟩ := call_member r.kind hpaced hmember
  have hstep : (call r.kind x s).2.step = s.step :=
    congrArg (fun e => e.2.2.2.2) (call_setting r.kind x s)
  have hafter : ∀ es : List Event, ((call r.kind x s).2.logAll es).trace =
        s.trace ++ [m.entry interval s.step r.kind] ∧
      ((call r.kind x s).2.logAll es).step = s.step ∧
        Paced interval ((call r.kind x s).2.logAll es) ∧
          ((call r.kind x s).2.logAll es).pollers.map NamedPoller.name =
            s.pollers.map NamedPoller.name :=
    fun es => ⟨htrace, hstep, (hpaced.call r.kind x).congr rfl, call_names r.kind x s⟩
  cases hfaulty : m.faulty with
  | false =>
      have hok : (calls.call r.kind x s).1 = .ok () := by
        rw [Member.answer, hfaulty] at hanswer
        exact hanswer
      refine ⟨(call r.kind x s).2, ?_, .inl ⟨.inr rfl, { r with invoked := r.invoked + 1 }, ?_⟩⟩
      · exact ⟨htrace, hstep, hpaced.call r.kind x, call_names r.kind x s⟩
      · exact ⟨rfl, rfl, by simp [hfaulty], Calls.broadcastRest_ok hok⟩
  | true =>
      have herror : (calls.call r.kind x s).1 = .error (m.fault r.kind) := by
        rw [Member.answer, hfaulty] at hanswer
        exact hanswer
      cases policy with
      | isolate =>
          refine ⟨_, hafter [_], .inl ⟨.inl rfl, _, ?_, ?_, ?_,
            Calls.broadcastRest_isolate herror⟩⟩
          · rfl
          · rfl
          · simp [hfaulty]
      | abort => exact ⟨_, hafter [_], .inr ⟨rfl, rfl, Calls.broadcastRest_abort herror⟩⟩

/-- The roll decides whom a broadcast calls, in what order, and how it ends. -/
theorem broadcastRest_roll {entries : List Participant} {roll : List Member}
    (policy : BroadcastPolicy) (r : Report) (hpaced : Paced interval s)
    (hroll : entries.map (memberOf (s.pollers.map NamedPoller.name)) = roll.map some) :
    (calls.broadcastRest policy r entries s).2.trace =
        s.trace ++ (calledOf policy roll).map (Member.entry interval s.step r.kind) ∧
      Answers policy r roll (calls.broadcastRest policy r entries s).1 := by
  -- The report counts the calls so far, so that positions on the roll start from it.
  induction entries generalizing r s roll with
  | nil =>
      obtain rfl : roll = [] := by simpa using hroll.symm
      cases policy <;> simp [Calls.broadcastRest, calledOf, Answers, abortOf, calls, log]
  | cons x entries ih =>
      cases roll with
      | nil => simp at hroll
      | cons m roll =>
          obtain ⟨hmember, hrest⟩ := List.cons.inj hroll
          obtain ⟨s', ⟨htrace, hstep, hpaced', hnames⟩,
            ⟨hgoes, r', hkind, hinvoked, hfailures, heq⟩ | ⟨rfl, hfaulty, heq⟩⟩ :=
              broadcastRest_member policy r entries hpaced hmember
          · rw [← hnames] at hrest
            obtain ⟨hmade, hanswers⟩ := ih r' hpaced' hrest
            rw [heq]
            refine ⟨?_, hanswers.cons hgoes hkind hinvoked hfailures⟩
            rw [hmade, htrace, hstep, hkind, (roll_goes_on r.kind 0 roll hgoes).1,
              List.map_cons, List.append_assoc]
            rfl
          · obtain ⟨hcalled, habort⟩ := roll_ends r.kind r.invoked roll hfaulty
            rw [heq, hcalled]
            refine ⟨htrace, ?_⟩
            rw [Answers, habort]

/-- A whole broadcast. -/
theorem broadcast_roll {roll : List Member} (kind : BroadcastKind) (hpaced : Paced interval s)
    (hroll : s.shell.registry.entries.map (memberOf (s.pollers.map NamedPoller.name)) =
      roll.map some) :
    (s.broadcast kind).2.trace =
        s.trace ++ (calledOf s.policy roll).map (Member.entry interval s.step kind) ∧
      Answers s.policy (.start kind) roll (s.broadcast kind).1 := by
  have hstarted : Paced interval
      (s.log ((Report.start kind).startedEvent s.policy s.shell.registry.entries.length)) :=
    hpaced.congr rfl
  exact broadcastRest_roll s.policy (.start kind) hstarted hroll

end Simulation
end PageRefresh.Script
