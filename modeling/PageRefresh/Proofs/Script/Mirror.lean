import PageRefresh.Proofs.Script.Recorded
import PageRefresh.Proofs.Script.Track

/-!
A simulation mirrors the steps that it has taken.

Whatever the state of a simulation holds, the registry, the modal depth, the run state, the count of
cycles and the waiting callbacks of every poller, can be read off the steps that led to it
(`Mirrors`).  This holds of a simulation in which nothing has happened, and every step keeps it.
-/

namespace PageRefresh.Script

def Participant.index? : Participant → Option Nat
  | poller i => some i
  | faulty _ => none

/-- The shell of the simulation is as these steps have left it, and so are the names of pollers. -/
structure Outlines (policy : BroadcastPolicy) (past : Past) (s : Simulation) : Prop where
  step : s.step = past.length
  entries : s.shell.registry.entries = Past.registered past
  main : s.shell.registry.main = (Past.main? past).map fun e => .poller e.1
  current : s.current = (Past.registered past).filterMap Participant.index?
  depth : s.shell.modalDepth = Past.depth past
  names : s.pollers.map NamedPoller.name = Past.names past
  keeps : s.policy = policy

/-- The simulation is as these steps have left it. -/
structure Mirrors (policy : BroadcastPolicy) (past : Past) (s : Simulation) : Prop
    extends Outlines policy past s where
  pollers : ∀ i named, s.pollers[i]? = some named → Tracks policy past i named

/-! ## What a mirror shows -/

/-- The broadcast that a step calls for in this state of the page shell. -/
def Step.calls? (shell : Shell Participant) : Step → Option BroadcastKind
  | .bare .disable => some .stop
  | .bare .enable => some .restart
  | .bare .modalOpen => shell.opensWith
  | .bare .modalClose => shell.closesWith.toOption.join
  | _ => none

namespace Outlines

variable {policy : BroadcastPolicy} {past : Past} {s : Simulation}

theorem length (houtlines : Outlines policy past s) :
    s.pollers.length = (Past.names past).length := by
  rw [← houtlines.names, List.length_map]

/-- A poller that was made is there, under its name. -/
theorem getElem? (houtlines : Outlines policy past s) {i : Nat} {name : String}
    (hname : (Past.names past)[i]? = some name) :
    ∃ named, s.pollers[i]? = some named ∧ named.name = name := by
  rw [← houtlines.names, List.getElem?_map, Option.map_eq_some_iff] at hname
  exact hname

/-- The main refresher is the main poller. -/
theorem mainPoller? (houtlines : Outlines policy past s) :
    s.mainPoller? = (Past.main? past).bind fun e => (s.pollers[e.1]?).map (e.1, ·) := by
  rw [Simulation.mainPoller?, houtlines.main]
  cases Past.main? past <;> rfl

end Outlines

theorem registers?_of_makes? {step : Step} {name : String} (count : Nat)
    (hmakes : step.makes? = some name) :
    step.resets = false ∧ step.registers? count = some (.poller count) := by
  unfold Step.makes? at hmakes
  split at hmakes
  · exact ⟨rfl, rfl⟩
  · exact ⟨rfl, rfl⟩
  · contradiction

theorem index?_of_makes?_eq_none {step : Step} (count : Nat) (hmakes : step.makes? = none) :
    (step.registers? count).toList.filterMap Participant.index? = [] := by
  cases step with
  | named verb name => cases verb <;> simp [Step.registers?, Step.makes?, Participant.index?] at *
  | bare verb => rfl

/-- The newest poller of a name, looked for among the registered ones. -/
theorem findSome?_registered {pollers : List NamedPoller} {past : Past}
    (hnames : ∀ (i : Nat) (name : String), (Past.names past)[i]? = some name →
      ∃ named, pollers[i]? = some named ∧ named.name = name) (name : String) :
    (((Past.registered past).filterMap Participant.index?).reverse.findSome? fun i =>
        match pollers[i]? with
        | some named => if named.name = name then some (i, named) else none
        | none => none) =
      (Past.newest? name past).bind fun i => (pollers[i]?).map (i, ·) := by
  induction past with
  | nil => rfl
  | cons step past ih =>
      have hrest := ih fun i name hname => hnames i name (Past.getElem?_names_cons step hname)
      cases hmakes : step.makes? with
      | none =>
          rw [Past.registered, Past.newest?, hmakes]
          split
          · rfl
          · rw [List.filterMap_append, index?_of_makes?_eq_none _ hmakes, List.append_nil, hrest]
            simp
      | some made =>
          obtain ⟨hresets, hregisters⟩ := registers?_of_makes? (Past.names past).length hmakes
          obtain ⟨named, hnamed, hname⟩ := hnames _ made (Past.getElem?_names_made hmakes)
          rw [Past.registered, Past.newest?, hmakes, hregisters, hresets]
          by_cases hmade : made = name
          · simp [Participant.index?, hnamed, hname, hmade]
          · simpa [Participant.index?, hnamed, hname, hmade] using hrest

namespace Outlines

variable {policy : BroadcastPolicy} {past : Past} {s : Simulation} {name : String}

theorem newest? (houtlines : Outlines policy past s) :
    s.newest? name = (Past.newest? name past).bind fun i => (s.pollers[i]?).map (i, ·) := by
  rw [Simulation.newest?, houtlines.current]
  exact findSome?_registered (fun i name hname => houtlines.getElem? hname) name

theorem opensWith (houtlines : Outlines policy past s) :
    s.shell.opensWith = Past.broadcast? past (.bare .modalOpen) := by
  rw [Shell.opensWith, Past.broadcast?, houtlines.depth]

theorem closesWith (houtlines : Outlines policy past s) :
    s.shell.closesWith =
      if Past.depth past = 0 then .error .noOpenModal
      else .ok (Past.broadcast? past (.bare .modalClose)) := by
  rw [Past.broadcast?, ← houtlines.depth, Shell.closesWith]
  split
  · rename_i hnone
    rw [if_pos hnone]
  · rename_i hlast
    simp [hlast]
  · rename_i hnone hmore
    rw [if_neg hnone, if_neg hmore]

/-- The shell calls for the broadcasts that the past calls for. -/
theorem calls? (houtlines : Outlines policy past s) (step : Step) :
    step.calls? s.shell = Past.broadcast? past step := by
  cases step with
  | named verb name => rfl
  | bare verb =>
      cases verb with
      | modalOpen => exact houtlines.opensWith
      | modalClose =>
          rw [Step.calls?, houtlines.closesWith]
          split
          · rename_i hnone
            simp [Past.broadcast?, hnone, Except.toOption]
          · rfl
      | _ => rfl

end Outlines

/-! ## The whole simulation, step by step -/

namespace Simulation

/-- What a mirror looks at, and what else does not change. -/
def view (s : Simulation) :
    (Shell Participant × List Nat × Duration × Instant × Nat) × List NamedPoller :=
  (s.setting, s.pollers)

theorem getElem?_setPoller (s : Simulation) (i j : Nat) (p : Poller String) :
    (s.setPoller i p).pollers[j]? =
      (s.pollers[j]?).map fun named => if i = j then { named with poller := p } else named := by
  rw [setPoller, List.getElem?_modify]
  rfl

theorem setPoller_names (s : Simulation) (i : Nat) (p : Poller String) :
    (s.setPoller i p).pollers.map NamedPoller.name = s.pollers.map NamedPoller.name := by
  apply List.ext_getElem?
  intro j
  rw [List.getElem?_map, List.getElem?_map, getElem?_setPoller, Option.map_map]
  congr 1
  funext named
  simp only [Function.comp_apply]
  split <;> rfl

theorem broadcastStep_view (s : Simulation) (kind : BroadcastKind) :
    (s.broadcastStep kind).2.view = (s.broadcast kind).2.view := by
  unfold broadcastStep
  split <;> simp [*, recordReport, record, view, setting]

theorem modalStep_view (s : Simulation) (action : String) (cause : Option BroadcastKind) :
    (s.modalStep action cause).2.view =
      match cause with
      | some kind => (s.broadcast kind).2.view
      | none => s.view := by
  cases cause with
  | none => rfl
  | some kind =>
      simp only [modalStep]
      split <;> simp [*, recordReport, record, view, setting]

theorem next_view (s : Simulation) (step : Step) :
    (s.next step).view = (s.atNext.apply step).2.view := by
  cases happly : s.atNext.apply step with
  | mk result s' =>
      cases result with
      | ok value => rw [next_of_ok happly]
      | error e =>
          rw [next_of_error happly]
          rfl

end Simulation

/-! ### The outline -/

namespace Outlines

variable {policy : BroadcastPolicy} {past : Past} {s s' : Simulation}

/-- Only the shell, the names of pollers and which of them are current are looked at. -/
theorem congr (houtlines : Outlines policy past s) (hsetting : s'.setting = s.setting)
    (hnames : s'.pollers.map NamedPoller.name = s.pollers.map NamedPoller.name) :
    Outlines policy past s' := by
  simp only [Simulation.setting, Prod.mk.injEq] at hsetting
  obtain ⟨hshell, hcurrent, -, -, hstep⟩ := hsetting
  refine ⟨?_, ?_, ?_, ?_, ?_, ?_, ?_⟩
  · rw [hstep, houtlines.step]
  · rw [hshell, houtlines.entries]
  · rw [hshell, houtlines.main]
  · rw [hcurrent, houtlines.current]
  · rw [hshell, houtlines.depth]
  · rw [hnames, houtlines.names]
  · rw [Simulation.policy, hshell]
    exact houtlines.keeps

theorem registered_bare {verb : BareVerb} (hverb : verb ≠ .clear) :
    Past.registered (.bare verb :: past) = Past.registered past := by
  cases verb with
  | clear => contradiction
  | _ => simp [Past.registered, Step.resets, Step.registers?]

/-- A step that stands alone, and does not clear the registry, changes the modal depth at most. -/
theorem bare {verb : BareVerb} (houtlines : Outlines policy past s) (hverb : verb ≠ .clear)
    (hstep : s'.step = s.step + 1) (hregistry : s'.shell.registry = s.shell.registry)
    (hcurrent : s'.current = s.current) (hpollers : s'.pollers = s.pollers)
    (hdepth : s'.shell.modalDepth = Past.depth (.bare verb :: past)) :
    Outlines policy (.bare verb :: past) s' where
  step := by rw [hstep, houtlines.step, List.length_cons]
  entries := by rw [hregistry, houtlines.entries, registered_bare hverb]
  main := by
    rw [hregistry, houtlines.main]
    cases verb with
    | clear => contradiction
    | _ => simp [Past.main?, Step.resets]
  current := by rw [hcurrent, houtlines.current, registered_bare hverb]
  depth := hdepth
  names := by
    rw [hpollers, houtlines.names]
    simp [Past.names, Step.makes?]
  keeps := by
    rw [Simulation.policy, hregistry]
    exact houtlines.keeps

end Outlines

namespace Mirrors

variable {policy : BroadcastPolicy} {past : Past} {s s' : Simulation}

theorem congr (hmirrors : Mirrors policy past s) (hview : s'.view = s.view) :
    Mirrors policy past s' := by
  obtain ⟨hsetting, hpollers⟩ := Prod.mk.inj hview
  refine ⟨hmirrors.toOutlines.congr hsetting (by rw [hpollers]), ?_⟩
  rw [hpollers]
  exact hmirrors.pollers

/-- Steps that tell no poller anything, complete no cycle and let no callback wait. -/
theorem same {step : Step} (hmirrors : Mirrors policy past s)
    (houtlines : Outlines policy (step :: past) s')
    (hpollers : s'.pollers = s.pollers) (hbroadcast : Past.broadcast? past step = none)
    (hcompletes : ∀ i, Past.completes? policy past step ≠ some i)
    (hqueues : ∀ i, Past.queues? past step ≠ some i) : Mirrors policy (step :: past) s' := by
  refine ⟨houtlines, ?_⟩
  rw [hpollers]
  intro i named hnamed
  exact (hmirrors.pollers i named hnamed).same hbroadcast (hcompletes i) (hqueues i)

/-- A step that stands alone and makes a broadcast. -/
theorem broadcast {verb : BareVerb} {kind : BroadcastKind} (hmirrors : Mirrors policy past s)
    (houtlines : Outlines policy (.bare verb :: past) s') (hverb : verb ≠ .clear)
    (hpollers : s'.pollers = s.pollers)
    (hbroadcast : Past.broadcast? past (.bare verb) = some kind) :
    Mirrors policy (.bare verb :: past) (s'.broadcast kind).2 := by
  have hreached : reachedOf s'.policy s'.shell.registry.entries = Past.reached policy past := by
    rw [houtlines.keeps, houtlines.entries, Outlines.registered_bare hverb, Past.reached]
  refine ⟨houtlines.congr (s'.broadcast_setting kind) ?_, ?_⟩
  · apply List.ext_getElem?
    intro i
    rw [List.getElem?_map, List.getElem?_map, s'.broadcast_pollers kind i, Option.map_map]
    congr 1
    funext named
    simp only [Function.comp_apply]
    split
    · exact named.told_name s'.now kind
    · rfl
  · intro i named hnamed
    rw [s'.broadcast_pollers kind i, hreached, hpollers, Option.map_eq_some_iff] at hnamed
    obtain ⟨before, hbefore, rfl⟩ := hnamed
    exact (hmirrors.pollers i before hbefore).told hbroadcast (by simp [Past.completes?])
      (by simp [Past.queues?]) s'.now

/-! ### Broadcasts and modals -/

theorem broadcastStep {verb : BareVerb} {kind : BroadcastKind} (hmirrors : Mirrors policy past s)
    (hverb : verb ≠ .clear) (hdepth : Past.depth (.bare verb :: past) = Past.depth past)
    (hbroadcast : Past.broadcast? past (.bare verb) = some kind) :
    Mirrors policy (.bare verb :: past) (s.atNext.broadcastStep kind).2 := by
  have houtlines : Outlines policy (.bare verb :: past) s.atNext :=
    hmirrors.toOutlines.bare hverb rfl rfl rfl rfl (hmirrors.depth.trans hdepth.symm)
  exact (hmirrors.broadcast houtlines hverb rfl hbroadcast).congr
    (s.atNext.broadcastStep_view kind)

theorem modalStep {verb : BareVerb} (hmirrors : Mirrors policy past s)
    (houtlines : Outlines policy (.bare verb :: past) s') (hverb : verb ≠ .clear)
    (hpollers : s'.pollers = s.pollers) (action : String) :
    Mirrors policy (.bare verb :: past)
      (s'.modalStep action (Past.broadcast? past (.bare verb))).2 := by
  have hview := s'.modalStep_view action (Past.broadcast? past (.bare verb))
  cases hbroadcast : Past.broadcast? past (.bare verb) with
  | some kind =>
      rw [hbroadcast] at hview
      exact (hmirrors.broadcast houtlines hverb hpollers hbroadcast).congr hview
  | none =>
      rw [hbroadcast] at hview
      exact (hmirrors.same houtlines hpollers hbroadcast (by simp [Past.completes?])
        (by simp [Past.queues?])).congr hview

theorem openModal (hmirrors : Mirrors policy past s) :
    Mirrors policy (.bare .modalOpen :: past) s.atNext.openModal.2 := by
  have houtlines : Outlines policy (.bare .modalOpen :: past)
      ({ s.atNext with shell := s.shell.openModal }.log s.shell.openModal.openedEvent) := by
    refine hmirrors.toOutlines.bare (by decide) rfl rfl rfl rfl ?_
    simp [Simulation.log, Shell.openModal, Past.depth, hmirrors.depth]
  have hopened := hmirrors.modalStep houtlines (by decide) rfl "modal-open"
  rw [← hmirrors.opensWith] at hopened
  exact hopened

theorem closeModal (hmirrors : Mirrors policy past s) :
    Mirrors policy (.bare .modalClose :: past) s.atNext.closeModal.2 := by
  have hcloses := hmirrors.closesWith
  by_cases hdepth : Past.depth past = 0
  · rw [if_pos hdepth] at hcloses
    have hsame : s.atNext.closeModal.2 = s.atNext := by
      simp [Simulation.closeModal, Simulation.atNext, hcloses]
    rw [hsame]
    refine hmirrors.same ?_ rfl ?_ (by simp [Past.completes?]) (by simp [Past.queues?])
    · refine hmirrors.toOutlines.bare (by decide) rfl rfl rfl rfl ?_
      simp [Simulation.atNext, hmirrors.depth, Past.depth, hdepth]
    · simp [Past.broadcast?, hdepth]
  · rw [if_neg hdepth] at hcloses
    have houtlines : Outlines policy (.bare .modalClose :: past)
        ({ s.atNext with shell := s.shell.closeModal }.log s.shell.closeModal.closedEvent) := by
      refine hmirrors.toOutlines.bare (by decide) rfl rfl rfl rfl ?_
      simp [Simulation.log, Shell.closeModal, Past.depth, hmirrors.depth]
    have hsame : s.atNext.closeModal.2 =
        (({ s.atNext with shell := s.shell.closeModal }.log
          s.shell.closeModal.closedEvent).modalStep "modal-close"
            (Past.broadcast? past (.bare .modalClose))).2 := by
      simp [Simulation.closeModal, Simulation.atNext, hcloses]
    rw [hsame]
    exact hmirrors.modalStep houtlines (by decide) rfl "modal-close"

/-! ### Registrations -/

/-- The registry is emptied. -/
theorem reset {step : Step} (hmirrors : Mirrors policy past s) (hresets : step.resets = true)
    (hstep : s'.step = s.step + 1) (hregistry : s'.shell.registry = s.shell.registry.clear)
    (hcurrent : s'.current = []) (hpollers : s'.pollers = s.pollers)
    (hdepth : s'.shell.modalDepth = Past.depth (step :: past)) :
    Mirrors policy (step :: past) s' := by
  obtain ⟨hregistered, hmain, hnames, hbroadcast, hcompletes, hqueues⟩ :=
    Past.of_resets policy past hresets
  have houtlines : Outlines policy (step :: past) s' := by
    refine ⟨?_, ?_, ?_, ?_, hdepth, ?_, ?_⟩
    · rw [hstep, hmirrors.step, List.length_cons]
    · rw [hregistry, hregistered]
      rfl
    · rw [hregistry, hmain]
      rfl
    · rw [hcurrent, hregistered]
      rfl
    · rw [hpollers, hmirrors.names, hnames]
    · rw [Simulation.policy, hregistry]
      exact hmirrors.keeps
  exact hmirrors.same houtlines hpollers hbroadcast (by simp [hcompletes]) (by simp [hqueues])

theorem enterPage (hmirrors : Mirrors policy past s) (name : String) :
    Mirrors policy (.named .page name :: past) (s.atNext.enterPage name) := by
  refine hmirrors.reset rfl rfl ?_ rfl rfl rfl
  have hleave : s.shell.leave.registry = s.shell.registry.clear := by
    simp only [Shell.leave]
    split
    · rename_i hempty
      have hentries : s.shell.registry.entries = [] := List.isEmpty_iff.mp hempty
      have hmain : s.shell.registry.main = none := by
        rw [hmirrors.main, Option.map_eq_none_iff, Option.eq_none_iff_forall_ne_some]
        intro e hmain
        have hmem := Past.mem_registered_of_main? hmain
        rw [← hmirrors.entries, hentries] at hmem
        contradiction
      rw [Registry.clear, ← hentries, ← hmain]
    · rfl
  exact hleave

theorem clear (hmirrors : Mirrors policy past s) :
    Mirrors policy (.bare .clear :: past) s.atNext.clear :=
  hmirrors.reset rfl rfl rfl rfl rfl hmirrors.depth

/-- A new poller is registered. -/
theorem made {step : Step} {name : String} (hmirrors : Mirrors policy past s)
    (hmakes : step.makes? = some name) (hstep : s'.step = s.step + 1)
    (hentries : s'.shell.registry.entries =
      s.shell.registry.entries ++ [.poller s.pollers.length])
    (hmain : s'.shell.registry.main = (Past.main? (step :: past)).map fun e => .poller e.1)
    (hkeeps : s'.policy = s.policy) (hdepth : s'.shell.modalDepth = s.shell.modalDepth)
    (hcurrent : s'.current = s.current ++ [s.pollers.length])
    (hpollers : s'.pollers = s.pollers ++ [⟨name, .start [name] s.interval s.now⟩]) :
    Mirrors policy (step :: past) s' := by
  obtain ⟨hregistered, hnames, hsame, hbroadcast, hcompletes, hqueues⟩ :=
    Past.of_makes policy past hmakes
  refine ⟨⟨?_, ?_, hmain, ?_, ?_, ?_, hkeeps.trans hmirrors.keeps⟩, ?_⟩
  · rw [hstep, hmirrors.step, List.length_cons]
  · rw [hentries, hmirrors.entries, hregistered, hmirrors.length]
  · rw [hcurrent, hmirrors.current, hregistered, hmirrors.length, List.filterMap_append]
    rfl
  · rw [hdepth, hmirrors.depth, hsame]
  · rw [hpollers, List.map_append, hmirrors.names, hnames]
    rfl
  · intro i named hnamed
    have htracks : Tracks policy past i named := by
      rw [hpollers, List.getElem?_append] at hnamed
      split at hnamed
      · exact hmirrors.pollers i named hnamed
      · rename_i hi
        rw [List.getElem?_singleton] at hnamed
        split at hnamed
        · rw [← Option.some.inj hnamed]
          apply Tracks.start
          rw [← hmirrors.length]
          omega
        · contradiction
    exact htracks.same hbroadcast (by simp [hcompletes]) (by simp [hqueues])

theorem add (hmirrors : Mirrors policy past s) (name : String) :
    Mirrors policy (.named .add name :: past) (s.atNext.add name) :=
  hmirrors.made rfl rfl rfl hmirrors.main rfl rfl rfl rfl

theorem addMain (hmirrors : Mirrors policy past s) (name : String) :
    Mirrors policy (.named .main name :: past) (s.atNext.addMain name) := by
  refine hmirrors.made rfl rfl rfl ?_ rfl rfl rfl rfl
  rw [Past.main?, Option.map_some, ← hmirrors.length]
  rfl

theorem addFaulty (hmirrors : Mirrors policy past s) (name : String) :
    Mirrors policy (.named .fail name :: past) (s.atNext.addFaulty name) := by
  have hregistered : Past.registered (.named .fail name :: past) =
      Past.registered past ++ [.faulty name] := rfl
  refine hmirrors.same ⟨?_, ?_, hmirrors.main, ?_, hmirrors.depth, ?_, hmirrors.keeps⟩ rfl rfl
    (by simp [Past.completes?]) (by simp [Past.queues?])
  · exact congrArg (· + 1) hmirrors.step
  · rw [hregistered, ← hmirrors.entries]
    rfl
  · rw [hregistered, List.filterMap_append, ← hmirrors.current]
    exact (List.append_nil _).symm
  · rw [Past.names, ← hmirrors.names]
    exact (List.append_nil _).symm

/-! ### Callbacks and cycles -/

/-- One poller is changed. -/
theorem set {step : Step} {i : Nat} {named : NamedPoller} {p : Poller String}
    (hmirrors : Mirrors policy past s) (houtlines : Outlines policy (step :: past) s')
    (hpollers : s'.pollers = (s.setPoller i p).pollers) (hnamed : s.pollers[i]? = some named)
    (htracks : Tracks policy (step :: past) i { named with poller := p })
    (hbroadcast : Past.broadcast? past step = none)
    (hcompletes : ∀ j, j ≠ i → Past.completes? policy past step ≠ some j)
    (hqueues : ∀ j, j ≠ i → Past.queues? past step ≠ some j) :
    Mirrors policy (step :: past) s' := by
  refine ⟨houtlines, ?_⟩
  intro j other hother
  rw [hpollers, Simulation.getElem?_setPoller] at hother
  by_cases hij : i = j
  · subst hij
    simp only [hnamed, ↓reduceIte, Option.map_some, Option.some.injEq] at hother
    rw [← hother]
    exact htracks
  · have hji : j ≠ i := fun h => hij h.symm
    simp only [hij, ↓reduceIte, Option.map_id_fun', id_eq] at hother
    exact (hmirrors.pollers j other hother).same hbroadcast (hcompletes j hji) (hqueues j hji)

/-- A step that queues a callback or completes a cycle leaves the outline as it is. -/
theorem outlines {verb : NamedVerb} {name : String} (hmirrors : Mirrors policy past s)
    (hverb : verb = .after ∨ verb = .cycle) (hsetting : s'.setting = s.atNext.setting)
    (hnames : s'.pollers.map NamedPoller.name = s.pollers.map NamedPoller.name) :
    Outlines policy (.named verb name :: past) s' := by
  obtain ⟨hregistered, hmain, hsame, hdepth⟩ := Past.of_callback past name hverb
  have hnext : Outlines policy (.named verb name :: past) s.atNext := by
    refine ⟨congrArg (· + 1) hmirrors.step, ?_, ?_, ?_, ?_, ?_, hmirrors.keeps⟩
    · rw [hregistered]
      exact hmirrors.entries
    · rw [hmain]
      exact hmirrors.main
    · rw [hregistered]
      exact hmirrors.current
    · rw [hdepth]
      exact hmirrors.depth
    · rw [hsame]
      exact hmirrors.names
  exact hnext.congr hsetting hnames

end Mirrors

namespace Simulation

theorem after_view_of_none {s : Simulation} {name : String}
    (hnone : s.mainPoller?.any (·.2.poller.owns name) = false) : (s.after name).view = s.view := by
  cases hmain : s.mainPoller? with
  | none =>
      simp only [after, hmain]
      rfl
  | some found =>
      obtain ⟨i, named⟩ := found
      rw [hmain, Option.any_some] at hnone
      simp only [after, hmain, hnone]
      rfl

theorem after_view_of_some {s : Simulation} {name : String} {i : Nat} {named : NamedPoller}
    (hmain : s.mainPoller? = some (i, named)) (howns : named.poller.owns name = true) :
    (s.after name).view = (s.setPoller i (named.poller.enqueue name name)).view := by
  simp only [after, hmain, howns]
  rfl

end Simulation

namespace Mirrors

variable {policy : BroadcastPolicy} {past : Past} {s s' : Simulation}

/-- What queueing a callback comes to: it does not wait, or the main poller has its name. -/
theorem after_cases (hmirrors : Mirrors policy past s) (name : String) :
    (Past.queues? past (.named .after name) = none ∧
      s.mainPoller?.any (·.2.poller.owns name) = false) ∨
    ∃ i named, Past.queues? past (.named .after name) = some i ∧
      s.mainPoller? = some (i, named) ∧ s.pollers[i]? = some named ∧ named.name = name ∧
        named.poller.owns name = true := by
  have hmain := hmirrors.mainPoller?
  cases hmain? : Past.main? past with
  | none =>
      rw [hmain?, Option.bind_none] at hmain
      exact .inl ⟨by simp [Past.queues?, hmain?], by rw [hmain]; rfl⟩
  | some found =>
      obtain ⟨i, name'⟩ := found
      obtain ⟨named, hnamed, rfl⟩ := hmirrors.getElem? (Past.main?_name hmain?)
      have howns : named.poller.owns name = decide (named.name = name) := by
        simp [Poller.owns, (hmirrors.pollers i named hnamed).fragments, eq_comm]
      simp only [hmain?, Option.bind_some, hnamed, Option.map_some] at hmain
      by_cases hname : named.name = name
      · exact .inr ⟨i, named, by simp [Past.queues?, hmain?, hname], hmain, hnamed, hname,
          by simp [howns, hname]⟩
      · exact .inl ⟨by simp [Past.queues?, hmain?, hname], by simp [hmain, howns, hname]⟩

theorem after (hmirrors : Mirrors policy past s) (name : String) :
    Mirrors policy (.named .after name :: past) (s.atNext.after name) := by
  rcases hmirrors.after_cases name with ⟨hqueues, hnone⟩ |
    ⟨i, named, hqueues, hmain, hnamed, rfl, howns⟩
  · have hview : (s.atNext.after name).view = s.atNext.view :=
      Simulation.after_view_of_none hnone
    refine Mirrors.congr ?_ hview
    exact hmirrors.same (hmirrors.outlines (.inl rfl) rfl rfl) rfl rfl (by simp [Past.completes?])
      (by simp [hqueues])
  · have hview : (s.atNext.after named.name).view = _ :=
      Simulation.after_view_of_some hmain howns
    refine Mirrors.congr ?_ hview
    refine hmirrors.set ?_ rfl hnamed ((hmirrors.pollers i named hnamed).queued hqueues) rfl ?_ ?_
    · exact hmirrors.outlines (.inl rfl) rfl (s.setPoller_names i _)
    · simp [Past.completes?]
    · intro j hji hqueues'
      exact hji (Option.some.inj (hqueues'.symm.trans hqueues))

/-- What a cycle step comes to: nobody has the name, the newest who has it is stopped, or it
completes a cycle. -/
theorem cycle_cases (hmirrors : Mirrors policy past s) (name : String) :
    (Past.newest? name past = none ∧
      s.atNext.cycle name = (.error (.refresh (.unknownFragment name)), s.atNext)) ∨
    (∃ i, Past.newest? name past = some i ∧ Past.told? policy i past = some .stop ∧
      s.atNext.cycle name = (.error (.refresh (.notRunning name)), s.atNext)) ∨
    ∃ i named p batch, Past.newest? name past = some i ∧ Past.told? policy i past ≠ some .stop ∧
      s.pollers[i]? = some named ∧ named.name = name ∧
        s.atNext.newest? name = some (i, named) ∧
          named.poller.complete named.name s.now = .ok (p, batch) ∧
            p.cycles name = Past.completed policy i past + 1 ∧
              batch.callbacks = List.replicate (Past.waiting policy i past).length name := by
  have hnewest : s.atNext.newest? name = _ := hmirrors.newest?
  cases hnewest? : Past.newest? name past with
  | none =>
      rw [hnewest?, Option.bind_none] at hnewest
      exact .inl ⟨rfl, by simp [Simulation.cycle, hnewest]⟩
  | some i =>
      obtain ⟨named, hnamed, rfl⟩ := hmirrors.getElem? (Past.newest?_name hnewest?)
      have hcomplete := (hmirrors.pollers i named hnamed).complete_eq s.now
      rw [hnewest?, Option.bind_some, hnamed, Option.map_some] at hnewest
      by_cases hstopped : Past.told? policy i past = some .stop
      · rw [if_pos hstopped] at hcomplete
        have hcomplete' : named.poller.complete named.name s.atNext.now = _ := hcomplete
        refine .inr (.inl ⟨i, rfl, hstopped, ?_⟩)
        simp [Simulation.cycle, hnewest, hcomplete']
      · rw [if_neg hstopped] at hcomplete
        exact .inr (.inr ⟨i, named, _, _, rfl, hstopped, hnamed, rfl, hnewest, hcomplete,
          by simp, rfl⟩)

theorem cycle (hmirrors : Mirrors policy past s) (name : String) :
    Mirrors policy (.named .cycle name :: past) (s.atNext.cycle name).2 := by
  have hfails : Past.completes? policy past (.named .cycle name) = none →
      Mirrors policy (.named .cycle name :: past) s.atNext := by
    intro hcompletes
    exact hmirrors.same (hmirrors.outlines (.inr rfl) rfl rfl) rfl rfl (by simp [hcompletes])
      (by simp [Past.queues?])
  rcases hmirrors.cycle_cases name with ⟨hnone, hcycle⟩ | ⟨i, hnewest, hstopped, hcycle⟩ |
    ⟨i, named, p, batch, hnewest, hruns, hnamed, rfl, hfound, hcomplete, -, -⟩
  · rw [hcycle]
    exact hfails (by simp [Past.completes?, hnone])
  · rw [hcycle]
    exact hfails (by simp [Past.completes?, hnewest, hstopped])
  · have hcompletes := Past.completes?_eq_some_iff.mpr ⟨hnewest, hruns⟩
    obtain ⟨events, hcycle⟩ := Simulation.cycle_ok hfound hcomplete
    rw [hcycle]
    refine hmirrors.set ?_ rfl hnamed
      ((hmirrors.pollers i named hnamed).completed hcompletes hcomplete) rfl ?_ ?_
    · exact hmirrors.outlines (.inr rfl) rfl (s.setPoller_names i p)
    · intro j hji hcompletes'
      exact hji (Option.some.inj (hcompletes'.symm.trans hcompletes))
    · simp [Past.queues?]

/-! ### Whole scripts -/

/-- Every step keeps the mirror. -/
theorem next (hmirrors : Mirrors policy past s) (step : Step) :
    Mirrors policy (step :: past) (s.next step) := by
  refine Mirrors.congr ?_ (s.next_view step)
  cases step with
  | named verb name =>
      cases verb with
      | page => exact hmirrors.enterPage name
      | add => exact hmirrors.add name
      | main => exact hmirrors.addMain name
      | fail => exact hmirrors.addFaulty name
      | after => exact hmirrors.after name
      | cycle => exact hmirrors.cycle name
  | bare verb =>
      cases verb with
      | disable => exact hmirrors.broadcastStep (by decide) rfl rfl
      | enable => exact hmirrors.broadcastStep (by decide) rfl rfl
      | modalOpen => exact hmirrors.openModal
      | modalClose => exact hmirrors.closeModal
      | clear => exact hmirrors.clear

theorem start (policy : BroadcastPolicy) (interval : Duration) (now : Instant) :
    Mirrors policy [] (.start policy interval now) :=
  ⟨⟨rfl, rfl, rfl, rfl, rfl, rfl, rfl⟩, by simp [Simulation.start]⟩

theorem run (hmirrors : Mirrors policy past s) (script : List Step) :
    Mirrors policy (script.reverse ++ past) (s.run script) := by
  induction script generalizing past s with
  | nil => exact hmirrors
  | cons step script ih =>
      rw [Simulation.run_cons, List.reverse_cons, List.append_assoc]
      exact ih (hmirrors.next step)

end Mirrors

/-- A script leaves its mirror behind. -/
theorem mirrors_simulate (policy : BroadcastPolicy) (interval : Duration) (now : Instant)
    (script : List Step) : Mirrors policy script.reverse (simulate policy interval now script) := by
  have hrun := (Mirrors.start policy interval now).run script
  rw [List.append_nil] at hrun
  exact hrun

end PageRefresh.Script
