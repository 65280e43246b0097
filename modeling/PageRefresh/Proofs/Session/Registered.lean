import PageRefresh.Proofs.Session.Stage
import PageRefresh.Proofs.Session.Tidy
import Mathlib.Data.List.DropRight
import Mathlib.Data.List.Induction

/-!
Who is registered.

To the registry a play is a word of acts: a refresher is added, one is added as the main one, the
registry is cleared.  What it holds can be read off this word (`foldl_apply_empty`): those who were
added since it was last cleared, and the last main one among them.  Whoever a broadcast calls was
registered when the broadcast began, so somebody who was registered before the registry was cleared
is called again only by a broadcast that was already under way (`Draws`).
-/

namespace PageRefresh

/-! ## Acts on a registry -/

/-- Something that happens to a registry. -/
inductive RegistryAct (ρ : Type) where
  | added (x : ρ)
  | addedMain (x : ρ)
  | cleared

namespace RegistryAct

variable {ρ : Type}

/-- Who is registered by the act. -/
def registered? : RegistryAct ρ → Option ρ
  | added x => some x
  | addedMain x => some x
  | cleared => none

def main? : RegistryAct ρ → Option ρ
  | addedMain x => some x
  | _ => none

def isCleared : RegistryAct ρ → Bool
  | cleared => true
  | _ => false

/-- What happened since the registry was last cleared. -/
def sinceCleared (acts : List (RegistryAct ρ)) : List (RegistryAct ρ) :=
  acts.rtakeWhile (!·.isCleared)

/-- Who was registered by the acts, first to last. -/
def registered (acts : List (RegistryAct ρ)) : List ρ :=
  acts.filterMap registered?

/-- Who was registered as the main one, first to last. -/
def mains (acts : List (RegistryAct ρ)) : List ρ :=
  acts.filterMap main?

theorem registered_append (first second : List (RegistryAct ρ)) :
    registered (first ++ second) = registered first ++ registered second :=
  List.filterMap_append

theorem registered_singleton (a : RegistryAct ρ) : registered [a] = a.registered?.toList := by
  cases ha : a.registered? <;> simp [registered, ha]

end RegistryAct

namespace Registry

variable {ρ : Type}

/-- The registry after an act. -/
def apply (r : Registry ρ) : RegistryAct ρ → Registry ρ
  | .added x => r.add x
  | .addedMain x => r.addMain x
  | .cleared => r.clear

theorem apply_eq (r : Registry ρ) {a : RegistryAct ρ} (hstays : a.isCleared = false) :
    r.apply a = ⟨r.policy, r.entries ++ a.registered?.toList, a.main?.or r.main⟩ := by
  cases a with
  | cleared => contradiction
  | _ => rfl

/-- From an empty registry on, the acts since the last clearing decide. -/
theorem foldl_apply_empty (policy : BroadcastPolicy) (acts : List (RegistryAct ρ)) :
    acts.foldl apply (empty policy) =
      ⟨policy, RegistryAct.registered (RegistryAct.sinceCleared acts),
        (RegistryAct.mains (RegistryAct.sinceCleared acts)).getLast?⟩ := by
  induction acts using List.reverseRecOn with
  | nil => rfl
  | append_singleton acts a ih =>
      rw [List.foldl_append, ih, List.foldl_cons, List.foldl_nil]
      cases hcleared : a.isCleared with
      | true =>
          have hnone : RegistryAct.sinceCleared (acts ++ [a]) = [] :=
            List.rtakeWhile_concat_neg _ _ _ (by simp [hcleared])
          cases a with
          | cleared =>
              rw [hnone]
              rfl
          | _ => contradiction
      | false =>
          have hsince : RegistryAct.sinceCleared (acts ++ [a]) =
              RegistryAct.sinceCleared acts ++ [a] :=
            List.rtakeWhile_concat_pos _ _ _ (by simp [hcleared])
          rw [apply_eq _ hcleared, hsince]
          cases hmain : a.main? <;> cases hregistered : a.registered? <;>
            simp [RegistryAct.registered, RegistryAct.mains, hmain, hregistered]

/-- Without a clearing nobody is taken out. -/
theorem entries_prefix_foldl {acts : List (RegistryAct ρ)}
    (hstays : ∀ a ∈ acts, a.isCleared = false) (r : Registry ρ) :
    r.entries <+: (acts.foldl apply r).entries := by
  induction acts generalizing r with
  | nil => exact List.prefix_rfl
  | cons a acts ih =>
      obtain ⟨ha, hacts⟩ := List.forall_mem_cons.mp hstays
      have hfirst : r.entries <+: (r.apply a).entries := by
        rw [apply_eq r ha]
        exact List.prefix_append _ _
      exact hfirst.trans (ih hacts (r.apply a))

/-- An act registers nobody but the one it is about. -/
theorem apply_drawn (r : Registry ρ) (a : RegistryAct ρ) :
    (r.apply a).entries ⊆ r.entries ++ a.registered?.toList ∧
      (r.apply a).main.toList ⊆ r.main.toList ++ a.registered?.toList := by
  cases a with
  | cleared => simp [apply, clear]
  | added x => simp [apply, add, RegistryAct.registered?]
  | addedMain x => simp [apply, addMain, RegistryAct.registered?]

end Registry

namespace Session

open RegistryAct

/-! ## The acts of a play -/

namespace World

/-- What an operation does to the registry. -/
def registryAct? (w : World) : Command → Option (RegistryAct Refresher)
  | .add id => (w.find? id).map .added
  | .addMain id => (w.find? id).map .addedMain
  | .readdMain => some (.addedMain w.main)
  | .clear => some .cleared
  | .enterPage _ => some .cleared
  | .leave => some .cleared
  | _ => none

theorem shellAfter_registry {w : World} (htidy : w.shell.registry.Tidy) (c : Command) :
    (w.shellAfter c).registry =
      ((w.registryAct? c).map w.shell.registry.apply).getD w.shell.registry := by
  cases c with
  | add id =>
      rw [shellAfter, registryAct?]
      cases w.find? id <;> rfl
  | addMain id =>
      rw [shellAfter, registryAct?]
      cases w.find? id <;> rfl
  | closeModal =>
      rw [shellAfter]
      cases w.shell.closesWith <;> rfl
  | enterPage name => exact Shell.leave_registry htidy
  | leave => exact Shell.leave_registry htidy
  | _ => rfl

/-- What acts on the registry begins no broadcast. -/
theorem begin_of_registryAct (w : World) {c : Command} {a : RegistryAct Refresher}
    (hact : w.registryAct? c = some a) (now : Instant) (asker : Asker) :
    (w.begin now asker c).2 = [] := by
  cases c with
  | add id => exact withRefresher_elim (P := fun r => r.2 = []) (fun _ => rfl) rfl
  | addMain id => exact withRefresher_elim (P := fun r => r.2 = []) (fun _ => rfl) rfl
  | readdMain => rfl
  | clear => rfl
  | enterPage name => rfl
  | leave => rfl
  | _ => contradiction

end World

namespace Machine

variable {m : Machine}

/-- What a turn does to the registry. -/
def registryAct? (m : Machine) (t : Turn) : Option (RegistryAct Refresher) :=
  (m.command? t).bind m.world.registryAct?

/-- What a play does to the registry, first to last. -/
def registryActs (m : Machine) (play : Play) : List (RegistryAct Refresher) :=
  m.trail (fun m _ t => m.registryAct? t) play

theorem turn_registry (htidy : m.world.shell.registry.Tidy) (now : Instant) (t : Turn) :
    (m.turn now t).world.shell.registry =
      ((m.registryAct? t).map m.world.shell.registry.apply).getD m.world.shell.registry := by
  rw [m.turn_shell now t, registryAct?]
  cases m.command? t with
  | none => rfl
  | some c => exact World.shellAfter_registry htidy c

/-- To the registry, a play is the word of its acts. -/
theorem played_registry (htidy : m.world.shell.registry.Tidy) (play : Play) :
    (m.played play).world.shell.registry =
      (m.registryActs play).foldl Registry.apply m.world.shell.registry := by
  induction play generalizing m with
  | nil => rfl
  | cons head play ih =>
      obtain ⟨now, t⟩ := head
      have hrest := ih (turn_tidy now t htidy)
      rw [turn_registry htidy] at hrest
      rw [played, hrest, registryActs, registryActs, trail, List.foldl_append]
      cases m.registryAct? t <;> rfl

end Machine

/-! ## Whom broadcasts call -/

/-- Whom a broadcast under way has still to call. -/
def Task.toCall : Task → List Refresher
  | .broadcasting _ _ _ rest => rest
  | .settling _ _ _ _ _ rest => rest
  | _ => []

theorem toCall_aside {tasks : List Task} (haside : Aside tasks) :
    tasks.flatMap Task.toCall = [] := by
  rw [List.flatMap_eq_nil_iff]
  intro task htask
  have hother := haside task htask
  cases task with
  | broadcasting asker cause report rest => contradiction
  | settling asker cause report called outcome rest => contradiction
  | _ => rfl

/-- A task leaves nobody to be called but those who were left before, or who are registered. -/
theorem World.perform_toCall (w : World) (now : Instant) (task : Task) :
    (w.perform now task).2.flatMap Task.toCall ⊆ task.toCall ++ w.shell.registry.entries := by
  have hnobody : ∀ {tasks : List Task}, Aside tasks →
      tasks.flatMap Task.toCall ⊆ task.toCall ++ w.shell.registry.entries := by
    intro tasks haside
    rw [toCall_aside haside]
    exact List.nil_subset _
  cases task with
  | command asker c =>
      rcases w.begin_broadcast now asker c with ⟨cause, kind, htasks, -⟩ | haside
      · rw [perform, htasks]
        simp [Task.toCall]
      · exact hnobody haside
  | start callback => exact hnobody (aside_program _)
  | cycling asker poller fragment cycle count waiting =>
      cases waiting with
      | nil => exact hnobody aside_nil
      | cons callback waiting =>
          exact hnobody (aside_append.mpr ⟨aside_program _, aside_cons.mpr ⟨rfl, aside_nil⟩⟩)
  | broadcasting asker cause report rest =>
      cases rest with
      | nil => exact hnobody aside_nil
      | cons r rest =>
          have hbody := toCall_aside (w.call_aside now report.kind r)
          simp only [perform, List.flatMap_append, hbody, List.flatMap_cons, Task.toCall]
          simp
  | settling asker cause report called outcome rest =>
      simp only [perform]
      split
      · simp [Task.toCall]
      · exact hnobody aside_nil
  | answer asker reply => exact hnobody aside_nil

namespace Machine

variable {m : Machine}

/-- Whom the broadcasts under way have still to call. -/
def toCall (m : Machine) : List Refresher :=
  m.agenda.flatMap Task.toCall

/-- The refresher that a broadcast calls at this turn. -/
def called? (m : Machine) : Turn → Option Refresher
  | .move .perform =>
      match m.agenda with
      | .broadcasting _ _ _ (r :: _) :: _ => some r
      | _ => none
  | _ => none

/-- The refreshers that broadcasts call in a play, first to last. -/
def called (m : Machine) (play : Play) : List Refresher :=
  m.trail (fun m _ t => m.called? t) play

theorem called?_toCall {t : Turn} {r : Refresher} (hcalled : m.called? t = some r) :
    r ∈ m.toCall := by
  unfold called? at hcalled
  split at hcalled
  · split at hcalled
    · rename_i asker cause report x rest below hagenda
      obtain rfl : x = r := Option.some.inj hcalled
      simp [toCall, hagenda, Task.toCall]
    · contradiction
  · contradiction

theorem turn_toCall (m : Machine) (now : Instant) (t : Turn) :
    (m.turn now t).toCall ⊆ m.toCall ++ m.world.shell.registry.entries := by
  have hsame : m.toCall ⊆ m.toCall ++ m.world.shell.registry.entries :=
    List.subset_append_left _ _
  cases t with
  | decide outcome =>
      rcases m.turn_decide now outcome with hunchanged | ⟨_, _, _, _, _, _, _, hagenda, hdecided⟩
      · rw [hunchanged]
        exact hsame
      · rw [hdecided]
        simp [toCall, hagenda, Task.toCall]
  | move mv =>
      cases mv with
      | issue asker c => exact hsame
      | collect => exact hsame
      | perform =>
          cases hagenda : m.agenda with
          | nil =>
              rw [turn, move_perform_nil now hagenda]
              exact hsame
          | cons task below =>
              have hbefore : m.toCall = task.toCall ++ below.flatMap Task.toCall := by
                rw [toCall, hagenda, List.flatMap_cons]
              have hperform := m.world.perform_toCall now task
              rw [turn, move_perform now hagenda, toCall, List.flatMap_append, hbefore]
              intro r hr
              rcases List.mem_append.mp hr with hnew | hold
              · rcases List.mem_append.mp (hperform hnew) with htask | hentry
                · simp [htask]
                · simp [hentry]
              · simp [hold]

/-- Everybody who is registered is known, and a call is owed to nobody else but these. -/
structure Draws (m : Machine) (known owed : List Refresher) : Prop where
  tidy : m.world.shell.registry.Tidy
  entries : m.world.shell.registry.entries ⊆ known
  main : m.world.shell.registry.main.toList ⊆ known
  toCall : m.toCall ⊆ known ++ owed

variable {known owed : List Refresher}

theorem Draws.turn {t : Turn} (hdraws : m.Draws known owed)
    (hknown : registered (m.registryAct? t).toList ⊆ known) (now : Instant) :
    (m.turn now t).Draws known owed := by
  have hregistry := turn_registry hdraws.tidy now t
  have hentries : (m.turn now t).world.shell.registry.entries ⊆ known ∧
      (m.turn now t).world.shell.registry.main.toList ⊆ known := by
    rw [hregistry]
    cases hact : m.registryAct? t with
    | none => exact ⟨hdraws.entries, hdraws.main⟩
    | some a =>
        rw [hact, Option.toList_some, registered_singleton] at hknown
        obtain ⟨hentries, hmain⟩ := m.world.shell.registry.apply_drawn a
        exact ⟨List.Subset.trans hentries (List.append_subset.mpr ⟨hdraws.entries, hknown⟩),
          List.Subset.trans hmain (List.append_subset.mpr ⟨hdraws.main, hknown⟩)⟩
  refine ⟨turn_tidy now t hdraws.tidy, hentries.1, hentries.2, ?_⟩
  have hregistered : m.world.shell.registry.entries ⊆ known ++ owed :=
    List.Subset.trans hdraws.entries (List.subset_append_left _ _)
  have hturn := m.turn_toCall now t
  exact List.Subset.trans hturn (List.append_subset.mpr ⟨hdraws.toCall, hregistered⟩)

theorem Draws.play {play : Play} (hdraws : m.Draws known owed)
    (hknown : registered (m.registryActs play) ⊆ known) :
    (m.played play).Draws known owed ∧ (∀ b ∈ m.broadcasts play, b.entries ⊆ known) ∧
      m.called play ⊆ known ++ owed := by
  induction play generalizing m with
  | nil => exact ⟨hdraws, by simp [broadcasts, trail], by simp [called, trail]⟩
  | cons head play ih =>
      obtain ⟨now, t⟩ := head
      rw [registryActs, trail, registered_append, List.append_subset] at hknown
      obtain ⟨hplayed, hbroadcasts, hcalled⟩ := ih (hdraws.turn hknown.1 now) hknown.2
      refine ⟨hplayed, ?_, ?_⟩
      · intro b hb
        rw [broadcasts, trail, List.mem_append, Option.mem_toList] at hb
        rcases hb with hbegun | hlater
        · rw [begun?_entries hbegun]
          exact hdraws.entries
        · exact hbroadcasts b hlater
      · rw [called, trail, List.append_subset]
        refine ⟨?_, hcalled⟩
        intro r hr
        exact hdraws.toCall (called?_toCall (Option.mem_toList.mp hr))

theorem turn_toCall_of_act {t : Turn} {a : RegistryAct Refresher}
    (hact : m.registryAct? t = some a) (now : Instant) : (m.turn now t).toCall = m.toCall := by
  obtain ⟨c, hcommand, hc⟩ := Option.bind_eq_some_iff.mp hact
  obtain ⟨rfl, asker, below, hagenda⟩ := agenda_of_command? hcommand
  rw [turn, move_perform now hagenda, World.perform, m.world.begin_of_registryAct hc now asker,
    toCall, toCall, hagenda]
  rfl

/-- Clearing the registry leaves nobody but those whom broadcasts under way have still to call. -/
theorem draws_cleared {t : Turn} (htidy : m.world.shell.registry.Tidy)
    (hcleared : m.registryAct? t = some .cleared) (now : Instant) (known : List Refresher) :
    (m.turn now t).Draws known m.toCall := by
  have hregistry : (m.turn now t).world.shell.registry = m.world.shell.registry.clear := by
    rw [turn_registry htidy, hcleared]
    rfl
  refine ⟨turn_tidy now t htidy, ?_, ?_, ?_⟩
  · simp [hregistry, Registry.clear]
  · simp [hregistry, Registry.clear]
  · rw [turn_toCall_of_act hcleared now]
    exact List.subset_append_right _ _

end Machine

/-! ## The registry after every history -/

/-- Whoever is registered, is the main refresher or is called in a play has been registered in it,
or was still to be called when it began. -/
structure Machine.StartsAfresh (m : Machine) (toCall : List Refresher) (play : Play) : Prop where
  entries : (m.played play).world.shell.registry.entries ⊆ registered (m.registryActs play)
  main : (m.played play).world.main ∈ .noop :: registered (m.registryActs play)
  broadcasts : ∀ b ∈ m.broadcasts play, b.entries ⊆ registered (m.registryActs play)
  called : m.called play ⊆ registered (m.registryActs play) ++ toCall

/-- What the registry of a machine is after a play. -/
structure RegistryOf (policy : BroadcastPolicy) (start : Machine) (play : Play) : Prop where
  policy : (start.played play).world.shell.registry.policy = policy
  /-- Registered are those who were added since the registry was last cleared, in order. -/
  entries : (start.played play).world.shell.registry.entries =
    registered (sinceCleared (start.registryActs play))
  main : (start.played play).world.main =
    (mains (sinceCleared (start.registryActs play))).getLast?.getD .noop
  /-- Broadcasts begin with them, ... -/
  broadcast : ∀ now t b, (start.played play).begun? now t = some b →
    b.entries = (start.played play).world.shell.registry.entries
  /-- ... and whatever else happens leaves them alone. -/
  other : ∀ now t, (start.played play).registryAct? t = none →
    ((start.played play).turn now t).world.shell.registry =
      (start.played play).world.shell.registry
  /-- Only clearing takes anybody out, a main refresher that was superseded among them. -/
  grows : ∀ later, (∀ a ∈ (start.played play).registryActs later, a.isCleared = false) →
    (start.played play).world.shell.registry.entries <+:
      ((start.played play).played later).world.shell.registry.entries
  /-- Nobody is the main refresher of an empty registry, ... -/
  empty : (start.played play).world.shell.registry.entries = [] →
    (start.played play).world.main = .noop
  /-- ... so leaving a page clears the registry, ... -/
  leave : (start.played play).world.shell.leave.registry =
    (start.played play).world.shell.registry.clear
  /-- ... and entering one does. -/
  enter : ∀ name, ((start.played play).world.shell.enterPage name).registry =
    (start.played play).world.shell.registry.clear
  /-- Clearing leaves nobody but those whom a broadcast under way has still to call. -/
  cleared : ∀ now t, (start.played play).registryAct? t = some .cleared →
    ∀ later, ((start.played play).turn now t).StartsAfresh (start.played play).toCall later
  /-- If none is under way, there is nobody. -/
  idle : (start.played play).idle = true → (start.played play).toCall = []

/-- The registry is what was registered since it was last cleared, whatever the history. -/
theorem registry_of_history (policy : BroadcastPolicy) (play : Play) :
    RegistryOf policy (.new policy) play := by
  let start := Machine.new policy
  let since := sinceCleared (start.registryActs play)
  have htidy : (start.played play).world.shell.registry.Tidy :=
    Machine.played_tidy (Registry.tidy_empty policy) play
  have hregistry : (start.played play).world.shell.registry =
      ⟨policy, registered since, (mains since).getLast?⟩ := by
    rw [← Registry.foldl_apply_empty]
    exact Machine.played_registry (Registry.tidy_empty policy) play
  constructor
  case policy => exact congrArg Registry.policy hregistry
  case entries => exact congrArg Registry.entries hregistry
  case main => exact congrArg (·.main.getD .noop) hregistry
  case broadcast => exact fun now t b hbegun => Machine.begun?_entries hbegun
  case other =>
    intro now t hnone
    rw [Machine.turn_registry htidy, hnone]
    rfl
  case grows =>
    intro later hstays
    rw [Machine.played_registry htidy]
    exact Registry.entries_prefix_foldl hstays _
  case empty => exact fun hempty => congrArg (·.getD .noop) (htidy hempty)
  case leave => exact Shell.leave_registry htidy
  case enter => exact fun name => Shell.leave_registry htidy
  case cleared =>
    intro now t hcleared later
    let again := registered (((start.played play).turn now t).registryActs later)
    have hdraws := Machine.draws_cleared htidy hcleared now again
    obtain ⟨hplayed, hbroadcasts, hcalled⟩ := hdraws.play (List.Subset.refl again)
    have hoffice : ∀ office : Option Refresher, office.toList ⊆ again →
        office.getD .noop ∈ .noop :: again := by
      rintro (_ | r) hdrawn
      · exact List.mem_cons_self
      · exact List.mem_cons_of_mem _ (hdrawn (by simp))
    exact ⟨hplayed.entries, hoffice _ hplayed.main, hbroadcasts, hcalled⟩
  case idle => exact fun hidle => toCall_aside (Machine.idle_iff.mp hidle)

/-- A refresher that does nothing but to be called. -/
def plain : Script :=
  .mk "x" none (.mk [] none) (.mk [] none) false

/-- The main refresher is registered again while nobody holds the office, then somebody is
registered as the main one, and the page is about to be left. -/
def supersededAndLeft : Play :=
  [.issue none .readdMain, .perform, .issue none (.scripted "x" plain), .perform,
    .issue none (.addMain "x"), .perform, .issue none .leave].map fun mv => (⟨0⟩, .move mv)

/-- Somebody else is registered, and everybody is stopped. -/
def stoppedAfresh : Play :=
  [.issue none (.poller "p" ["f"] (.ofSecs 10)), .perform, .issue none (.add "p"), .perform,
    .issue none (.broadcast .stop), .perform, .perform].map fun mv => (⟨0⟩, .move mv)

theorem registry_of_history_left :
    let m := (Machine.new .isolate).played supersededAndLeft
    let left := m.turn ⟨0⟩ (.move .perform)
    m.world.shell.registry.entries = [.noop, .scripted plain] ∧ m.world.main = .scripted plain ∧
      (left.played stoppedAfresh).world.main = .noop ∧
      left.called stoppedAfresh ⊆ [.poller 0] := by
  have hregistry := registry_of_history .isolate supersededAndLeft
  have hleft := hregistry.cleared ⟨0⟩ (.move .perform) rfl stoppedAfresh
  exact ⟨hregistry.entries, hregistry.main, rfl, hleft.called⟩

end Session

end PageRefresh
