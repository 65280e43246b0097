import PageRefresh.Proofs.Broadcast.Calls
import PageRefresh.Proofs.Session.Play
import Mathlib.Data.List.Chain
import Mathlib.Data.List.DropRight
import Mathlib.Data.List.Induction

/-!
The modal protocol.

Of all that happens in a play, modals see a word of calls: a modal is opened, one is closed, the
page is entered or left.  What each call comes to, and how many modals are open after it, is decided
by this word alone (`modalActs_eq`), whatever else goes on and whether broadcasts fail or not.  What
holds of modals over whole plays is then a matter of such words.
-/

namespace PageRefresh.Session

/-! ## Words of calls -/

/-- An operation that modals see. -/
inductive ModalCall where
  | opening
  | closing
  /-- The page is entered or left, and its modals go with it. -/
  | leaving
deriving DecidableEq, Repr

/-- What such an operation came to, with the broadcast that it began. -/
inductive ModalAct where
  | opened (broadcast : Option BroadcastKind)
  | closed (broadcast : Option BroadcastKind)
  /-- There was no modal to close. -/
  | refused
  | left
deriving DecidableEq, Repr

namespace ModalAct

def broadcast? : ModalAct → Option BroadcastKind
  | opened broadcast => broadcast
  | closed broadcast => broadcast
  | _ => none

def isOpened : ModalAct → Bool
  | opened _ => true
  | _ => false

def isClosed : ModalAct → Bool
  | closed _ => true
  | _ => false

/-- What happened since the page was last entered or left. -/
def sinceLeft (acts : List ModalAct) : List ModalAct :=
  acts.rtakeWhile (· != left)

/-- The broadcasts that the acts began. -/
def kinds (acts : List ModalAct) : List BroadcastKind :=
  acts.filterMap broadcast?

end ModalAct

namespace ModalCall

/-- What a call comes to when so many modals are open. -/
def act (depth : Nat) : ModalCall → ModalAct
  | opening => .opened (if depth = 0 then some .stop else none)
  | closing =>
      match depth with
      | 0 => .refused
      | 1 => .closed (some .restart)
      | _ + 2 => .closed none
  | leaving => .left

/-- How many modals are open after a call. -/
def next (depth : Nat) : ModalCall → Nat
  | opening => depth + 1
  | closing => depth - 1
  | leaving => 0

def acts (depth : Nat) : List ModalCall → List ModalAct
  | [] => []
  | c :: calls => c.act depth :: acts (c.next depth) calls

/-- How many modals are open after all calls. -/
def depthAfter (depth : Nat) (calls : List ModalCall) : Nat :=
  calls.foldl next depth

theorem acts_append (depth : Nat) (first second : List ModalCall) :
    acts depth (first ++ second) = acts depth first ++ acts (depthAfter depth first) second := by
  induction first generalizing depth with
  | nil => rfl
  | cons c first ih => exact congrArg _ (ih (c.next depth))

theorem depthAfter_append (depth : Nat) (first second : List ModalCall) :
    depthAfter depth (first ++ second) = depthAfter (depthAfter depth first) second :=
  List.foldl_append

end ModalCall

namespace ModalAct

variable {depth : Nat} {since : List ModalAct}

/-- So many modals are open after these acts, which began with none. -/
structure Accounts (depth : Nat) (since : List ModalAct) : Prop where
  /-- Open are those that were opened and not closed. -/
  count : since.countP isOpened = depth + since.countP isClosed
  /-- Their broadcasts take turns, a stop first. -/
  alternate : (kinds since).IsChain (· ≠ ·)
  first : (kinds since).head? ≠ some .restart
  /-- A modal is open if the last broadcast was a stop, and only then. -/
  last : (kinds since).getLast? = some .stop ↔ 0 < depth

theorem Accounts.nil : Accounts 0 [] :=
  ⟨rfl, .nil, by simp [kinds], by simp [kinds]⟩

theorem kinds_cons (a : ModalAct) (acts : List ModalAct) :
    kinds (a :: acts) = a.broadcast?.toList ++ kinds acts := by
  cases hbroadcast : a.broadcast? <;> simp [kinds, hbroadcast]

theorem kinds_append (first second : List ModalAct) :
    kinds (first ++ second) = kinds first ++ kinds second :=
  List.filterMap_append

theorem kinds_concat (since : List ModalAct) (a : ModalAct) :
    kinds (since ++ [a]) = kinds since ++ a.broadcast?.toList := by
  rw [kinds_append, kinds_cons]
  exact congrArg _ (List.append_nil _)

/-- An act without a broadcast changes no more than the count. -/
theorem Accounts.silent {a : ModalAct} {next : Nat} (haccounts : Accounts depth since)
    (hsilent : a.broadcast? = none)
    (hcount : depth + [a].countP isOpened = next + [a].countP isClosed)
    (hopen : 0 < depth ↔ 0 < next) : Accounts next (since ++ [a]) := by
  have hkinds : kinds (since ++ [a]) = kinds since := by
    rw [kinds_concat, hsilent, Option.toList_none, List.append_nil]
  refine ⟨?_, hkinds ▸ haccounts.alternate, hkinds ▸ haccounts.first, ?_⟩
  · have hbefore := haccounts.count
    rw [List.countP_append, List.countP_append]
    omega
  · rw [hkinds, haccounts.last, hopen]

/-- An act that stops everybody while no modal is open, or restarts everybody when the last one is
closed. -/
theorem Accounts.loud {a : ModalAct} {next : Nat} {kind : BroadcastKind}
    (haccounts : Accounts depth since) (hloud : a.broadcast? = some kind)
    (hcount : depth + [a].countP isOpened = next + [a].countP isClosed)
    (hbefore : kind = .stop ↔ depth = 0) (hafter : kind = .stop ↔ 0 < next) :
    Accounts next (since ++ [a]) := by
  have hkinds : kinds (since ++ [a]) = kinds since ++ [kind] := by
    rw [kinds_concat, hloud, Option.toList_some]
  refine ⟨?_, ?_, ?_, ?_⟩
  · have hsince := haccounts.count
    rw [List.countP_append, List.countP_append]
    omega
  · rw [hkinds, List.isChain_append]
    refine ⟨haccounts.alternate, .singleton _, ?_⟩
    intro before hlast after hhead
    obtain rfl : kind = after := by simpa using hhead
    have hstop := haccounts.last
    rw [Option.mem_def] at hlast
    rw [hlast, Option.some.injEq] at hstop
    rintro rfl
    rw [hbefore] at hstop
    omega
  · have hfirst := haccounts.first
    rw [hkinds, List.head?_append]
    cases hhead : (kinds since).head? with
    | some before => rwa [hhead] at hfirst
    | none =>
        have hstop := haccounts.last
        rw [List.head?_eq_none_iff.mp hhead] at hstop
        have hzero : depth = 0 := by simpa using hstop
        simp [hbefore.mpr hzero]
  · rw [hkinds, List.getLast?_concat, Option.some.injEq, hafter]

theorem Accounts.call (haccounts : Accounts depth since) (c : ModalCall)
    (hstay : c ≠ .leaving) : Accounts (c.next depth) (since ++ [c.act depth]) := by
  cases c with
  | leaving => contradiction
  | opening =>
      cases depth with
      | zero => exact haccounts.loud rfl rfl (by simp) (by simp [ModalCall.next])
      | succ depth =>
          apply haccounts.silent rfl
          · simp [ModalCall.act, ModalCall.next, isOpened, isClosed]
          · simp [ModalCall.next]
  | closing =>
      rcases depth with _ | _ | depth
      · exact haccounts.silent rfl rfl Iff.rfl
      · exact haccounts.loud rfl rfl (by simp) (by simp [ModalCall.next])
      · apply haccounts.silent rfl
        · simp [ModalCall.act, ModalCall.next, isOpened, isClosed]
        · simp [ModalCall.next]

/-- The account is right after every word of calls. -/
theorem accounts_calls (calls : List ModalCall) :
    Accounts (ModalCall.depthAfter 0 calls) (sinceLeft (ModalCall.acts 0 calls)) := by
  induction calls using List.reverseRecOn with
  | nil => exact .nil
  | append_singleton calls c ih =>
      rw [ModalCall.acts_append, ModalCall.depthAfter_append]
      by_cases hleaving : c = .leaving
      · subst hleaving
        have hnil : sinceLeft (ModalCall.acts 0 calls ++ [left]) = [] :=
          List.rtakeWhile_concat_neg _ _ _ (by simp)
        simpa [ModalCall.acts, ModalCall.act, ModalCall.depthAfter, ModalCall.next, hnil]
          using Accounts.nil
      · have hstays : (c.act (ModalCall.depthAfter 0 calls) != left) = true := by
          cases c with
          | leaving => contradiction
          | opening => rfl
          | closing =>
              simp only [ModalCall.act]
              split <;> rfl
        have hsince : sinceLeft (ModalCall.acts 0 calls ++ [c.act (ModalCall.depthAfter 0 calls)]) =
            sinceLeft (ModalCall.acts 0 calls) ++ [c.act (ModalCall.depthAfter 0 calls)] :=
          List.rtakeWhile_concat_pos _ _ _ hstays
        rw [ModalCall.acts, ModalCall.acts, hsince]
        exact ih.call c hleaving

end ModalAct

/-! ## Balanced words -/

namespace ModalCall

/-- A word in which modals are properly nested, with the number of pairs outside all others. -/
inductive Balanced : Nat → List ModalCall → Prop where
  | nil : Balanced 0 []
  | pair {inner later : List ModalCall} {pairs outer : Nat} :
      Balanced pairs inner → Balanced outer later →
        Balanced (outer + 1) (opening :: inner ++ closing :: later)

variable {calls : List ModalCall} {pairs : Nat}

theorem Balanced.depthAfter (hbalanced : Balanced pairs calls) (depth : Nat) :
    ModalCall.depthAfter depth calls = depth := by
  induction hbalanced generalizing depth with
  | nil => rfl
  | @pair inner later pairs outer _ _ ihinner ihlater =>
      calc
        ModalCall.depthAfter depth (opening :: inner ++ closing :: later)
          = ModalCall.depthAfter (ModalCall.depthAfter (depth + 1) inner) (closing :: later) :=
            depthAfter_append (depth + 1) inner (closing :: later)
        _ = ModalCall.depthAfter (depth + 1) (closing :: later) := by rw [ihinner]
        _ = depth := ihlater depth

/-- What a pair comes to, around a balanced word. -/
theorem Balanced.acts_pair {inner : List ModalCall} (hinner : Balanced pairs inner)
    (depth : Nat) (later : List ModalCall) :
    acts depth (opening :: inner ++ closing :: later) =
      opening.act depth :: acts (depth + 1) inner ++
        closing.act (depth + 1) :: acts depth later := by
  rw [List.cons_append, acts, acts_append, next, hinner.depthAfter, acts, next]
  rfl

/-- No call of a balanced word is refused. -/
theorem Balanced.refused_not_mem (hbalanced : Balanced pairs calls) (depth : Nat) :
    .refused ∉ acts depth calls := by
  induction hbalanced generalizing depth with
  | nil => simp [acts]
  | @pair inner later pairs outer hinner _ ihinner ihlater =>
      have hclosing : closing.act (depth + 1) ≠ .refused := by
        cases depth <;> simp [act]
      rw [hinner.acts_pair, List.cons_append]
      simp only [List.mem_cons, List.mem_append, not_or]
      exact ⟨by simp [act], ihinner (depth + 1), hclosing.symm, ihlater depth⟩

/-- On top of an open modal a balanced word calls nobody; otherwise each outermost pair stops and
restarts everybody once. -/
theorem Balanced.kinds_acts (hbalanced : Balanced pairs calls) (depth : Nat) :
    ModalAct.kinds (acts depth calls) =
      if depth = 0 then (List.replicate pairs [.stop, .restart]).flatten else [] := by
  induction hbalanced generalizing depth with
  | nil => simp [acts, ModalAct.kinds]
  | @pair inner later pairs outer hinner _ ihinner ihlater =>
      have hinside : ModalAct.kinds (acts (depth + 1) inner) = [] := ihinner (depth + 1)
      have hsplit : ModalAct.kinds (acts depth (opening :: inner ++ closing :: later)) =
          (opening.act depth).broadcast?.toList ++ ((closing.act (depth + 1)).broadcast?.toList ++
            ModalAct.kinds (acts depth later)) := by
        rw [hinner.acts_pair, ModalAct.kinds_append, ModalAct.kinds_cons, hinside,
          List.append_nil, ModalAct.kinds_cons]
      rw [hsplit, ihlater]
      cases depth with
      | zero => simp [act, ModalAct.broadcast?, List.replicate_succ]
      | succ depth => simp [act, ModalAct.broadcast?]

end ModalCall

/-! ## The calls of a play -/

/-- What modals see of an operation. -/
def Command.modalCall? : Command → Option ModalCall
  | .openModal => some .opening
  | .closeModal => some .closing
  | .enterPage _ => some .leaving
  | .leave => some .leaving
  | _ => none

namespace World

/-- What an operation comes to for modals when it begins. -/
def modalAct? (w : World) (now : Instant) (asker : Asker) (c : Command) : Option ModalAct :=
  let broadcast := (begunBy (w.begin now asker c).2).map Broadcast.kind
  match c with
  | .openModal => some (.opened broadcast)
  | .closeModal =>
      match w.shell.closesWith with
      | .error _ => some .refused
      | .ok _ => some (.closed broadcast)
  | .enterPage _ => some .left
  | .leave => some .left
  | _ => none

theorem openModal_eq (w : World) (asker : Asker) :
    w.openModal asker =
      let opened := { w with shell := w.shell.openModal }.log
        (.modalOpened (w.shell.modalDepth + 1))
      if w.shell.modalDepth = 0 then opened.beginBroadcast asker .modal .stop
      else (opened.answer asker .nested, []) := by
  by_cases hdepth : w.shell.modalDepth = 0 <;>
    simp [openModal, Shell.opensWith, Shell.openedEvent, Shell.openModal, hdepth]

theorem closeModal_eq (w : World) (asker : Asker) :
    w.closeModal asker =
      let closed := { w with shell := w.shell.closeModal }.log
        (.modalClosed (w.shell.modalDepth - 1))
      match w.shell.modalDepth with
      | 0 => (w.answer asker (.shellError .noOpenModal), [])
      | 1 => closed.beginBroadcast asker .modal .restart
      | _ + 2 => (closed.answer asker .nested, []) := by
  rcases hdepth : w.shell.modalDepth with _ | _ | depth
  · simp [closeModal, Shell.closesWith, hdepth]
  · simp [closeModal, Shell.closesWith, Shell.closedEvent, Shell.closeModal, hdepth]
  · simp [closeModal, Shell.closesWith, Shell.closedEvent, Shell.closeModal, hdepth]

theorem modalAct?_eq (w : World) (now : Instant) (asker : Asker) (c : Command) :
    w.modalAct? now asker c = c.modalCall?.map (·.act w.shell.modalDepth) := by
  cases c with
  | openModal =>
      by_cases hdepth : w.shell.modalDepth = 0 <;>
        simp [modalAct?, begin, openModal_eq, Command.modalCall?, ModalCall.act, hdepth,
          beginBroadcast, begunBy, Report.start]
  | closeModal =>
      rcases hdepth : w.shell.modalDepth with _ | _ | depth
      · simp [modalAct?, Shell.closesWith, Command.modalCall?, ModalCall.act, hdepth]
      · simp [modalAct?, begin, closeModal_eq, Shell.closesWith, Command.modalCall?,
          ModalCall.act, hdepth, beginBroadcast, begunBy, Report.start]
      · simp [modalAct?, begin, closeModal_eq, Shell.closesWith, Command.modalCall?,
          ModalCall.act, hdepth, begunBy]
  | _ => rfl

theorem shellAfter_modalDepth (w : World) (c : Command) :
    (w.shellAfter c).modalDepth =
      (c.modalCall?.map (·.next w.shell.modalDepth)).getD w.shell.modalDepth := by
  cases c with
  | add id => cases hfind : w.find? id <;> simp [shellAfter, hfind, Command.modalCall?,
      Shell.mapRegistry]
  | addMain id => cases hfind : w.find? id <;> simp [shellAfter, hfind, Command.modalCall?,
      Shell.mapRegistry]
  | closeModal =>
      rcases hdepth : w.shell.modalDepth with _ | _ | depth
      · simp [shellAfter, Shell.closesWith, Command.modalCall?, ModalCall.next, hdepth]
      · simp [shellAfter, Shell.closesWith, Shell.closeModal, Command.modalCall?,
          ModalCall.next, hdepth]
      · simp [shellAfter, Shell.closesWith, Shell.closeModal, Command.modalCall?,
          ModalCall.next, hdepth]
  | _ => rfl

end World

namespace Machine

/-- What modals see of a turn. -/
def modalCall? (m : Machine) (t : Turn) : Option ModalCall :=
  (m.command? t).bind Command.modalCall?

/-- What a turn comes to for modals. -/
def modalAct? (m : Machine) (now : Instant) : Turn → Option ModalAct
  | .move .perform =>
      match m.agenda with
      | .command asker c :: _ => m.world.modalAct? now asker c
      | _ => none
  | _ => none

/-- The word of calls that modals see of a play. -/
def modalCalls (m : Machine) (play : Play) : List ModalCall :=
  m.trail (fun m _ t => m.modalCall? t) play

def modalActs (m : Machine) (play : Play) : List ModalAct :=
  m.trail modalAct? play

theorem modalCall?_command {m : Machine} {asker : Asker} {c : Command} {rest : List Task}
    (hagenda : m.agenda = .command asker c :: rest) :
    m.modalCall? (.move .perform) = c.modalCall? := by
  simp [modalCall?, command?, hagenda]

theorem modalAct?_eq (m : Machine) (now : Instant) (t : Turn) :
    m.modalAct? now t = (m.modalCall? t).map (·.act m.world.shell.modalDepth) := by
  cases hcommand : m.command? t with
  | some c =>
      obtain ⟨rfl, asker, rest, hagenda⟩ := agenda_of_command? hcommand
      simp only [modalAct?, modalCall?, hagenda, hcommand, Option.bind_some]
      exact m.world.modalAct?_eq now asker c
  | none =>
      simp only [modalCall?, hcommand, Option.bind_none, Option.map_none]
      unfold modalAct?
      split
      · split
        · rename_i hagenda
          simp [command?, hagenda] at hcommand
        · rfl
      · rfl

theorem turn_modalDepth (m : Machine) (now : Instant) (t : Turn) :
    (m.turn now t).world.shell.modalDepth =
      ((m.modalCall? t).map (·.next m.world.shell.modalDepth)).getD m.world.shell.modalDepth := by
  rw [m.turn_shell now t, modalCall?]
  cases hcommand : m.command? t with
  | none => rfl
  | some c => exact m.world.shellAfter_modalDepth c

/-- For modals, a play is the word of its calls. -/
theorem modalActs_eq (m : Machine) (play : Play) :
    m.modalActs play = ModalCall.acts m.world.shell.modalDepth (m.modalCalls play) ∧
      (m.played play).world.shell.modalDepth =
        ModalCall.depthAfter m.world.shell.modalDepth (m.modalCalls play) := by
  induction play generalizing m with
  | nil => exact ⟨rfl, rfl⟩
  | cons head play ih =>
      obtain ⟨now, t⟩ := head
      obtain ⟨hacts, hdepth⟩ := ih (m.turn now t)
      rw [turn_modalDepth] at hacts hdepth
      rw [modalActs] at hacts
      simp only [modalActs, modalCalls, trail, played] at hacts hdepth ⊢
      rw [hacts, hdepth, modalAct?_eq]
      cases m.modalCall? t <;> exact ⟨rfl, rfl⟩

/-- The machine is about to make a modal's broadcast to everybody who is registered.  Among
refreshers that run no programs the call then ends with the result of this broadcast, which has
left the shell alone. -/
def BroadcastsFor (m : Machine) (now : Instant) (asker : Asker) (kind : BroadcastKind)
    (rest : List Task) : Prop :=
  let entries := m.world.shell.registry.entries
  let ended := (World.calls now).broadcastRest m.world.policy (.start kind) entries m.world
  m.agenda = .broadcasting asker .modal (.start kind) entries :: rest ∧
    ((∀ x ∈ entries, x.Quiet) →
      (∃ count, m.after (List.replicate count (now, .perform)) =
        ⟨ended.2.answer asker (Cause.modal.reply ended.1), rest⟩) ∧
        ended.2.shell = m.world.shell)

theorem broadcastsFor_mk (w : World) (now : Instant) (asker : Asker) (kind : BroadcastKind)
    (rest : List Task) :
    (⟨w, .broadcasting asker .modal (.start kind) w.shell.registry.entries :: rest⟩ : Machine)
      |>.BroadcastsFor now asker kind rest := by
  refine ⟨rfl, fun hquiet => ⟨broadcasting_run now asker .modal rest hquiet (.start kind) w, ?_⟩⟩
  apply Calls.broadcastRest_part
  · exact fun kind x w => w.call_shell now kind x
  · exact fun e w => rfl

end Machine

/-! ## The modal protocol -/

/-- A call opens a modal, at once. -/
structure Machine.OpensModal (m : Machine) (now : Instant) (asker : Asker) (rest : List Task) :
    Prop where
  depth : (m.turn now (.move .perform)).world.shell.modalDepth = m.world.shell.modalDepth + 1
  /-- The first modal stops everybody. -/
  first : m.world.shell.modalDepth = 0 →
    (m.turn now (.move .perform)).BroadcastsFor now asker .stop rest
  /-- Any other calls nobody. -/
  further : 0 < m.world.shell.modalDepth →
    m.turn now (.move .perform) =
      ⟨({ m.world with shell := m.world.shell.openModal }.log
        (.modalOpened (m.world.shell.modalDepth + 1))).answer asker .nested, rest⟩

/-- A call closes a modal, at once, or is refused. -/
structure Machine.ClosesModal (m : Machine) (now : Instant) (asker : Asker) (rest : List Task) :
    Prop where
  depth : (m.turn now (.move .perform)).world.shell.modalDepth = m.world.shell.modalDepth - 1
  /-- It is refused when no modal is open. -/
  refused : m.world.shell.modalDepth = 0 →
    m.turn now (.move .perform) = ⟨m.world.answer asker (.shellError .noOpenModal), rest⟩
  /-- The last modal restarts everybody. -/
  last : m.world.shell.modalDepth = 1 →
    (m.turn now (.move .perform)).BroadcastsFor now asker .restart rest
  /-- Any other calls nobody. -/
  further : 1 < m.world.shell.modalDepth →
    m.turn now (.move .perform) =
      ⟨({ m.world with shell := m.world.shell.closeModal }.log
        (.modalClosed (m.world.shell.modalDepth - 1))).answer asker .nested, rest⟩

/-- What a play has come to as far as modals go, and what comes of it next. -/
structure ModalProtocol (m : Machine) (play : Play) : Prop where
  /-- Modals are open as they were opened and closed since the page was entered or left. -/
  accounts : ModalAct.Accounts (m.played play).world.shell.modalDepth
    (ModalAct.sinceLeft (m.modalActs play))
  /-- Nothing else changes the depth: registry operations, broadcasts that fail, callbacks. -/
  other : ∀ now t, (m.played play).modalCall? t = none →
    ((m.played play).turn now t).world.shell.modalDepth = (m.played play).world.shell.modalDepth
  opening : ∀ asker rest now, (m.played play).agenda = .command asker .openModal :: rest →
    (m.played play).OpensModal now asker rest
  closing : ∀ asker rest now, (m.played play).agenda = .command asker .closeModal :: rest →
    (m.played play).ClosesModal now asker rest
  /-- No broadcast replies that no modal is open. -/
  refusal : ∀ result, Cause.modal.reply result ≠ .shellError .noOpenModal
  /-- Properly nested calls leave the depth as it was, and stop and restart everybody in turn. -/
  balanced : ∀ pairs later, ModalCall.Balanced pairs ((m.played play).modalCalls later) →
    ((m.played play).played later).world.shell.modalDepth =
        (m.played play).world.shell.modalDepth ∧
      .refused ∉ (m.played play).modalActs later ∧
      ModalAct.kinds ((m.played play).modalActs later) =
        if (m.played play).world.shell.modalDepth = 0 then
          (List.replicate pairs [.stop, .restart]).flatten
        else []

namespace Machine

variable {m : Machine} {asker : Asker} {rest : List Task}

theorem opensModal (now : Instant) (hagenda : m.agenda = .command asker .openModal :: rest) :
    m.OpensModal now asker rest := by
  have hturn : m.turn now (.move .perform) =
      ⟨(m.world.openModal asker).1, (m.world.openModal asker).2 ++ rest⟩ :=
    move_perform now hagenda
  rw [World.openModal_eq] at hturn
  constructor
  case depth =>
    rw [m.turn_modalDepth now (.move .perform), modalCall?_command hagenda]
    rfl
  case first =>
    intro hdepth
    rw [hturn, if_pos hdepth]
    exact broadcastsFor_mk _ now asker .stop rest
  case further =>
    intro hdepth
    rw [hturn, if_neg (by omega)]
    rfl

theorem closesModal (now : Instant) (hagenda : m.agenda = .command asker .closeModal :: rest) :
    m.ClosesModal now asker rest := by
  have hturn : m.turn now (.move .perform) =
      ⟨(m.world.closeModal asker).1, (m.world.closeModal asker).2 ++ rest⟩ :=
    move_perform now hagenda
  rw [World.closeModal_eq] at hturn
  constructor
  case depth =>
    rw [m.turn_modalDepth now (.move .perform), modalCall?_command hagenda]
    rfl
  case refused =>
    intro hdepth
    rw [hturn, hdepth]
    rfl
  case last =>
    intro hdepth
    rw [hturn, hdepth]
    exact broadcastsFor_mk _ now asker .restart rest
  case further =>
    intro hdepth
    obtain ⟨more, hmore⟩ : ∃ more, m.world.shell.modalDepth = more + 2 :=
      ⟨m.world.shell.modalDepth - 2, by omega⟩
    rw [hturn, hmore]
    rfl

end Machine

/-- Modals are counted, and stop and restart everybody, in this way whatever else is going on. -/
theorem modal_protocol (policy : BroadcastPolicy) (play : Play) :
    ModalProtocol (.new policy) play := by
  let m := (Machine.new policy).played play
  have hplay := (Machine.new policy).modalActs_eq play
  constructor
  case accounts =>
    rw [hplay.1, hplay.2]
    exact ModalAct.accounts_calls _
  case other =>
    intro now t hcall
    rw [m.turn_modalDepth now t, hcall]
    rfl
  case opening => exact fun asker rest now hagenda => Machine.opensModal now hagenda
  case closing => exact fun asker rest now hagenda => Machine.closesModal now hagenda
  case refusal =>
    intro result
    cases result <;> simp [Cause.reply]
  case balanced =>
    intro pairs later hbalanced
    have hlater := m.modalActs_eq later
    rw [hlater.1, hlater.2]
    exact ⟨hbalanced.depthAfter _, hbalanced.refused_not_mem _, hbalanced.kinds_acts _⟩

/-- A refresher that can be neither stopped nor restarted. -/
def stuck : Script :=
  .mk "x" none (.mk [] (some (.stopFailed "x" "busy"))) (.mk [] (some (.restartFailed "x" "busy")))
    false

/-- A modal is opened, its broadcast fails, and the modal is about to be closed. -/
def openedInVain : Play :=
  [.issue none (.scripted "x" stuck), .perform, .issue none (.add "x"), .perform,
    .issue none .openModal, .perform, .perform, .perform,
    .issue none .closeModal].map fun mv => (⟨0⟩, .move mv)

theorem modal_protocol_opened_in_vain :
    let m := (Machine.new .abort).played openedInVain
    let m' := m.turn ⟨0⟩ (.move .perform)
    m.world.reply =
        some (.shellError (.refresh (.broadcastAborted .stop 0 (.stopFailed "x" "busy")))) ∧
      (ModalAct.sinceLeft ((Machine.new .abort).modalActs openedInVain)).countP
          ModalAct.isOpened = 1 ∧
      m'.world.shell.modalDepth = 0 ∧ m'.BroadcastsFor ⟨0⟩ none .restart [] := by
  have hprotocol := modal_protocol .abort openedInVain
  have hcloses := hprotocol.closing none [] ⟨0⟩ rfl
  exact ⟨rfl, hprotocol.accounts.count, hcloses.depth, hcloses.last rfl⟩

end PageRefresh.Session
