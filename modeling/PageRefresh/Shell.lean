import PageRefresh.Registry

/-!
The page shell: the registry, the page visit it belongs to, and the modals open on top of it.

Leaving a page clears whatever it had registered, and its open modals with it. Modals are counted,
and a count that leaves or reaches zero calls for a broadcast; the shell says so (`opensWith`,
`closesWith`) and leaves the broadcast to whoever can call the refreshers.
-/

namespace PageRefresh

/-- The state of the page shell, over refreshers of any kind `ρ`. -/
structure Shell (ρ : Type) where
  registry : Registry ρ
  page : Option String
  /-- The identifier of the current page visit. -/
  visit : Option Nat
  modalDepth : Nat
  /-- How many visits there have been, which makes each identifier new. -/
  visits : Nat
deriving DecidableEq, Repr

namespace Shell

variable {ρ : Type}

def empty (policy : BroadcastPolicy) : Shell ρ :=
  ⟨.empty policy, none, none, 0, 0⟩

def mapRegistry (f : Registry ρ → Registry ρ) (s : Shell ρ) : Shell ρ :=
  { s with registry := f s.registry }

/-- Tear the current page down: its refreshers and its modals go. -/
def leave (s : Shell ρ) : Shell ρ where
  registry := if s.registry.isEmpty then s.registry else s.registry.clear
  page := none
  visit := none
  modalDepth := 0
  visits := s.visits

def leaveEvents (s : Shell ρ) : List Event :=
  (s.page.map fun page => Event.pageLeft page s.registry.size).toList ++
    (if s.modalDepth > 0 then [.pageLeftWithOpenModal s.modalDepth] else []) ++
    (if s.registry.isEmpty then [] else [s.registry.clearedEvent])

/-- Navigate to a page, which leaves the current one. -/
def enterPage (s : Shell ρ) (name : String) : Shell ρ :=
  { s.leave with page := some name, visit := some s.visits, visits := s.visits + 1 }

def enterPageEvents (s : Shell ρ) (name : String) : List Event :=
  s.leaveEvents ++ [.pageEntered name s.visits]

def openModal (s : Shell ρ) : Shell ρ :=
  { s with modalDepth := s.modalDepth + 1 }

def closeModal (s : Shell ρ) : Shell ρ :=
  { s with modalDepth := s.modalDepth - 1 }

/-- The broadcast that opening a modal calls for: the first one stops every refresher. -/
def opensWith (s : Shell ρ) : Option BroadcastKind :=
  if s.modalDepth = 0 then some .stop else none

/-- The broadcast that closing a modal calls for: the last one restarts every refresher. -/
def closesWith (s : Shell ρ) : Except ShellError (Option BroadcastKind) :=
  match s.modalDepth with
  | 0 => .error .noOpenModal
  | 1 => .ok (some .restart)
  | _ => .ok none

/-- The event of having opened a modal, logged in the state after it. -/
def openedEvent (s : Shell ρ) : Event :=
  .modalOpened s.modalDepth

/-- The event of having closed a modal, logged in the state after it. -/
def closedEvent (s : Shell ρ) : Event :=
  .modalClosed s.modalDepth

end Shell

end PageRefresh
