import PageRefresh.Event

/-!
The registry: the refreshers of the current page in order, and the one that is responsible for the
page's main content.

Registration order is kept and a refresher may be registered any number of times. Only `clear`
takes refreshers out.
-/

namespace PageRefresh

/-- The registered refreshers, of any kind `ρ`. -/
structure Registry (ρ : Type) where
  policy : BroadcastPolicy
  entries : List ρ
  /-- The main refresher; while nobody holds the office, a refresher that does nothing stands in. -/
  main : Option ρ
deriving DecidableEq, Repr

namespace Registry

variable {ρ : Type}

def empty (policy : BroadcastPolicy) : Registry ρ :=
  ⟨policy, [], none⟩

def size (r : Registry ρ) : Nat :=
  r.entries.length

def isEmpty (r : Registry ρ) : Bool :=
  r.entries.isEmpty

def add (r : Registry ρ) (x : ρ) : Registry ρ :=
  { r with entries := r.entries ++ [x] }

/-- Register a refresher as the main one. The one it supersedes stays registered. -/
def addMain (r : Registry ρ) (x : ρ) : Registry ρ :=
  { r with entries := r.entries ++ [x], main := some x }

/-- Forget every refresher, the main one too. -/
def clear (r : Registry ρ) : Registry ρ :=
  { r with entries := [], main := none }

/-- The event of registering next a refresher of this name. -/
def addedEvent (r : Registry ρ) (fragment : Option String) (isMain : Bool) : Event :=
  .refresherAdded fragment isMain r.size

def clearedEvent (r : Registry ρ) : Event :=
  .registryCleared r.size

end Registry

end PageRefresh
