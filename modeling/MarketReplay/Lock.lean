/-
Named locks: at most one holder for each name.

Taking a lock never waits; a name that is held is refused. Releasing a name
frees that name only.
-/

namespace MarketReplay

/-- The proof of holding a name: the name, and since when. -/
structure Guard (τ : Type) where
  name : String
  acquiredAt : τ
deriving DecidableEq, Repr

/-- The names that are held, each with the time it was taken. -/
structure Locks (τ : Type) where
  guards : List (Guard τ)
deriving DecidableEq, Repr

namespace Locks

variable {τ : Type}

/-- The locks of which none is held. -/
def empty : Locks τ := ⟨[]⟩

variable (locks : Locks τ)

/-- The guard that holds a name. -/
def holder? (name : String) : Option (Guard τ) :=
  locks.guards.find? (·.name == name)

/-- Is the name held? -/
def isLocked (name : String) : Bool := (locks.holder? name).isSome

/-- Since when the name is held. -/
def acquiredAt? (name : String) : Option τ :=
  (locks.holder? name).map (·.acquiredAt)

/-- The names that are held, in ascending order. -/
def heldNames : List String :=
  (locks.guards.map (·.name)).mergeSort (· ≤ ·)

/-- A guard for a name, unless it is held. -/
def tryAcquire (name : String) (now : τ) : Option (Guard τ × Locks τ) :=
  if locks.isLocked name then none
  else
    let guard : Guard τ := ⟨name, now⟩
    some (guard, ⟨guard :: locks.guards⟩)

/-- The locks after a guard is given up. -/
def release (guard : Guard τ) : Locks τ :=
  ⟨locks.guards.filter (·.name != guard.name)⟩

end Locks

end MarketReplay
