/-
The statuses of records, and the moves between them.

Each kind of record starts in one status and leaves it at most once: every
other status is final. `advance` makes a move if it is legal and otherwise
leaves the status as it is, so repeating a move, or making a late one, changes
nothing.
-/

namespace MarketReplay

/-- A status with a fixed table of legal moves. -/
class Lifecycle (σ : Type) where
  /-- May the first status move to the second? -/
  canBecome : σ → σ → Bool
  /-- Does no move leave the status? -/
  isFinal : σ → Bool

namespace Lifecycle

variable {σ : Type} [Lifecycle σ]

/-- The status after trying to move on. -/
def advance (current next : σ) : σ :=
  if canBecome current next then next else current

end Lifecycle

-- ================================================================ auctions

inductive AuctionStatus
  | running
  | ended
  /-- Past its deadline with a standing bid. -/
  | claimable
  /-- Withdrawn, or its token sold elsewhere. -/
  | closed
  /-- Past its deadline without a bid. -/
  | expired
deriving DecidableEq, Repr

instance : Lifecycle AuctionStatus where
  canBecome current next := current == .running && next != .running
  isFinal status := status != .running

-- ================================================================== orders

inductive OrderStatus
  /-- A standing bid. -/
  | active
  | outbid
  | bought
deriving DecidableEq, Repr

instance : Lifecycle OrderStatus where
  canBecome current next := current == .active && next != .active
  isFinal status := status != .active

-- ================================================================== offers

inductive OfferStatus
  | created
  | accepted
  | closed
deriving DecidableEq, Repr

instance : Lifecycle OfferStatus where
  canBecome current next := current == .created && next != .created
  isFinal status := status != .created

-- ================================================================== lemmas

namespace AuctionStatus

@[simp] theorem advance_running (next : AuctionStatus) :
    Lifecycle.advance running next = next := by
  cases next <;> rfl

theorem advance_of_ne_running {current : AuctionStatus} (h : current ≠ running)
    (next : AuctionStatus) : Lifecycle.advance current next = current := by
  simp [Lifecycle.advance, Lifecycle.canBecome, h]

end AuctionStatus

namespace OrderStatus

@[simp] theorem advance_active (next : OrderStatus) :
    Lifecycle.advance active next = next := by
  cases next <;> rfl

theorem advance_of_ne_active {current : OrderStatus} (h : current ≠ active)
    (next : OrderStatus) : Lifecycle.advance current next = current := by
  simp [Lifecycle.advance, Lifecycle.canBecome, h]

end OrderStatus

namespace OfferStatus

@[simp] theorem advance_created (next : OfferStatus) :
    Lifecycle.advance created next = next := by
  cases next <;> rfl

theorem advance_of_ne_created {current : OfferStatus} (h : current ≠ created)
    (next : OfferStatus) : Lifecycle.advance current next = current := by
  simp [Lifecycle.advance, Lifecycle.canBecome, h]

end OfferStatus

end MarketReplay
