/-
The kinds of action that are replayed, in their fixed order, with the two
spellings each has: its name in documents and its label in messages.
-/

namespace MarketReplay

/-- What a marketplace log can report. -/
inductive ActionKind
  | started
  | bid
  | bought
  | ended
  | closed
  | repriced
  | updated
  | offerCreated
  | offerAccepted
  | offerClosed
  | globalOfferAccepted
deriving DecidableEq, Repr

namespace ActionKind

/-- Every kind once, in order. -/
def all : List ActionKind :=
  [started, bid, bought, ended, closed, repriced, updated, offerCreated, offerAccepted,
    offerClosed, globalOfferAccepted]

/-- The place of a kind in the order. -/
def position : ActionKind → Nat
  | started => 0
  | bid => 1
  | bought => 2
  | ended => 3
  | closed => 4
  | repriced => 5
  | updated => 6
  | offerCreated => 7
  | offerAccepted => 8
  | offerClosed => 9
  | globalOfferAccepted => 10

/-- The name of a kind in documents. -/
def name : ActionKind → String
  | started => "StartedAuction"
  | bid => "Bid"
  | bought => "Bought"
  | ended => "EndedAuction"
  | closed => "ClosedAuction"
  | repriced => "PriceUpdated"
  | updated => "Updated"
  | offerCreated => "OfferCreated"
  | offerAccepted => "OfferAccepted"
  | offerClosed => "OfferClosed"
  | globalOfferAccepted => "GlobalOfferAccepted"

/-- The name of a kind in messages. -/
def label : ActionKind → String
  | started => "started-auction"
  | bid => "bid"
  | bought => "bought"
  | ended => "ended-auction"
  | closed => "closed-auction"
  | repriced => "price-updated"
  | updated => "updated"
  | offerCreated => "offer-created"
  | offerAccepted => "offer-accepted"
  | offerClosed => "offer-closed"
  | globalOfferAccepted => "global-offer-accepted"

/-- Does replaying this kind put a price on something, so that the token it
is paid in must be known first? -/
def isPriced : ActionKind → Bool
  | started | bid | bought | ended | repriced | updated | offerCreated => true
  | closed | offerAccepted | offerClosed | globalOfferAccepted => false

/-- Every kind is listed. -/
theorem mem_all (kind : ActionKind) : kind ∈ all := by
  cases kind <;> simp [all]

/-- A kind stands in the list at its position. -/
theorem getElem?_all_position (kind : ActionKind) : all[kind.position]? = some kind := by
  cases kind <;> rfl

end ActionKind

end MarketReplay
