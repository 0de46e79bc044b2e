/-
The topic layout of marketplace logs, kind by kind.

Topic zero is the name of the event and the arguments follow it. The readers
below take the arguments in a fixed order, so that of two malformed ones a
definite one is named: first the payload, then the token the price is in and
its nonce. Contracts emit fewer topics the older they are; what a log leaves
out at its end is read as zero or as nothing.
-/
import MarketReplay.Action
import MarketReplay.Action.Vocabulary
import MarketReplay.Topic

namespace MarketReplay

/-- What one log says: its action, and the payment it names. -/
structure Reading where
  action : Action
  paymentToken : Option String
  paymentNonce : Option Nat
deriving DecidableEq, Repr

namespace Layout

open Topics (Read)

variable (topics : Topics)

-- =========================================================== shared topics

/-- The listing of a log: collection, nonce and auction, in that order. -/
def listing : Read Listing := do
  let collection ← topics.text 1
  let nonce ← topics.word 2
  let auctionId ← topics.word 3
  return { auctionId, collection, nonce }

/-- A reading that names no payment. -/
def unpaid (action : Action) : Reading := ⟨action, none, none⟩

/-- A reading that names the token at `index`, if there is one, and no
nonce. -/
def paidInToken (index : Nat) (action : Action) : Read Reading := do
  return ⟨action, ← topics.textOptional index, none⟩

/-- A reading that names the token at `index`, if there is one, with its nonce
in the topic after it. -/
def paidWithNonce (index : Nat) (action : Action) : Read Reading := do
  match ← topics.textOptional index with
  | some token => return ⟨action, some token, some (← topics.wordOrZero (index + 1))⟩
  | none => return unpaid action

-- ============================================================ the payloads

/-- An auction opens. -/
def opening : Read Opening := do
  let listing ← listing topics
  let quantity ← topics.word 4
  let owner ← topics.address 5
  let minBid ← topics.amount 6
  let maxBid ← topics.amountOrZero 7
  let startTime ← topics.timestampOrZero 8
  let deadline ← topics.timestampOrZero 9
  let saleType ← topics.wordOrZero 12
  let minBidDiff ← topics.amountOrZero 13
  return { listing with
    quantity := max quantity 1, owner, minBid, maxBid, minBidDiff, startTime, deadline
    saleType := .ofNumber saleType }

/-- A bid is placed. -/
def bid : Read Bid := do
  let listing ← listing topics
  let quantity ← topics.wordOrZero 4
  let bidder ← topics.address 5
  let amount ← topics.amount 6
  return { listing with quantity := max quantity 1, bidder, amount }

/-- Tokens are bought. -/
def purchase : Read Purchase := do
  let listing ← listing topics
  let quantity ← topics.wordOrZero 4
  let buyer ← topics.address 5
  let price ← topics.amount 6
  return { listing with quantity := max quantity 1, buyer, price }

/-- An auction ends. -/
def ending : Read Ending := do
  let listing ← listing topics
  let winner ← topics.addressOptional 5
  let amount ← topics.amountOrZero 6
  return { listing with winner, amount }

/-- An auction is withdrawn. -/
def withdrawal : Read Withdrawal := do
  return { ← listing topics with }

/-- A listing is repriced. -/
def repricing : Read Repricing := do
  let listing ← listing topics
  let newPrice ← topics.amount 4
  return { listing with newPrice }

/-- A listing is updated; a deadline of zero is none, and it is read before
everything else. -/
def revision : Read Revision := do
  let deadline ← topics.timestampOptional 5
  let listing ← listing topics
  let newPrice ← topics.amountOptional 4
  return { listing with newPrice, deadline }

/-- An offer is made. -/
def offerMade : Read OfferMade := do
  let collection ← topics.text 1
  let nonce ← topics.wordOrZero 2
  let offerId ← topics.word 3
  let amount ← topics.amount 6
  let deadline ← topics.timestampOrZero 7
  let owner ← topics.address 8
  let quantity ← topics.wordOrZero 9
  return { offerId, collection, nonce, owner, amount, quantity := max quantity 1, deadline }

/-- An offer is accepted. -/
def offerTaken : Read OfferTaken := do
  let collection ← topics.text 1
  let nonce ← topics.word 2
  let offerId ← topics.word 3
  let seller ← topics.address 4
  let auctionId ← topics.wordOrZero 5
  return { offerId, collection, nonce, seller, auctionId }

/-- An offer is taken back. -/
def offerWithdrawn : Read OfferWithdrawn := do
  let collection ← topics.text 1
  let nonce ← topics.wordOrZero 2
  let offerId ← topics.word 3
  return { offerId, collection, nonce }

/-- An offer for any token of a collection is accepted. -/
def globalOfferTaken : Read GlobalOfferTaken := do
  let globalOfferId ← topics.word 1
  let collection ← topics.text 2
  let nonce ← topics.word 3
  let offerOwner ← topics.address 4
  let seller ← topics.address 5
  let amount ← topics.amount 6
  let auctionId ← topics.wordOrZero 7
  return { globalOfferId, collection, nonce, offerOwner, seller, amount, auctionId }

-- ================================================================ the kinds

/-- What the log of an action of this kind says. -/
def read (kind : ActionKind) : Read Reading := do
  match kind with
  | .started => paidWithNonce topics 10 (.started (← opening topics))
  | .bid => paidWithNonce topics 7 (.bid (← bid topics))
  | .bought => paidWithNonce topics 7 (.bought (← purchase topics))
  | .ended => paidInToken topics 7 (.ended (← ending topics))
  | .closed => return unpaid (.closed (← withdrawal topics))
  | .repriced => paidWithNonce topics 5 (.repriced (← repricing topics))
  | .updated => paidInToken topics 6 (.updated (← revision topics))
  | .offerCreated => paidWithNonce topics 4 (.offerCreated (← offerMade topics))
  | .offerAccepted => return unpaid (.offerAccepted (← offerTaken topics))
  | .offerClosed => return unpaid (.offerClosed (← offerWithdrawn topics))
  | .globalOfferAccepted => return unpaid (.globalOfferAccepted (← globalOfferTaken topics))

/-- The token and nonce of a transfer log that pays into `receiver`; a log
that does not, or that is malformed, pays nothing. -/
def transferInto? (receiver : String) (layout : TransferLayout) :
    Option (String × Nat) := do
  let last ← match layout with
    | .single => some 3
    | .multi => if topics.texts.isEmpty then none else some (topics.texts.length - 1)
  let address ← (topics.address last).toOption
  guard (address == receiver)
  let token ← (topics.text 0).toOption
  let nonce ← (topics.wordOrZero 1).toOption
  return (token, nonce)

end Layout

end MarketReplay
