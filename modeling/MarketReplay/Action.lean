/-
Actions: what a marketplace log reports, with its arguments.

Seven kinds concern a listing directly and extend the reference to it; an
accepted offer names a listing only if the token was listed, which auction
number zero says it was not. An `ActionSummary` is one action together with
what its event set says of all its actions.
-/
import MarketReplay.Action.Kind
import MarketReplay.Token

namespace MarketReplay

/-- How the tokens of an auction are sold. -/
inductive SaleType
  /-- A single token. -/
  | nft
  /-- All units to one buyer. -/
  | sftAll
  /-- Unit by unit. -/
  | sftOnePerPayment
deriving DecidableEq, Repr

/-- The way of selling with a given number on chain. -/
def SaleType.ofNumber : Nat → SaleType
  | 1 => .sftAll
  | 2 => .sftOnePerPayment
  | _ => .nft

/-- The number on chain of a way of selling. -/
def SaleType.number : SaleType → Nat
  | .nft => 0
  | .sftAll => 1
  | .sftOnePerPayment => 2

@[simp] theorem SaleType.ofNumber_number (saleType : SaleType) :
    ofNumber saleType.number = saleType := by
  cases saleType <;> rfl

-- ================================================================ payloads

/-- The listing that a log refers to: the auction's number at the marketplace
and the token on sale. -/
structure Listing where
  auctionId : Nat
  collection : String
  nonce : Nat
deriving DecidableEq, Repr

/-- The identifier of the token on sale. -/
def Listing.identifier (listing : Listing) : String :=
  tokenIdentifier listing.collection listing.nonce

/-- An auction opens. -/
structure Opening extends Listing where
  quantity : Nat
  owner : String
  minBid : Nat
  maxBid : Nat
  minBidDiff : Nat
  startTime : Int
  deadline : Int
  saleType : SaleType
deriving DecidableEq, Repr

/-- A bid is placed. -/
structure Bid extends Listing where
  quantity : Nat
  bidder : String
  amount : Nat
deriving DecidableEq, Repr

/-- Tokens are bought outright. -/
structure Purchase extends Listing where
  quantity : Nat
  buyer : String
  price : Nat
deriving DecidableEq, Repr

/-- An auction ends. -/
structure Ending extends Listing where
  winner : Option String
  amount : Nat
deriving DecidableEq, Repr

/-- An auction is withdrawn by its owner. -/
structure Withdrawal extends Listing
deriving DecidableEq, Repr

/-- A listing gets a new price. -/
structure Repricing extends Listing where
  newPrice : Nat
deriving DecidableEq, Repr

/-- A listing gets a new price, a new deadline, or both. -/
structure Revision extends Listing where
  newPrice : Option Nat
  deadline : Option Int
deriving DecidableEq, Repr

/-- An offer is made, for one token or, under nonce zero, for any token of a
collection. -/
structure OfferMade where
  offerId : Nat
  collection : String
  nonce : Nat
  owner : String
  amount : Nat
  quantity : Nat
  deadline : Int
deriving DecidableEq, Repr

/-- An offer is accepted. -/
structure OfferTaken where
  offerId : Nat
  collection : String
  nonce : Nat
  seller : String
  /-- The token's auction, zero if it was not listed. -/
  auctionId : Nat
deriving DecidableEq, Repr

/-- An offer is taken back. -/
structure OfferWithdrawn where
  offerId : Nat
  collection : String
  nonce : Nat
deriving DecidableEq, Repr

/-- An offer for any token of a collection is accepted. -/
structure GlobalOfferTaken where
  globalOfferId : Nat
  collection : String
  /-- The nonce of the token that was sold. -/
  nonce : Nat
  offerOwner : String
  seller : String
  amount : Nat
  /-- The token's auction, zero if it was not listed. -/
  auctionId : Nat
deriving DecidableEq, Repr

-- ================================================================= actions

/-- One reported action. -/
inductive Action
  | started (opening : Opening)
  | bid (bid : Bid)
  | bought (purchase : Purchase)
  | ended (ending : Ending)
  | closed (withdrawal : Withdrawal)
  | repriced (repricing : Repricing)
  | updated (revision : Revision)
  | offerCreated (offer : OfferMade)
  | offerAccepted (offer : OfferTaken)
  | offerClosed (offer : OfferWithdrawn)
  | globalOfferAccepted (offer : GlobalOfferTaken)
deriving DecidableEq, Repr

namespace Action

/-- The kind of an action. -/
def kind : Action → ActionKind
  | started _ => .started
  | bid _ => .bid
  | bought _ => .bought
  | ended _ => .ended
  | closed _ => .closed
  | repriced _ => .repriced
  | updated _ => .updated
  | offerCreated _ => .offerCreated
  | offerAccepted _ => .offerAccepted
  | offerClosed _ => .offerClosed
  | globalOfferAccepted _ => .globalOfferAccepted

/-- The listing an action refers to, if it refers to one. -/
def listing? : Action → Option Listing
  | started a => some a.toListing
  | bid a => some a.toListing
  | bought a => some a.toListing
  | ended a => some a.toListing
  | closed a => some a.toListing
  | repriced a => some a.toListing
  | updated a => some a.toListing
  | offerCreated _ => none
  | offerAccepted a =>
      if a.auctionId = 0 then none else some ⟨a.auctionId, a.collection, a.nonce⟩
  | offerClosed _ => none
  | globalOfferAccepted a =>
      if a.auctionId = 0 then none else some ⟨a.auctionId, a.collection, a.nonce⟩

end Action

/-- One action, with what its event set says of it. -/
structure ActionSummary where
  txHash : String
  timestamp : Int
  marketplaceKey : String
  /-- The token of the payment, named by the action or by a transfer beside
  it. -/
  paymentToken : Option String
  paymentNonce : Option Nat
  action : Action
deriving DecidableEq, Repr

namespace ActionSummary

/-- The kind of the action. -/
def kind (summary : ActionSummary) : ActionKind := summary.action.kind

/-- The listing the action refers to. -/
def listing? (summary : ActionSummary) : Option Listing := summary.action.listing?

/-- The identifier of the token that the action's listing sells. -/
def listingIdentifier? (summary : ActionSummary) : Option String :=
  summary.listing?.map Listing.identifier

end ActionSummary

end MarketReplay
