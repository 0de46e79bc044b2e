/-
The log that reports an action: its topics, laid out as they are read.

After the name of the event stands every argument of the action, an absent one
as an empty topic, so that what follows it keeps its place. Two kinds of log
carry arguments that are never read; `Aside` holds these. Writing fails only
on an address that is none.
-/
import MarketReplay.Action.Layout

namespace MarketReplay

/-- What the logs of endings and withdrawals carry beside what is read. -/
structure Aside where
  /-- The units on sale. -/
  quantity : Nat
  /-- Who put them on sale; older logs do not say. -/
  owner : Option String
deriving DecidableEq, Repr

namespace Layout

/-- The result of writing topics. -/
abbrev Write (α : Type) := Except Address.Fault α

-- =========================================================== single topics

/-- The topic of a time. -/
def ofTime (time : Int) : String := Topic.ofNat time.toNat

/-- The topic of an argument, empty if it is absent. -/
def ofOptional {α : Type} (write : α → String) (argument : Option α) : String :=
  (argument.map write).getD (Topic.ofBytes [])

/-- The topic of an address, empty if it is absent. -/
def ofOptionalAddress : Option String → Write String
  | some address => Topic.ofAddress address
  | none => return Topic.ofBytes []

-- =========================================================== shared topics

/-- The topics of a listing. -/
def ofListing (listing : Listing) : List String :=
  [Topic.ofText listing.collection, Topic.ofNat listing.nonce, Topic.ofNat listing.auctionId]

/-- The topic of the token that a reading names. -/
def ofToken (reading : Reading) : String :=
  ofOptional Topic.ofText reading.paymentToken

/-- The topics of the token that a reading names, and of its nonce. -/
def ofPayment (reading : Reading) : List String :=
  [ofToken reading, ofOptional Topic.ofNat reading.paymentNonce]

-- =============================================================== the kinds

/-- The topics of a reading's arguments. -/
def arguments (aside : Aside) (reading : Reading) : Write (List String) := do
  match reading.action with
  | .started a =>
      return ofListing a.toListing ++
        [Topic.ofNat a.quantity, ← Topic.ofAddress a.owner, Topic.ofNat a.minBid,
          Topic.ofNat a.maxBid, ofTime a.startTime, ofTime a.deadline] ++
        ofPayment reading ++ [Topic.ofNat a.saleType.number, Topic.ofNat a.minBidDiff]
  | .bid a =>
      return ofListing a.toListing ++
        [Topic.ofNat a.quantity, ← Topic.ofAddress a.bidder, Topic.ofNat a.amount] ++
        ofPayment reading
  | .bought a =>
      return ofListing a.toListing ++
        [Topic.ofNat a.quantity, ← Topic.ofAddress a.buyer, Topic.ofNat a.price] ++
        ofPayment reading
  | .ended a =>
      return ofListing a.toListing ++
        [Topic.ofNat aside.quantity, ← ofOptionalAddress a.winner, Topic.ofNat a.amount,
          ofToken reading]
  | .closed a =>
      return ofListing a.toListing ++
        [Topic.ofNat aside.quantity, ← ofOptionalAddress aside.owner]
  | .repriced a =>
      return ofListing a.toListing ++ [Topic.ofNat a.newPrice] ++ ofPayment reading
  | .updated a =>
      return ofListing a.toListing ++
        [ofOptional Topic.ofNat a.newPrice, ofOptional ofTime a.deadline, ofToken reading]
  | .offerCreated a =>
      return [Topic.ofText a.collection, Topic.ofNat a.nonce, Topic.ofNat a.offerId] ++
        ofPayment reading ++
        [Topic.ofNat a.amount, ofTime a.deadline, ← Topic.ofAddress a.owner,
          Topic.ofNat a.quantity]
  | .offerAccepted a =>
      return [Topic.ofText a.collection, Topic.ofNat a.nonce, Topic.ofNat a.offerId,
        ← Topic.ofAddress a.seller, Topic.ofNat a.auctionId]
  | .offerClosed a =>
      return [Topic.ofText a.collection, Topic.ofNat a.nonce, Topic.ofNat a.offerId]
  | .globalOfferAccepted a =>
      return [Topic.ofNat a.globalOfferId, Topic.ofText a.collection, Topic.ofNat a.nonce,
        ← Topic.ofAddress a.offerOwner, ← Topic.ofAddress a.seller, Topic.ofNat a.amount,
        Topic.ofNat a.auctionId]

/-- The topics of the log that reports a reading under an event's name. -/
def write (name : String) (aside : Aside) (reading : Reading) : Write Topics := do
  return ⟨Topic.ofText name :: (← arguments aside reading)⟩

end Layout

end MarketReplay
