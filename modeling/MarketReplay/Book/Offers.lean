/-
What the actions on offers do to the book.

An accepted offer takes its token off the market: the listing the action
names is closed. An offer for any token of a collection is accepted without
its number being named; the action tells the owner and the price, and the
first open one that fits is taken. Which transaction took it is recorded, so
the same action is never taken twice.
-/
import MarketReplay.Book.Listings

namespace MarketReplay

/-- The offer that an action describes, priced in the given token. -/
def Offer.ofMade (summary : ActionSummary) (made : OfferMade) (payment : Payment) : Offer where
  marketplaceOfferId := made.offerId
  marketplaceKey := summary.marketplaceKey
  collection := made.collection
  nonce := made.nonce
  identifier :=
    if made.nonce = 0 then made.collection else tokenIdentifier made.collection made.nonce
  priceToken := payment.identifier
  priceNonce := payment.nonce
  priceAmount := made.amount
  priceAmountDenominated := denominate made.amount payment.decimals
  quantity := made.quantity
  owner := made.owner
  status := .created
  endDate := made.deadline
  blockHash := summary.txHash
  acceptedTxHash := none
  timestamp := summary.timestamp

/-- The offer accepted by a transaction, if it is still open. -/
def Offer.accept (offer : Offer) (txHash : String) : Offer :=
  if Lifecycle.canBecome offer.status OfferStatus.accepted then
    { offer.advance .accepted with acceptedTxHash := some txHash }
  else offer

/-- Is this an open offer for any token of the collection, by this owner and
at this price? -/
def Offer.fits (taken : GlobalOfferTaken) (offer : Offer) : Bool :=
  offer.status == .created && offer.nonce == 0 && offer.collection == taken.collection &&
    offer.owner == taken.offerOwner && offer.priceAmount == taken.amount

namespace Book

variable (book : Book) (summary : ActionSummary) (payment : Payment)

/-- An offer is made, unless its number is taken. -/
def makeOffer : Book :=
  match summary.action with
  | .offerCreated made =>
      match book.offerIndex? made.offerId with
      | some _ => book
      | none => book.addOffer (.ofMade summary made payment)
  | _ => book

/-- An offer is accepted, and the listing the action names is closed. -/
def acceptOffer : Book :=
  match summary.action with
  | .offerAccepted taken =>
      match book.offerIndex? taken.offerId with
      | some index => (book.modifyOffer index (·.accept summary.txHash)).closeAuction summary
      | none => book
  | _ => book

/-- An offer is taken back. -/
def withdrawOffer : Book :=
  match summary.action with
  | .offerClosed withdrawn =>
      match book.offerIndex? withdrawn.offerId with
      | some index => book.modifyOffer index (·.advance .closed)
      | none => book
  | _ => book

/-- The first open offer that fits is accepted, and the listing the action
names is closed whether or not there is one. -/
def acceptGlobalOffer : Book :=
  match summary.action with
  | .globalOfferAccepted taken =>
      match book.offerAcceptedBy? summary.txHash, book.offers.findIdx? (·.fits taken) with
      | some _, _ => book
      | none, some index =>
          (book.modifyOffer index (·.accept summary.txHash)).closeAuction summary
      | none, none => book.closeAuction summary
  | _ => book

end Book

end MarketReplay
