/-
What bids and purchases do to the book.

Both refer to an auction and do nothing if the book has none, or if their
transaction has already placed an order on it. A bid outbids the one that
stood; at the maximum or above it wins at once. A purchase that brings the
units bought to the units on sale ends the auction and outbids the standing
bid.
-/
import MarketReplay.Book

namespace MarketReplay

/-- A new order on the auction at a position. -/
def Order.ofAction (auction : Nat) (summary : ActionSummary) (payment : Payment)
    (owner : String) (amount quantity : Nat) (status : OrderStatus) : Order where
  auctionIndex := auction
  auctionId := none
  marketplaceKey := summary.marketplaceKey
  owner
  priceToken := payment.identifier
  priceNonce := payment.nonce
  priceAmount := amount
  priceAmountDenominated := denominate amount payment.decimals
  quantity
  status
  blockHash := summary.txHash
  timestamp := summary.timestamp

/-- Does a bid of this amount win the auction at once? -/
def Auction.isWonBy (auction : Auction) (amount : Nat) : Bool :=
  auction.maxBid != 0 && auction.maxBid ≤ amount

namespace Book

variable (book : Book) (summary : ActionSummary) (payment : Payment)

/-- A bid is placed. -/
def placeBid : Book :=
  match summary.action, book.auctionFor? summary with
  | .bid bid, some (index, auction) =>
      if book.hasOrder index summary.txHash then book
      else
        let outbid := book.advanceOrders index .outbid
        let order := Order.ofAction index summary payment bid.bidder bid.amount bid.quantity
        if auction.isWonBy bid.amount then
          (outbid.addOrder (order .bought)).advanceAuction index .ended
        else outbid.addOrder (order .active)
  | _, _ => book

/-- Tokens are bought. -/
def buyTokens : Book :=
  match summary.action, book.auctionFor? summary with
  | .bought purchase, some (index, auction) =>
      if book.hasOrder index summary.txHash then book
      else
        let bought := book.addOrder
          (.ofAction index summary payment purchase.buyer purchase.price purchase.quantity .bought)
        if auction.quantity ≤ bought.boughtTokens index then
          (bought.advanceOrders index .outbid).advanceAuction index .ended
        else bought
  | _, _ => book

end Book

end MarketReplay
