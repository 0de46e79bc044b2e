/-
The book: everything one replay has learned of a marketplace.

Records stand in lists that only grow at their ends, so the position of a
record is its name inside the book. Three indices find records by what the
logs call them, and always answer the record that was added last under a key.
How an action finds its auction is the marketplace's choice: by the auction's
number, or by the token on sale.
-/
import MarketReplay.Book.Index
import MarketReplay.Event
import MarketReplay.Record

namespace MarketReplay

/-- The records of one replay, with the indices that find them. -/
structure Book where
  marketplace : Marketplace
  auctions : List Auction
  orders : List Order
  offers : List Offer
  auctionById : Index Nat
  auctionByIdentifier : Index String
  offerById : Index Nat
deriving DecidableEq, Repr

namespace Book

/-- The book of a marketplace before its first event. -/
def empty (marketplace : Marketplace) : Book where
  marketplace
  auctions := []
  orders := []
  offers := []
  auctionById := .empty
  auctionByIdentifier := .empty
  offerById := .empty

variable (book : Book)

-- ================================================================== adding

/-- The book with one more auction, found by its number and by its token. -/
def addAuction (auction : Auction) : Book :=
  { book with
    auctions := book.auctions ++ [auction]
    auctionById := book.auctionById.file auction.marketplaceAuctionId book.auctions.length
    auctionByIdentifier :=
      book.auctionByIdentifier.file auction.identifier book.auctions.length }

/-- The book with one more order. -/
def addOrder (order : Order) : Book :=
  { book with orders := book.orders ++ [order] }

/-- The book with one more offer, found by its number. -/
def addOffer (offer : Offer) : Book :=
  { book with
    offers := book.offers ++ [offer]
    offerById := book.offerById.file offer.marketplaceOfferId book.offers.length }

-- ================================================================= finding

/-- The position of the auction with a number. -/
def auctionIndex? (auctionId : Nat) : Option Nat :=
  book.auctionById.find? auctionId

/-- The position of the latest auction of a token. -/
def auctionIndexByIdentifier? (identifier : String) : Option Nat :=
  book.auctionByIdentifier.find? identifier

/-- The position of the offer with a number. -/
def offerIndex? (offerId : Nat) : Option Nat :=
  book.offerById.find? offerId

/-- The position of the auction that a listing refers to, found the way the
marketplace refers to its auctions. -/
def listingIndex? (listing : Listing) : Option Nat :=
  match book.marketplace.lookup with
  | .byAuctionId => book.auctionIndex? listing.auctionId
  | .byIdentifier => book.auctionIndexByIdentifier? listing.identifier

/-- The position of the auction that an action refers to. -/
def auctionIndexFor? (summary : ActionSummary) : Option Nat :=
  summary.listing?.bind book.listingIndex?

/-- The auction that an action refers to, with its position. -/
def auctionFor? (summary : ActionSummary) : Option (Nat × Auction) := do
  let index ← book.auctionIndexFor? summary
  let auction ← book.auctions[index]?
  return (index, auction)

/-- Has this transaction placed an order on the auction? -/
def hasOrder (auction : Nat) (txHash : String) : Bool :=
  book.orders.any fun order => order.auctionIndex == auction && order.blockHash == txHash

/-- Has the auction a standing bid? -/
def hasActiveOrder (auction : Nat) : Bool :=
  book.orders.any fun order => order.auctionIndex == auction && order.status == .active

/-- How many units of the auction are bought. The sum is taken without a bound.
A sum in words of 64 bits, like each order's number of units, is the same below
`2 ^ 64`; past that it would overflow, which is not modelled. -/
def boughtTokens (auction : Nat) : Nat :=
  let bought := book.orders.filter fun order =>
    order.auctionIndex == auction && order.status == .bought
  bought.foldl (fun total order => total + order.quantity) 0

/-- The position of the offer that this transaction accepted. -/
def offerAcceptedBy? (txHash : String) : Option Nat :=
  book.offers.findIdx? fun offer => offer.acceptedTxHash == some txHash

-- ================================================================ changing

/-- The book with one auction changed in place. -/
def modifyAuction (index : Nat) (change : Auction → Auction) : Book :=
  { book with auctions := book.auctions.modify index change }

/-- The book with one offer changed in place. -/
def modifyOffer (index : Nat) (change : Offer → Offer) : Book :=
  { book with offers := book.offers.modify index change }

/-- The book with the status of an auction moved on, if the move is legal. -/
def advanceAuction (index : Nat) (next : AuctionStatus) : Book :=
  book.modifyAuction index (·.advance next)

/-- The book with the statuses of all orders on an auction moved on, where the
move is legal. -/
def advanceOrders (auction : Nat) (next : OrderStatus) : Book :=
  { book with
    orders := book.orders.map fun order =>
      if order.auctionIndex = auction then order.advance next else order }

end Book

end MarketReplay
