/-
The stored records: three tables, each with one row for a key.

Storing a record replaces the row of its key in place, or else adds one at the
end. Auctions are numbered by their rows from one on, so an auction keeps its
number however often it is stored; orders are stored under the number of their
auction, and one without it stops the storing at that point.
-/
import MarketReplay.Error
import MarketReplay.Record

namespace MarketReplay

/-- The rows with one more: in place of the row of the same key, or at the
end. -/
def upsert {κ ρ : Type} [DecidableEq κ] (key : ρ → κ) (row : ρ) : List ρ → List ρ
  | [] => [row]
  | head :: tail => if key head = key row then row :: tail else head :: upsert key row tail

/-- What an auction is stored under. -/
def Auction.key (auction : Auction) : Nat × String :=
  (auction.marketplaceAuctionId, auction.marketplaceKey)

/-- What an order is stored under. -/
def Order.key (order : Order) : Option Int × String :=
  (order.auctionId, order.blockHash)

/-- What an offer is stored under. -/
def Offer.key (offer : Offer) : Nat × String :=
  (offer.marketplaceOfferId, offer.marketplaceKey)

/-- The stored records. -/
structure Tables where
  auctions : List Auction
  orders : List Order
  offers : List Offer
deriving DecidableEq, Repr

namespace Tables

/-- The tables without rows. -/
def empty : Tables := ⟨[], [], []⟩

variable (tables : Tables)

/-- The number an auction is stored under, or would be. -/
def auctionId (auction : Auction) : Int :=
  tables.auctions.findIdx (·.key == auction.key) + 1

/-- The tables with one more auction. -/
def saveAuction (auction : Auction) : Tables :=
  let row := { auction with id := some (tables.auctionId auction) }
  { tables with auctions := upsert Auction.key row tables.auctions }

/-- The numbers that some auctions are stored under, and the tables with
them. -/
def saveAuctions (tables : Tables) : List Auction → List Int × Tables
  | [] => ([], tables)
  | auction :: rest =>
      let (ids, saved) := saveAuctions (tables.saveAuction auction) rest
      (tables.auctionId auction :: ids, saved)

/-- The tables with some more orders, up to the first that has no auction;
that one is the error. -/
def saveOrders (tables : Tables) : List Order → Except SinkFault Unit × Tables
  | [] => (.ok (), tables)
  | order :: rest =>
      match order.auctionId with
      | none => (.error (.unboundOrder order.blockHash), tables)
      | some _ => saveOrders { tables with orders := upsert Order.key order tables.orders } rest

/-- The tables with some more offers. -/
def saveOffers (offers : List Offer) : Tables :=
  offers.foldl
    (fun tables offer => { tables with offers := upsert Offer.key offer tables.offers }) tables

end Tables

end MarketReplay
