/-
The records that a replay builds: auctions, the orders placed on them, and
offers. A record is written once and afterwards changed only in place; its
status changes only by `Lifecycle.advance`.
-/
import MarketReplay.Action
import MarketReplay.Record.Status

namespace MarketReplay

/-- An auction or fixed-price listing. -/
structure Auction where
  /-- The number it is stored under, given when it is first stored. -/
  id : Option Int
  /-- Its number at the marketplace. -/
  marketplaceAuctionId : Nat
  marketplaceKey : String
  collection : String
  nonce : Nat
  /-- The identifier of the token on sale. -/
  identifier : String
  /-- How many units are on sale. -/
  quantity : Nat
  status : AuctionStatus
  saleType : SaleType
  paymentToken : String
  paymentNonce : Nat
  owner : String
  minBid : Nat
  minBidDenominated : Float
  /-- The price at which a bid wins at once; zero if there is none. -/
  maxBid : Nat
  maxBidDenominated : Float
  minBidDiff : Nat
  startDate : Int
  /-- The deadline; zero if there is none. -/
  endDate : Int
  tags : List String
  /-- The transaction that opened it. -/
  blockHash : String
deriving DecidableEq, Repr

/-- A bid or a purchase. -/
structure Order where
  /-- The position of its auction in the book. -/
  auctionIndex : Nat
  /-- The number its auction is stored under. -/
  auctionId : Option Int
  marketplaceKey : String
  owner : String
  priceToken : String
  priceNonce : Nat
  priceAmount : Nat
  priceAmountDenominated : Float
  /-- How many units it is for. -/
  quantity : Nat
  status : OrderStatus
  /-- The transaction that placed it. -/
  blockHash : String
  timestamp : Int
deriving DecidableEq, Repr

/-- An offer for a token, or for any token of a collection. -/
structure Offer where
  marketplaceOfferId : Nat
  marketplaceKey : String
  collection : String
  /-- The token's nonce; zero if any token of the collection will do. -/
  nonce : Nat
  /-- The identifier of the token, or of the collection. -/
  identifier : String
  priceToken : String
  priceNonce : Nat
  priceAmount : Nat
  priceAmountDenominated : Float
  quantity : Nat
  owner : String
  status : OfferStatus
  /-- The deadline; zero if there is none. -/
  endDate : Int
  /-- The transaction that made it. -/
  blockHash : String
  /-- The transaction that accepted it. -/
  acceptedTxHash : Option String
  timestamp : Int
deriving DecidableEq, Repr

/-- An auction with its status moved on, if the move is legal. -/
def Auction.advance (auction : Auction) (next : AuctionStatus) : Auction :=
  { auction with status := Lifecycle.advance auction.status next }

/-- An order with its status moved on, if the move is legal. -/
def Order.advance (order : Order) (next : OrderStatus) : Order :=
  { order with status := Lifecycle.advance order.status next }

/-- An offer with its status moved on, if the move is legal. -/
def Offer.advance (offer : Offer) (next : OfferStatus) : Offer :=
  { offer with status := Lifecycle.advance offer.status next }

end MarketReplay
