/-
Auctions, orders, offers and whole tables as documents.
-/
import MarketReplay.Document.Action
import MarketReplay.Store.Tables

namespace MarketReplay

open Json (Shape Value)

-- ================================================================ statuses

namespace AuctionStatus

def all : List AuctionStatus := [running, ended, claimable, closed, expired]

/-- The name of a status in documents. -/
def name : AuctionStatus → String
  | running => "Running"
  | ended => "Ended"
  | claimable => "Claimable"
  | closed => "Closed"
  | expired => "Expired"

end AuctionStatus

namespace OrderStatus

def all : List OrderStatus := [active, outbid, bought]

/-- The name of a status in documents. -/
def name : OrderStatus → String
  | active => "Active"
  | outbid => "Outbid"
  | bought => "Bought"

end OrderStatus

namespace OfferStatus

def all : List OfferStatus := [created, accepted, closed]

/-- The name of a status in documents. -/
def name : OfferStatus → String
  | created => "Created"
  | accepted => "Accepted"
  | closed => "Closed"

end OfferStatus

-- ================================================================ auctions

namespace Auction

/-- Reads an auction. -/
def shape : Shape Auction := fun value => do
  let fields ← Shape.fields
    ["id", "marketplace_auction_id", "marketplace_key", "collection", "nonce", "identifier",
      "nr_auctioned_tokens", "status", "auction_type", "payment_token", "payment_nonce",
      "owner_address", "min_bid", "min_bid_denominated", "max_bid", "max_bid_denominated",
      "min_bid_diff", "start_date", "end_date", "tags", "block_hash"] value
  return {
    id := ← fields.nullable "id" .integer
    marketplaceAuctionId := ← fields.required "marketplace_auction_id" Shape.word
    marketplaceKey := ← fields.required "marketplace_key" .string
    collection := ← fields.required "collection" .string
    nonce := ← fields.required "nonce" Shape.word
    identifier := ← fields.required "identifier" .string
    quantity := ← fields.required "nr_auctioned_tokens" Shape.word
    status := ← fields.required "status" (.oneOf AuctionStatus.all AuctionStatus.name)
    saleType := ← fields.required "auction_type" (.oneOf SaleType.all SaleType.name)
    paymentToken := ← fields.required "payment_token" .string
    paymentNonce := ← fields.required "payment_nonce" Shape.word
    owner := ← fields.required "owner_address" .string
    minBid := ← fields.required "min_bid" Shape.amount
    minBidDenominated := ← fields.required "min_bid_denominated" .float
    maxBid := ← fields.required "max_bid" Shape.amount
    maxBidDenominated := ← fields.required "max_bid_denominated" .float
    minBidDiff := ← fields.required "min_bid_diff" Shape.amount
    startDate := ← fields.required "start_date" .integer
    endDate := ← fields.required "end_date" .integer
    tags := ← fields.required "tags" Shape.string.list
    blockHash := ← fields.required "block_hash" .string }

/-- Writes an auction. -/
def document (spelling : Spelling) (auction : Auction) : Value :=
  .record [
    ("id", .optional spelling.integer auction.id),
    ("marketplace_auction_id", spelling.natural auction.marketplaceAuctionId),
    ("marketplace_key", .string auction.marketplaceKey),
    ("collection", .string auction.collection),
    ("nonce", spelling.natural auction.nonce),
    ("identifier", .string auction.identifier),
    ("nr_auctioned_tokens", spelling.natural auction.quantity),
    ("status", .string auction.status.name),
    ("auction_type", .string auction.saleType.name),
    ("payment_token", .string auction.paymentToken),
    ("payment_nonce", spelling.natural auction.paymentNonce),
    ("owner_address", .string auction.owner),
    ("min_bid", spelling.natural auction.minBid),
    ("min_bid_denominated", spelling.float auction.minBidDenominated),
    ("max_bid", spelling.natural auction.maxBid),
    ("max_bid_denominated", spelling.float auction.maxBidDenominated),
    ("min_bid_diff", spelling.natural auction.minBidDiff),
    ("start_date", spelling.integer auction.startDate),
    ("end_date", spelling.integer auction.endDate),
    ("tags", .list .string auction.tags),
    ("block_hash", .string auction.blockHash)]

end Auction

-- ================================================================== orders

namespace Order

/-- Reads an order. -/
def shape : Shape Order := fun value => do
  let fields ← Shape.fields
    ["auction_index", "auction_id", "marketplace_key", "owner_address", "price_token",
      "price_nonce", "price_amount", "price_amount_denominated", "bought_tokens", "status",
      "block_hash", "timestamp"] value
  return {
    auctionIndex := ← fields.required "auction_index" Shape.word
    auctionId := ← fields.nullable "auction_id" .integer
    marketplaceKey := ← fields.required "marketplace_key" .string
    owner := ← fields.required "owner_address" .string
    priceToken := ← fields.required "price_token" .string
    priceNonce := ← fields.required "price_nonce" Shape.word
    priceAmount := ← fields.required "price_amount" Shape.amount
    priceAmountDenominated := ← fields.required "price_amount_denominated" .float
    quantity := ← fields.required "bought_tokens" Shape.word
    status := ← fields.required "status" (.oneOf OrderStatus.all OrderStatus.name)
    blockHash := ← fields.required "block_hash" .string
    timestamp := ← fields.required "timestamp" .integer }

/-- Writes an order. -/
def document (spelling : Spelling) (order : Order) : Value :=
  .record [
    ("auction_index", .nat order.auctionIndex),
    ("auction_id", .optional spelling.integer order.auctionId),
    ("marketplace_key", .string order.marketplaceKey),
    ("owner_address", .string order.owner),
    ("price_token", .string order.priceToken),
    ("price_nonce", spelling.natural order.priceNonce),
    ("price_amount", spelling.natural order.priceAmount),
    ("price_amount_denominated", spelling.float order.priceAmountDenominated),
    ("bought_tokens", spelling.natural order.quantity),
    ("status", .string order.status.name),
    ("block_hash", .string order.blockHash),
    ("timestamp", spelling.integer order.timestamp)]

end Order

-- ================================================================== offers

namespace Offer

/-- Reads an offer. -/
def shape : Shape Offer := fun value => do
  let fields ← Shape.fields
    ["marketplace_offer_id", "marketplace_key", "collection", "nonce", "identifier",
      "price_token", "price_nonce", "price_amount", "price_amount_denominated", "quantity",
      "owner_address", "status", "end_date", "block_hash", "accepted_tx_hash", "timestamp"] value
  return {
    marketplaceOfferId := ← fields.required "marketplace_offer_id" Shape.word
    marketplaceKey := ← fields.required "marketplace_key" .string
    collection := ← fields.required "collection" .string
    nonce := ← fields.required "nonce" Shape.word
    identifier := ← fields.required "identifier" .string
    priceToken := ← fields.required "price_token" .string
    priceNonce := ← fields.required "price_nonce" Shape.word
    priceAmount := ← fields.required "price_amount" Shape.amount
    priceAmountDenominated := ← fields.required "price_amount_denominated" .float
    quantity := ← fields.required "quantity" Shape.word
    owner := ← fields.required "owner_address" .string
    status := ← fields.required "status" (.oneOf OfferStatus.all OfferStatus.name)
    endDate := ← fields.required "end_date" .integer
    blockHash := ← fields.required "block_hash" .string
    acceptedTxHash := ← fields.nullable "accepted_tx_hash" .string
    timestamp := ← fields.required "timestamp" .integer }

/-- Writes an offer. -/
def document (spelling : Spelling) (offer : Offer) : Value :=
  .record [
    ("marketplace_offer_id", spelling.natural offer.marketplaceOfferId),
    ("marketplace_key", .string offer.marketplaceKey),
    ("collection", .string offer.collection),
    ("nonce", spelling.natural offer.nonce),
    ("identifier", .string offer.identifier),
    ("price_token", .string offer.priceToken),
    ("price_nonce", spelling.natural offer.priceNonce),
    ("price_amount", spelling.natural offer.priceAmount),
    ("price_amount_denominated", spelling.float offer.priceAmountDenominated),
    ("quantity", spelling.natural offer.quantity),
    ("owner_address", .string offer.owner),
    ("status", .string offer.status.name),
    ("end_date", spelling.integer offer.endDate),
    ("block_hash", .string offer.blockHash),
    ("accepted_tx_hash", .optional .string offer.acceptedTxHash),
    ("timestamp", spelling.integer offer.timestamp)]

end Offer

-- ================================================================== tables

/-- The members that the tables make. -/
def Tables.members (spelling : Spelling) (tables : Tables) : List (String × Value) :=
  [("auctions", .list (Auction.document spelling) tables.auctions),
    ("orders", .list (Order.document spelling) tables.orders),
    ("offers", .list (Offer.document spelling) tables.offers)]

end MarketReplay
