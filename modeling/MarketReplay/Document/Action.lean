/-
Action summaries as documents. The action is an object with one member, named
for its kind, that holds the arguments.
-/
import MarketReplay.Action
import MarketReplay.Document.Spelling

namespace MarketReplay

open Json (Shape Value)
open Json.Shape (Fields)

namespace SaleType

def all : List SaleType := [nft, sftAll, sftOnePerPayment]

/-- The name of a way of selling in documents. -/
def name : SaleType → String
  | nft => "Nft"
  | sftAll => "SftAll"
  | sftOnePerPayment => "SftOnePerPayment"

end SaleType

-- ================================================================= reading

/-- Reads the listing that a record starts with. -/
def Listing.ofFields (fields : Fields) : Option Listing := do
  return {
    auctionId := ← fields.required "auction_id" Shape.word
    collection := ← fields.required "collection" .string
    nonce := ← fields.required "nonce" Shape.word }

namespace Action

/-- The names of the arguments of a kind, in order. -/
def fieldNames : ActionKind → List String
  | .started =>
      ["auction_id", "collection", "nonce", "quantity", "owner", "min_bid", "max_bid",
        "min_bid_diff", "start_time", "deadline", "auction_type"]
  | .bid => ["auction_id", "collection", "nonce", "quantity", "bidder", "amount"]
  | .bought => ["auction_id", "collection", "nonce", "quantity", "buyer", "price"]
  | .ended => ["auction_id", "collection", "nonce", "winner", "amount"]
  | .closed => ["auction_id", "collection", "nonce"]
  | .repriced => ["auction_id", "collection", "nonce", "new_price"]
  | .updated => ["auction_id", "collection", "nonce", "new_price", "deadline"]
  | .offerCreated =>
      ["offer_id", "collection", "nonce", "owner", "amount", "quantity", "deadline"]
  | .offerAccepted => ["offer_id", "collection", "nonce", "seller", "auction_id"]
  | .offerClosed => ["offer_id", "collection", "nonce"]
  | .globalOfferAccepted =>
      ["global_offer_id", "collection", "nonce", "offer_owner", "seller", "amount",
        "auction_id"]

/-- Reads the arguments of an action of one kind. -/
def ofFields (kind : ActionKind) (fields : Fields) : Option Action := do
  match kind with
  | .started => return .started {
      ← Listing.ofFields fields with
      quantity := ← fields.required "quantity" Shape.word
      owner := ← fields.required "owner" .string
      minBid := ← fields.required "min_bid" Shape.amount
      maxBid := ← fields.required "max_bid" Shape.amount
      minBidDiff := ← fields.required "min_bid_diff" Shape.amount
      startTime := ← fields.required "start_time" .integer
      deadline := ← fields.required "deadline" .integer
      saleType := ← fields.required "auction_type" (.oneOf SaleType.all SaleType.name) }
  | .bid => return .bid {
      ← Listing.ofFields fields with
      quantity := ← fields.required "quantity" Shape.word
      bidder := ← fields.required "bidder" .string
      amount := ← fields.required "amount" Shape.amount }
  | .bought => return .bought {
      ← Listing.ofFields fields with
      quantity := ← fields.required "quantity" Shape.word
      buyer := ← fields.required "buyer" .string
      price := ← fields.required "price" Shape.amount }
  | .ended => return .ended {
      ← Listing.ofFields fields with
      winner := ← fields.nullable "winner" .string
      amount := ← fields.required "amount" Shape.amount }
  | .closed => return .closed { ← Listing.ofFields fields with }
  | .repriced => return .repriced {
      ← Listing.ofFields fields with
      newPrice := ← fields.required "new_price" Shape.amount }
  | .updated => return .updated {
      ← Listing.ofFields fields with
      newPrice := ← fields.nullable "new_price" Shape.amount
      deadline := ← fields.nullable "deadline" .integer }
  | .offerCreated => return .offerCreated {
      offerId := ← fields.required "offer_id" Shape.word
      collection := ← fields.required "collection" .string
      nonce := ← fields.required "nonce" Shape.word
      owner := ← fields.required "owner" .string
      amount := ← fields.required "amount" Shape.amount
      quantity := ← fields.required "quantity" Shape.word
      deadline := ← fields.required "deadline" .integer }
  | .offerAccepted => return .offerAccepted {
      offerId := ← fields.required "offer_id" Shape.word
      collection := ← fields.required "collection" .string
      nonce := ← fields.required "nonce" Shape.word
      seller := ← fields.required "seller" .string
      auctionId := ← fields.required "auction_id" Shape.word }
  | .offerClosed => return .offerClosed {
      offerId := ← fields.required "offer_id" Shape.word
      collection := ← fields.required "collection" .string
      nonce := ← fields.required "nonce" Shape.word }
  | .globalOfferAccepted => return .globalOfferAccepted {
      globalOfferId := ← fields.required "global_offer_id" Shape.word
      collection := ← fields.required "collection" .string
      nonce := ← fields.required "nonce" Shape.word
      offerOwner := ← fields.required "offer_owner" .string
      seller := ← fields.required "seller" .string
      amount := ← fields.required "amount" Shape.amount
      auctionId := ← fields.required "auction_id" Shape.word }

/-- Reads an action. -/
def shape : Shape Action
  | .object [(some name, arguments)] => do
      let kind ← ActionKind.all.find? (·.name == name)
      ofFields kind (← Shape.fields (fieldNames kind) arguments)
  | _ => none

-- ================================================================= writing

variable (spelling : Spelling)

/-- The members of a listing, then some more. -/
def withListing (listing : Listing) (members : List (String × Value)) : Value :=
  .record ([("auction_id", spelling.natural listing.auctionId),
    ("collection", .string listing.collection),
    ("nonce", spelling.natural listing.nonce)] ++ members)

/-- Writes the arguments of an action. -/
def arguments : Action → Value
  | .started a => withListing spelling a.toListing [
      ("quantity", spelling.natural a.quantity), ("owner", .string a.owner),
      ("min_bid", spelling.natural a.minBid), ("max_bid", spelling.natural a.maxBid),
      ("min_bid_diff", spelling.natural a.minBidDiff),
      ("start_time", spelling.integer a.startTime), ("deadline", spelling.integer a.deadline),
      ("auction_type", .string a.saleType.name)]
  | .bid a => withListing spelling a.toListing [
      ("quantity", spelling.natural a.quantity), ("bidder", .string a.bidder),
      ("amount", spelling.natural a.amount)]
  | .bought a => withListing spelling a.toListing [
      ("quantity", spelling.natural a.quantity), ("buyer", .string a.buyer),
      ("price", spelling.natural a.price)]
  | .ended a => withListing spelling a.toListing [
      ("winner", .optional .string a.winner), ("amount", spelling.natural a.amount)]
  | .closed a => withListing spelling a.toListing []
  | .repriced a => withListing spelling a.toListing [
      ("new_price", spelling.natural a.newPrice)]
  | .updated a => withListing spelling a.toListing [
      ("new_price", .optional spelling.natural a.newPrice),
      ("deadline", .optional spelling.integer a.deadline)]
  | .offerCreated a => .record [
      ("offer_id", spelling.natural a.offerId), ("collection", .string a.collection),
      ("nonce", spelling.natural a.nonce), ("owner", .string a.owner),
      ("amount", spelling.natural a.amount), ("quantity", spelling.natural a.quantity),
      ("deadline", spelling.integer a.deadline)]
  | .offerAccepted a => .record [
      ("offer_id", spelling.natural a.offerId), ("collection", .string a.collection),
      ("nonce", spelling.natural a.nonce), ("seller", .string a.seller),
      ("auction_id", spelling.natural a.auctionId)]
  | .offerClosed a => .record [
      ("offer_id", spelling.natural a.offerId), ("collection", .string a.collection),
      ("nonce", spelling.natural a.nonce)]
  | .globalOfferAccepted a => .record [
      ("global_offer_id", spelling.natural a.globalOfferId),
      ("collection", .string a.collection), ("nonce", spelling.natural a.nonce),
      ("offer_owner", .string a.offerOwner), ("seller", .string a.seller),
      ("amount", spelling.natural a.amount), ("auction_id", spelling.natural a.auctionId)]

/-- Writes an action. -/
def document (action : Action) : Value :=
  .record [(action.kind.name, action.arguments spelling)]

end Action

namespace ActionSummary

/-- Reads a summary. -/
def shape : Shape ActionSummary := fun value => do
  let fields ← Shape.fields
    ["tx_hash", "timestamp", "marketplace_key", "payment_token", "payment_nonce", "action"] value
  return {
    txHash := ← fields.required "tx_hash" .string
    timestamp := ← fields.required "timestamp" .integer
    marketplaceKey := ← fields.required "marketplace_key" .string
    paymentToken := ← fields.nullable "payment_token" .string
    paymentNonce := ← fields.nullable "payment_nonce" Shape.word
    action := ← fields.required "action" Action.shape }

/-- The members of a summary that go before its action. -/
def members (spelling : Spelling) (summary : ActionSummary) : List (String × Value) :=
  [("tx_hash", .string summary.txHash), ("timestamp", spelling.integer summary.timestamp),
    ("marketplace_key", .string summary.marketplaceKey),
    ("payment_token", .optional .string summary.paymentToken),
    ("payment_nonce", .optional spelling.natural summary.paymentNonce)]

/-- Writes a summary. -/
def document (spelling : Spelling) (summary : ActionSummary) : Value :=
  .record (summary.members spelling ++ [("action", summary.action.document spelling)])

end ActionSummary

end MarketReplay
