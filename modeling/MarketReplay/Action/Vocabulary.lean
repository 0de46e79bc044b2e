/-
The vocabulary of event identifiers: which of them are marketplace actions,
which are token transfers, and which are protocol noise. An identifier outside
the vocabulary is `unknown`; a marketplace that emits one speaks a newer
language than this library reads.
-/
import MarketReplay.Action.Kind

namespace MarketReplay

/-- The topic layout of a transfer log. -/
inductive TransferLayout
  /-- Token, nonce, amount, receiver. -/
  | single
  /-- Any number of token, nonce and amount, then the receiver. -/
  | multi
deriving DecidableEq, Repr

/-- How an event identifier is treated. -/
inductive EventClass
  /-- A marketplace action. -/
  | action (kind : ActionKind)
  /-- A token transfer, which may carry the payment. -/
  | transfer (layout : TransferLayout)
  /-- Known, and of no concern here. -/
  | ignored
  /-- Outside the vocabulary. -/
  | unknown
deriving DecidableEq, Repr

/-- The identifiers of each kind of action. -/
def ActionKind.identifiers : ActionKind → List String
  | .started => ["auctionToken", "listing", "nftSwap"]
  | .bid => ["bid"]
  | .bought => ["buySft", "buy", "bulkBuy", "purchase"]
  | .ended => ["endAuction"]
  | .closed => ["withdraw", "withdrawSwap"]
  | .repriced => ["changePrice", "updatePrice", "nftSwapUpdate"]
  | .updated => ["update_listing", "nftSwapExtend"]
  | .offerCreated => ["sendOffer"]
  | .offerAccepted => ["acceptOffer"]
  | .offerClosed => ["withdrawOffer"]
  | .globalOfferAccepted => ["acceptGlobalOffer"]

namespace EventClass

/-- The identifiers of transfer logs, with their layouts. -/
def transfers : List (String × TransferLayout) :=
  [("ESDTTransfer", .single), ("ESDTNFTTransfer", .single), ("MultiESDTNFTTransfer", .multi)]

/-- The identifiers that are read over: edits of offers, whose topics have no
fixed layout, and the notices of the protocol. -/
def noise : List String :=
  ["update_offer_event", "writeLog", "completedTxEvent", "signalError", "internalVMErrors",
    "SCUpgrade", "SCDeploy"]

/-- The class of an event identifier. -/
def ofIdentifier (identifier : String) : EventClass :=
  match ActionKind.all.find? (·.identifiers.contains identifier) with
  | some kind => .action kind
  | none =>
      match transfers.lookup identifier with
      | some layout => .transfer layout
      | none => if noise.contains identifier then .ignored else .unknown

end EventClass

end MarketReplay
