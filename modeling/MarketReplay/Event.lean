/-
Logged events, and the marketplaces that emit them.

Every event names the transaction it was emitted under. A contract call made
by another transaction emits under a hash of its own and names that other
transaction as its origin; all events of one transaction form a set, which is
collected under the origin's hash.
-/

namespace MarketReplay

/-- One log as an event store keeps it. -/
structure Event where
  /-- Block time in seconds. -/
  timestamp : Int
  txHash : String
  /-- The transaction that caused the emitting call, if it is another one. -/
  originTxHash : Option String
  /-- The name of what happened. -/
  identifier : String
  /-- The contract that emitted the log. -/
  address : String
  /-- The arguments, in base64. -/
  topics : List String
deriving DecidableEq, Repr

namespace Event

/-- The hash that the event's set is collected under. -/
def key (event : Event) : String := event.originTxHash.getD event.txHash

/-- Was the event emitted or caused by this transaction? -/
def belongsTo (txHash : String) (event : Event) : Bool :=
  event.txHash == txHash || event.originTxHash == some txHash

/-- An event belongs to its own key. -/
@[simp] theorem belongsTo_key (event : Event) : event.belongsTo event.key = true := by
  unfold belongsTo key
  cases event.originTxHash <;> simp

end Event

/-- Who operates a marketplace. -/
inductive Operator
  | internal
  | external
deriving DecidableEq, Repr

/-- How the logs of a marketplace refer to its auctions. -/
inductive Lookup
  /-- By the auction's number at the marketplace. -/
  | byAuctionId
  /-- By the identifier of the token on sale. -/
  | byIdentifier
deriving DecidableEq, Repr

/-- A marketplace contract. -/
structure Marketplace where
  /-- Short name, unique among marketplaces. -/
  key : String
  address : String
  operator : Operator
  lookup : Lookup
deriving DecidableEq, Repr

end MarketReplay
