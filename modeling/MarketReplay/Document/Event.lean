/-
Events, marketplaces, tokens and tags as documents.

An event's origin is left out where there is none. A marketplace that does not
say how its auctions are looked up is looked up by their numbers.
-/
import MarketReplay.Document.Spelling
import MarketReplay.Error
import MarketReplay.Json.Reader
import MarketReplay.Store.Log
import MarketReplay.Token

namespace MarketReplay

open Json (Shape Value)

-- ================================================================== events

namespace Event

/-- The names of an event's fields, in order. -/
def fieldNames : List String :=
  ["timestamp", "txHash", "originalTxHash", "identifier", "address", "topics"]

/-- Reads an event. -/
def shape : Shape Event := fun value => do
  let fields ← Shape.fields fieldNames value
  return {
    timestamp := ← fields.required "timestamp" .integer
    txHash := ← fields.required "txHash" .string
    originTxHash := ← fields.defaulted "originalTxHash" none Shape.string.optional
    identifier := ← fields.required "identifier" .string
    address := ← fields.required "address" .string
    topics := ← fields.defaulted "topics" [] Shape.string.list }

/-- Writes an event. -/
def document (spelling : Spelling) (event : Event) : Value :=
  let origin := match event.originTxHash with
    | some txHash => [("originalTxHash", Value.string txHash)]
    | none => []
  .record (
    [("timestamp", spelling.integer event.timestamp), ("txHash", .string event.txHash)] ++
    origin ++
    [("identifier", .string event.identifier), ("address", .string event.address),
      ("topics", .list .string event.topics)])

end Event

/-- The log of an address from a text that spells an array of its events. -/
def EventLog.parse (address text : String) : Except RunError EventLog :=
  match (Json.parse? text).bind Event.shape.list with
  | some events => .ok (EventLog.empty.append address events)
  | none => .error (.eventStore "invalid event dump")

-- ============================================================ marketplaces

namespace Operator

def all : List Operator := [internal, external]

/-- The name of an operator in documents. -/
def name : Operator → String
  | internal => "internal"
  | external => "external"

end Operator

namespace Lookup

def all : List Lookup := [byAuctionId, byIdentifier]

/-- The name of a way to look auctions up in documents. -/
def name : Lookup → String
  | byAuctionId => "byAuctionId"
  | byIdentifier => "byIdentifier"

end Lookup

namespace Marketplace

/-- Reads a marketplace. -/
def shape : Shape Marketplace := fun value => do
  let fields ← Shape.fields ["key", "address", "kind", "lookup"] value
  return {
    key := ← fields.required "key" .string
    address := ← fields.required "address" .string
    operator := ← fields.required "kind" (.oneOf Operator.all Operator.name)
    lookup := ← fields.defaulted "lookup" .byAuctionId (.oneOf Lookup.all Lookup.name) }

/-- Writes a marketplace. -/
def document (marketplace : Marketplace) : Value :=
  .record [("key", .string marketplace.key), ("address", .string marketplace.address),
    ("kind", .string marketplace.operator.name), ("lookup", .string marketplace.lookup.name)]

end Marketplace

-- ================================================================== tokens

namespace Token

/-- Reads a token. -/
def shape : Shape Token := fun value => do
  let fields ← Shape.fields ["identifier", "decimals"] value
  return {
    identifier := ← fields.required "identifier" .string
    decimals := ← fields.required "decimals" (.natural 32) }

/-- Writes a token. -/
def document (token : Token) : Value :=
  .record [("identifier", .string token.identifier), ("decimals", .nat token.decimals)]

end Token

namespace TokenTags

/-- Reads the tags of a token. -/
def shape : Shape TokenTags := fun value => do
  let fields ← Shape.fields ["identifier", "tags"] value
  return {
    identifier := ← fields.required "identifier" .string
    tags := ← fields.defaulted "tags" [] Shape.string.list }

/-- Writes the tags of a token. -/
def document (tags : TokenTags) : Value :=
  .record [("identifier", .string tags.identifier), ("tags", .list .string tags.tags)]

end TokenTags

end MarketReplay
