/-
Settings and reports as documents. Every setting may be left out, and then
stands as usual; so may both parts of a configuration file.
-/
import MarketReplay.Config
import MarketReplay.Document.Spelling
import MarketReplay.Run

namespace MarketReplay

open Json (Shape Value)

namespace Config

/-- Reads the settings of a replay. -/
def shape : Shape Config := fun value => do
  let fields ← Shape.fields
    ["page_size", "metadata_batch_size", "metadata_concurrency", "native_token",
      "native_decimals"] value
  return {
    pageSize := ← fields.defaulted "page_size" standard.pageSize (.natural 64)
    metadataBatchSize :=
      ← fields.defaulted "metadata_batch_size" standard.metadataBatchSize (.natural 64)
    metadataConcurrency :=
      ← fields.defaulted "metadata_concurrency" standard.metadataConcurrency (.natural 64)
    nativeToken := ← fields.defaulted "native_token" standard.nativeToken .string
    nativeDecimals :=
      ← fields.defaulted "native_decimals" standard.nativeDecimals (.natural 32) }

/-- Writes the settings of a replay. -/
def document (spelling : Spelling) (config : Config) : Value :=
  .record [
    ("page_size", spelling.natural config.pageSize),
    ("metadata_batch_size", spelling.natural config.metadataBatchSize),
    ("metadata_concurrency", spelling.natural config.metadataConcurrency),
    ("native_token", .string config.nativeToken),
    ("native_decimals", .nat config.nativeDecimals)]

end Config

/-- How messages are logged. -/
structure Logging where
  /-- The level of all components that have none of their own. -/
  level : String
  /-- The levels of single components. -/
  components : List (String × String)
  /-- Are messages written as JSON? -/
  json : Bool
deriving DecidableEq, Repr

namespace Logging

/-- Logging where nothing else is said. -/
def standard : Logging := ⟨"info", [], false⟩

/-- Reads how messages are logged. -/
def shape : Shape Logging := fun value => do
  let fields ← Shape.fields ["level", "components", "json"] value
  return {
    level := ← fields.defaulted "level" standard.level .string
    components := ← fields.defaulted "components" [] Shape.string.dictionary
    json := ← fields.defaulted "json" standard.json .bool }

end Logging

/-- The contents of a configuration file. -/
structure ConfigFile where
  replay : Config
  logging : Logging
deriving DecidableEq, Repr

namespace ConfigFile

/-- The configuration without a file. -/
def standard : ConfigFile := ⟨.standard, .standard⟩

/-- Reads a configuration file. -/
def shape : Shape ConfigFile := fun value => do
  let fields ← Shape.fields ["reindex", "logging"] value
  return {
    replay := ← fields.defaulted "reindex" .standard Config.shape
    logging := ← fields.defaulted "logging" .standard Logging.shape }

end ConfigFile

-- ================================================================= reports

/-- Writes what a sweep moved. -/
def Expiry.document (expiry : Expiry) : Value :=
  .record [
    ("auctions_claimable", .nat expiry.auctionsClaimable),
    ("auctions_expired", .nat expiry.auctionsExpired),
    ("offers_closed", .nat expiry.offersClosed)]

/-- The members of a report. -/
def Report.members (report : Report) : List (String × Value) :=
  [("marketplace_key", .string report.marketplaceKey),
    ("address", .string report.address),
    ("pages_fetched", .nat report.pagesFetched),
    ("events_read", .nat report.eventsRead),
    ("sets_dispatched", .nat report.setsDispatched),
    ("actions_dispatched", .nat report.actionsDispatched),
    ("sets_skipped", .nat report.setsSkipped),
    ("events_dropped", .nat report.eventsDropped),
    ("auctions_persisted", .nat report.auctionsPersisted),
    ("orders_persisted", .nat report.ordersPersisted),
    ("offers_persisted", .nat report.offersPersisted),
    ("expired", report.expired.document),
    ("tags_backfilled", .nat report.tagsBackfilled)]

end MarketReplay
