/-
What ends a replay. The causes that arise inside the library are spelled out
as values; what a collaborator says of its own failure is kept as its text.
-/
import MarketReplay.Action.Kind
import MarketReplay.EventSet

namespace MarketReplay

-- =========================================================== configuration

/-- The services that a replay works with. -/
inductive Collaborator
  | tokens
  | events
  | marketplaces
  | metadata
  | sink
deriving DecidableEq, Repr

/-- The name of a service in messages. -/
def Collaborator.label : Collaborator → String
  | tokens => "token service"
  | events => "event store"
  | marketplaces => "marketplace registry"
  | metadata => "metadata service"
  | sink => "persistence sink"

/-- What is wrong with a configuration. -/
inductive ConfigFault
  | zeroPageSize
  | zeroBatchSize
  | zeroConcurrency
  | noNativeToken
  | missing (collaborator : Collaborator)
deriving DecidableEq, Repr

/-- What is said of a faulty configuration. -/
def ConfigFault.message : ConfigFault → String
  | zeroPageSize => "page_size must be at least 1"
  | zeroBatchSize => "metadata_batch_size must be at least 1"
  | zeroConcurrency => "metadata_concurrency must be at least 1"
  | noNativeToken => "native_token must not be empty"
  | missing collaborator => s!"missing {collaborator.label}"

-- ============================================================= persistence

/-- Why records could not be stored. -/
inductive SinkFault
  /-- An order does not say under which number its auction is stored. -/
  | unboundOrder (txHash : String)
  /-- An order refers to an auction that was not stored. -/
  | danglingOrder (txHash : String) (auction stored : Nat)
  /-- The auctions and the numbers given to them do not pair up. -/
  | idCount (ids auctions : Nat)
  /-- The sink gives its own reason. -/
  | refused (reason : String)
deriving DecidableEq, Repr

/-- What is said of records that could not be stored. -/
def SinkFault.message : SinkFault → String
  | unboundOrder txHash => s!"order {txHash} has no auction id"
  | danglingOrder txHash auction stored =>
      s!"order {txHash} refers to auction #{auction} of {stored}"
  | idCount ids auctions => s!"sink returned {ids} ids for {auctions} auctions"
  | refused reason => reason

-- ================================================================ replays

/-- What ended a replay. -/
inductive RunError
  | eventStore (reason : String)
  | persistence (fault : SinkFault)
  | metadata (reason : String)
  | token (reason : String)
  | marketplaceNotFound (address : String)
  /-- The marketplace speaks a newer language than this library reads. -/
  | unsupportedAction (identifier txHash : String)
  | missingHandler (kind : ActionKind)
  | duplicateHandler (kind : ActionKind)
  | config (fault : ConfigFault)
  | other (reason : String)
deriving DecidableEq, Repr

namespace RunError

/-- What is said of the end of a replay. -/
def message : RunError → String
  | eventStore reason => s!"Event store error: {reason}"
  | persistence fault => s!"Persistence error: {fault.message}"
  | metadata reason => s!"Metadata service error: {reason}"
  | token reason => s!"Token service error: {reason}"
  | marketplaceNotFound address => s!"No marketplace registered at address {address}"
  | unsupportedAction identifier txHash =>
      s!"Unsupported marketplace action '{identifier}' in tx {txHash}"
  | missingHandler kind => s!"No handler registered for {kind.label}"
  | duplicateHandler kind => s!"A handler is already registered for {kind.label}"
  | config fault => s!"Invalid configuration: {fault.message}"
  | other reason => reason

/-- Does the log hold actions that this library does not read? -/
def isVersionSkew : RunError → Bool
  | unsupportedAction _ _ => true
  | _ => false

/-- An unreadable event set as the end of a replay. -/
def ofSummary : SummaryError → RunError
  | .unknownAction identifier txHash => unsupportedAction identifier txHash
  | .decode identifier txHash cause =>
      other (SummaryError.decode identifier txHash cause).message

end RunError

end MarketReplay
