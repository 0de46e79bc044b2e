/-
Services that keep everything in memory, and take note of what they are asked.

Tokens, tags and marketplaces are lists with the newest entry first, so a
later entry replaces an earlier one of the same name. Tags are answered in the
order in which they are asked for, unknown tokens left out.
-/
import MarketReplay.Run.Services
import MarketReplay.Store.Tables

namespace MarketReplay

/-- The state of all services kept in memory. -/
structure Memory where
  log : EventLog
  marketplaces : List Marketplace
  tokens : List Token
  tags : List TokenTags
  tables : Tables
  /-- The time that the clock shows by which books are swept. -/
  clock : Int
  /-- The time that the clock of the locks shows. -/
  lockClock : Int
  /-- The pages asked for so far. -/
  pageRequests : List PageRequest
  /-- How many tokens were looked up so far. -/
  tokenLookups : Nat
  /-- The requests for tags so far. -/
  tagRequests : List (List String)
  /-- The event sets seen so far. -/
  observed : List (List Event)
deriving DecidableEq, Repr

namespace Memory

/-- Services that know nothing. -/
def empty : Memory where
  log := .empty
  marketplaces := []
  tokens := []
  tags := []
  tables := .empty
  clock := 0
  lockClock := 0
  pageRequests := []
  tokenLookups := 0
  tagRequests := []
  observed := []

variable (memory : Memory)

-- ================================================================= filling

/-- One more marketplace, in place of one at the same address. -/
def addMarketplace (marketplace : Marketplace) : Memory :=
  { memory with marketplaces := marketplace :: memory.marketplaces }

/-- One more token, in place of one of the same name. -/
def addToken (token : Token) : Memory :=
  { memory with tokens := token :: memory.tokens }

/-- The tags of one more token, in place of those it had. -/
def addTags (tags : TokenTags) : Memory :=
  { memory with tags := tags :: memory.tags }

/-- Some more events under an address. -/
def addEvents (address : String) (events : List Event) : Memory :=
  { memory with log := memory.log.append address events }

-- =============================================================== answering

/-- The marketplace at an address. -/
def marketplaceAt? (address : String) : Option Marketplace :=
  memory.marketplaces.find? (·.address == address)

/-- What is known of a token. -/
def token? (identifier : String) : Option Token :=
  memory.tokens.find? (·.identifier == identifier)

/-- The tags of some tokens, from an offset in the answer on. -/
def tagsOf (identifiers : List String) (offset : Nat) : List TokenTags :=
  (identifiers.filterMap fun identifier =>
    memory.tags.find? (·.identifier == identifier)).drop offset

-- ============================================================ the services

/-- The event store in memory; no log has more full pages than events. -/
def eventStore : EventStore Memory where
  events request := do
    modify fun memory => { memory with pageRequests := memory.pageRequests ++ [request] }
    return (← get).log.page request
  fullPages memory := memory.log.entries.length

/-- The tables in memory. -/
def sink : Sink Memory where
  saveAuctions auctions := do
    let memory ← get
    let (ids, tables) := memory.tables.saveAuctions auctions
    set { memory with tables }
    return ids
  saveOrders orders := do
    let memory ← get
    let (result, tables) := memory.tables.saveOrders orders
    set { memory with tables }
    match result with
    | .ok () => return ()
    | .error fault => throw (.persistence fault)
  saveOffers offers :=
    modify fun memory => { memory with tables := memory.tables.saveOffers offers }

/-- All services in memory. -/
def services : Services Memory where
  marketplaceAt address := return (← get).marketplaceAt? address
  events := eventStore
  token identifier := do
    modify fun memory => { memory with tokenLookups := memory.tokenLookups + 1 }
    return (← get).token? identifier
  tagsOf identifiers offset := do
    modify fun memory => { memory with tagRequests := memory.tagRequests ++ [identifiers] }
    return (← get).tagsOf identifiers offset
  sink := sink
  observe set memory := { memory with observed := memory.observed ++ [set] }
  now := Memory.clock
  lockTime := Memory.lockClock

end Memory

end MarketReplay
