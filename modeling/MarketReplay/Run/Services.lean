/-
The services that a replay works with.

A replay never sees how a service keeps its state: a `Call` reads and changes
the state `σ` that all services share and answers a value or an error, and the
changes made before an error stand. `EventStore.fullPages` bounds how many
full pages a store can still answer, which bounds the reading of its log.
-/
import MarketReplay.Error
import MarketReplay.Record
import MarketReplay.Store.Log

namespace MarketReplay

/-- A call of a service. -/
abbrev Call (σ : Type) := ExceptT RunError (StateM σ)

/-- Source of the events of a marketplace. -/
structure EventStore (σ : Type) where
  /-- The events of one page; fewer than its limit mean that the log is
  exhausted. -/
  events : PageRequest → Call σ (List Event)
  /-- How many full pages the store can still answer at most. -/
  fullPages : σ → Nat

/-- Taker of the finished records. -/
structure Sink (σ : Type) where
  /-- Stores auctions, and answers the numbers they are stored under. -/
  saveAuctions : List Auction → Call σ (List Int)
  saveOrders : List Order → Call σ Unit
  saveOffers : List Offer → Call σ Unit

/-- Everything that a replay works with. -/
structure Services (σ : Type) where
  marketplaceAt : String → Call σ (Option Marketplace)
  events : EventStore σ
  token : String → Call σ (Option Token)
  /-- The tags of some tokens, from an offset in the answer on. -/
  tagsOf : List String → Nat → Call σ (List TokenTags)
  sink : Sink σ
  /-- Sees every event set before it is summarized. -/
  observe : List Event → σ → σ
  /-- The time in seconds by which a book is swept. -/
  now : σ → Int
  /-- The time that a lock is taken at, by a clock apart from that of the
  sweep; unless it is given, it is the same. -/
  lockTime : σ → Int := now

end MarketReplay
