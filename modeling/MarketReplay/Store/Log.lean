/-
The event log: what each address was sent, in the order in which it was
stored, read back in pages in ascending order of time.

Events of one time keep the order in which they were stored, so every read
sees one fixed sequence, from some time on; a page is a stretch of it.
-/
import MarketReplay.Event

namespace MarketReplay

/-- A request for one page of a log. -/
structure PageRequest where
  address : String
  /-- The earliest time asked for. -/
  fromTimestamp : Int
  /-- How many of the events from that time on to leave out. -/
  skip : Nat
  /-- How many events to answer at most. -/
  limit : Nat
deriving DecidableEq, Repr

/-- Stored events, each under the address it was sent to. -/
structure EventLog where
  entries : List (String × Event)
deriving DecidableEq, Repr

namespace EventLog

/-- The log without events. -/
def empty : EventLog := ⟨[]⟩

variable (log : EventLog)

/-- The log with some more events under an address. -/
def append (address : String) (events : List Event) : EventLog :=
  ⟨log.entries ++ events.map (address, ·)⟩

/-- The events under an address, as they were stored. -/
def eventsAt (address : String) : List Event :=
  (log.entries.filter (·.1 == address)).map (·.2)

/-- The events under an address from some time on, in ascending order. -/
def ascending (address : String) (fromTimestamp : Int) : List Event :=
  ((log.eventsAt address).filter (fromTimestamp ≤ ·.timestamp)).mergeSort
    (·.timestamp ≤ ·.timestamp)

/-- One page of a log. -/
def page (request : PageRequest) : List Event :=
  ((log.ascending request.address request.fromTimestamp).drop request.skip).take request.limit

end EventLog

end MarketReplay
