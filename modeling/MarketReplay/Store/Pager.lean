/-
Reading a log page by page.

The events of one transaction share a time, so a page may safely be cut
anywhere but inside a run of events of one time. A full page is therefore cut
back to where its last run begins, and the next request starts at that run; if
the page is a single run, all of it is handed on, and the next request skips
what has been seen of it. A page that is not full is the last.
-/
import MarketReplay.Store.Log

namespace MarketReplay

/-- Where the next request starts: a time, and how many events of that time
have been seen. -/
structure Cursor where
  fromTimestamp : Int
  skip : Nat
deriving DecidableEq, Repr

/-- One page as it is handed on. -/
structure Page where
  events : List Event
  /-- How many events the store answered, before the page was cut. -/
  fetched : Nat
  /-- Is the log exhausted? -/
  isLast : Bool
deriving DecidableEq, Repr

/-- The safe part of a full page, and where the next request starts. -/
def Cursor.trim (cursor : Cursor) (events : List Event) : List Event × Cursor :=
  match events.head?, events.getLast? with
  | some first, some last =>
      if first.timestamp = last.timestamp then
        let seen := if cursor.fromTimestamp = last.timestamp then cursor.skip else 0
        (events, ⟨last.timestamp, seen + events.length⟩)
      else (events.takeWhile (·.timestamp != last.timestamp), ⟨last.timestamp, 0⟩)
  | _, _ => (events, cursor)

/-- A reader that is somewhere in the log of an address. -/
structure Pager where
  address : String
  pageSize : Nat
  cursor : Cursor
  exhausted : Bool
deriving DecidableEq, Repr

namespace Pager

/-- The reader at the start of a log; a page size of zero counts as one. -/
def start (address : String) (pageSize : Nat) : Pager where
  address
  pageSize := max pageSize 1
  cursor := ⟨0, 0⟩
  exhausted := false

variable (pager : Pager)

/-- The next request, if the log is not exhausted. -/
def request? : Option PageRequest :=
  if pager.exhausted then none
  else some ⟨pager.address, pager.cursor.fromTimestamp, pager.cursor.skip, pager.pageSize⟩

/-- The page made of an answer, and the reader after it. -/
def receive (events : List Event) : Page × Pager :=
  if events.length < pager.pageSize then
    (⟨events, events.length, true⟩, { pager with exhausted := true })
  else
    let (safe, cursor) := pager.cursor.trim events
    (⟨safe, events.length, false⟩, { pager with cursor })

/-- The next page, by a function that answers requests. A failed request
leaves the reader where it was; past the end, pages are empty. -/
def next {m : Type → Type} [Monad m] (fetch : PageRequest → m (List Event)) :
    m (Page × Pager) := do
  match pager.request? with
  | some request => return pager.receive (← fetch request)
  | none => return (⟨[], 0, true⟩, pager)

end Pager

end MarketReplay
