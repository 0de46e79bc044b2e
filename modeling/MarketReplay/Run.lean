/-
One replay: from the log of a marketplace to stored records.

The name of the address is locked for as long as the replay lasts. The log is
read page by page; after each page the event sets that are complete leave the
buffer, in order, and each is shown to the observer, summarized, priced and
dispatched. A set that reports nothing or is malformed is skipped; one that
the library is too old for ends the replay. After the log the book is swept,
tags are filled in, and the records are stored: auctions first, because the
orders are stored under the numbers that these get, then orders, then offers.
-/
import MarketReplay.Book.Expiry
import MarketReplay.Book.Tags
import MarketReplay.EventSet.Grouping
import MarketReplay.Handler
import MarketReplay.Lock
import MarketReplay.Payment
import MarketReplay.Store.Pager

namespace MarketReplay

-- ============================================================== the report

/-- What reading and dispatching the log came to. -/
structure Tally where
  pagesFetched : Nat
  eventsRead : Nat
  setsDispatched : Nat
  /-- Actions handed to handlers; one set may hold several. -/
  actionsDispatched : Nat
  /-- Sets that report nothing or are malformed. -/
  setsSkipped : Nat
  eventsDropped : Nat
deriving DecidableEq, Repr

/-- The tally before the first page. -/
def Tally.zero : Tally := ⟨0, 0, 0, 0, 0, 0⟩

/-- What a completed replay came to. -/
structure Report extends Tally where
  marketplaceKey : String
  address : String
  auctionsPersisted : Nat
  ordersPersisted : Nat
  offersPersisted : Nat
  expired : Expiry
  tagsBackfilled : Nat
deriving DecidableEq, Repr

/-- How a replay ended. -/
inductive Outcome
  | completed (report : Report)
  /-- Another replay holds the lock of the address. -/
  | alreadyRunning
  | failed (error : RunError)
deriving DecidableEq, Repr

namespace Outcome

/-- The report of a completed replay. -/
def report? : Outcome → Option Report
  | completed report => some report
  | _ => none

/-- Did the replay complete? -/
def isCompleted : Outcome → Bool
  | completed _ => true
  | _ => false

end Outcome

/-- The book and the tally so far. -/
structure Progress where
  book : Book
  tally : Tally
deriving DecidableEq, Repr

-- ================================================================= storing

/-- An order with the number that its auction is stored under. -/
def Order.bind (ids : List Int) (order : Order) : Except RunError Order :=
  match ids[order.auctionIndex]? with
  | some id => .ok { order with auctionId := some id }
  | none =>
      .error (.persistence (.danglingOrder order.blockHash order.auctionIndex ids.length))

-- ================================================================ a replay

/-- A replay ready to run: settings, services and handlers. -/
structure Replayer (σ : Type) where
  config : Config
  services : Services σ
  handlers : Registry

namespace Replayer

variable {σ : Type} (replayer : Replayer σ)

/-- Prices an action and hands it to its handler. -/
def dispatch (book : Book) (summary : ActionSummary) : Call σ Book := do
  let payment ← replayer.config.resolve replayer.services.token book summary
  replayer.handlers.dispatch book summary payment

/-- Takes one event set into the book. -/
def dispatchSet (progress : Progress) (set : List Event) : Call σ Progress := do
  modify (replayer.services.observe set)
  let skipped := { progress with
    tally := { progress.tally with setsSkipped := progress.tally.setsSkipped + 1 } }
  match EventSet.summarize progress.book.marketplace set with
  | .error (.unknownAction identifier txHash) =>
      throw (RunError.ofSummary (.unknownAction identifier txHash))
  | .error (.decode _ _ _) => return skipped
  | .ok [] => return skipped
  | .ok summaries =>
      let book ← summaries.foldlM replayer.dispatch progress.book
      return {
        book
        tally := { progress.tally with
          setsDispatched := progress.tally.setsDispatched + 1
          actionsDispatched := progress.tally.actionsDispatched + summaries.length } }

/-- Takes the complete sets of a buffer into the book, and answers the events
that wait. -/
def process (final : Bool) (buffer : List Event) (progress : Progress) :
    Call σ (List Event × Progress) := do
  let (sets, rest) := EventSet.split final buffer
  let progress ← sets.foldlM replayer.dispatchSet progress
  return (rest, progress)

/-- Reads the log from where the pager is, at most `pages` pages of it, and
answers the events that still wait. -/
def readLog : Nat → Pager → List Event → Progress → Call σ (List Event × Progress)
  | 0, _, carry, progress => return (carry, progress)
  | pages + 1, pager, carry, progress => do
      let (page, pager) ← pager.next replayer.services.events.events
      let counted := { progress with
        tally := { progress.tally with
          pagesFetched := progress.tally.pagesFetched + 1
          eventsRead := progress.tally.eventsRead + page.fetched } }
      let (carry, progress) ← replayer.process false (carry ++ page.events) counted
      if page.isLast then return (carry, progress)
      else readLog pages pager carry progress

/-- Replays the whole log of a marketplace: all the full pages that the store
can answer, the last page, and then what still waits. -/
def replay (marketplace : Marketplace) : Call σ Progress := do
  let pages := replayer.services.events.fullPages (← get) + 1
  let pager := Pager.start marketplace.address replayer.config.pageSize
  let (carry, progress) ← replayer.readLog pages pager [] ⟨.empty marketplace, .zero⟩
  let (left, progress) ← replayer.process true carry progress
  return { progress with
    tally := { progress.tally with
      eventsDropped := progress.tally.eventsDropped + left.length } }

/-- Fills in tags, and answers how many auctions got some. The requests go out
in order and the first failure ends them, however many may be under way at
once. -/
def backfill (book : Book) : Call σ (Nat × Book) := do
  let requests := book.tagRequests replayer.config.metadataBatchSize
  let answers ← requests.mapM fun request => replayer.services.tagsOf request 0
  return (book.fillable answers.flatten, book.fillTags answers.flatten)

/-- Stores the records of a book. -/
def persist (book : Book) : Call σ Unit := do
  let sink := replayer.services.sink
  let ids ← sink.saveAuctions book.auctions
  if ids.length ≠ book.auctions.length then
    throw (.persistence (.idCount ids.length book.auctions.length))
  let orders ← (book.orders.mapM (Order.bind ids) : Except RunError (List Order))
  sink.saveOrders orders
  sink.saveOffers book.offers

/-- What is done with the book after the log: it is swept, and tags are filled
in. The report is ready then, and holds once the book is stored. -/
def finish (address : String) (marketplace : Marketplace) (progress : Progress) :
    Call σ (Report × Book) := do
  let now := replayer.services.now (← get)
  let (tagged, book) ← replayer.backfill (progress.book.expire now)
  let report : Report := { progress.tally with
    marketplaceKey := marketplace.key
    address
    auctionsPersisted := book.auctions.length
    ordersPersisted := book.orders.length
    offersPersisted := book.offers.length
    expired := progress.book.expiry now
    tagsBackfilled := tagged }
  return (report, book)

/-- Everything that happens while the lock is held. -/
def rebuild (address : String) : Call σ Report := do
  match ← replayer.services.marketplaceAt address with
  | none => throw (.marketplaceNotFound address)
  | some marketplace =>
      let progress ← replayer.replay marketplace
      let (report, book) ← replayer.finish address marketplace progress
      replayer.persist book
      return report

end Replayer

-- ================================================================ the lock

/-- Where replays run: the locks that they share, and the services' state. -/
structure Host (σ : Type) where
  locks : Locks Int
  world : σ

/-- Replays the log of the marketplace at an address, unless another replay of
it is under way. The lock is given up however the replay ends. -/
def Replayer.run {σ : Type} (replayer : Replayer σ) (address : String) (host : Host σ) :
    Outcome × Host σ :=
  match host.locks.tryAcquire address (replayer.services.lockTime host.world) with
  | none => (.alreadyRunning, host)
  | some (guard, locks) =>
      let (result, world) := (replayer.rebuild address).run host.world
      let outcome := match result with
        | .ok report => .completed report
        | .error error => .failed error
      (outcome, ⟨locks.release guard, world⟩)

end MarketReplay
