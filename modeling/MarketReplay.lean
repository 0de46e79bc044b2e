import MarketReplay.Action.Log
import MarketReplay.Main
import MarketReplay.Proofs.Store.Ascending
import MarketReplay.Proofs.Store.Paging
import MarketReplay.Proofs.Run.Call
import MarketReplay.Proofs.EventSet.Grouping
import MarketReplay.Proofs.Store.Session
import MarketReplay.Proofs.Book.Timeline
import MarketReplay.Proofs.EventSet.Dealing
import MarketReplay.Proofs.Run.Contract
import MarketReplay.Proofs.Run.Progress
import MarketReplay.Proofs.Run.Completed
import MarketReplay.Proofs.Run.EventSets
import MarketReplay.Proofs.Run.Unpaged
import MarketReplay.Proofs.Run.PageSize
import MarketReplay.Proofs.Book.Roster
import MarketReplay.Proofs.Store.Stored
import MarketReplay.Proofs.Book.History
import MarketReplay.Proofs.Run.Storing
import MarketReplay.Proofs.Run.VersionSkew
import MarketReplay.Proofs.Run.Snapshot
import MarketReplay.Proofs.Run.Rerun
import MarketReplay.Proofs.Book.Lifecycle
import MarketReplay.Proofs.Book.Repeat
import MarketReplay.Proofs.Book.Lasting
import MarketReplay.Proofs.Run.Redispatch
import MarketReplay.Proofs.Run.Shared
import MarketReplay.Proofs.Book.Floor
import MarketReplay.Proofs.Book.Standing
import MarketReplay.Proofs.Book.Supply
import MarketReplay.Proofs.Book.Excerpt
import MarketReplay.Proofs.Book.Locality
import MarketReplay.Proofs.Run.Independence
import MarketReplay.Proofs.EventSet.Removal
import MarketReplay.Proofs.Run.Skipped
import MarketReplay.Proofs.Action.Topics
import MarketReplay.Proofs.Action.RoundTrip
import MarketReplay.Proofs.Run.Aborted
import MarketReplay.Proofs.EventSet.Hash
import MarketReplay.Proofs.Run.Denominated
import MarketReplay.Proofs.Action.Numbers
import MarketReplay.Proofs.Book.Sweep
import MarketReplay.Proofs.Action.Reading
import MarketReplay.Proofs.EventSet.Told
import MarketReplay.Proofs.Lock.Clones
import MarketReplay.Proofs.Run.Requests
import MarketReplay.Proofs.Book.Spared
import MarketReplay.Proofs.Book.FirstOffers
import MarketReplay.Proofs.Store.Upserted
import MarketReplay.Proofs.Store.Shelves
import MarketReplay.Proofs.Store.Saves
import MarketReplay.Proofs.Book.Tagging
import MarketReplay.Proofs.Run.Window
import MarketReplay.Proofs.Run.Backfill
import MarketReplay.Proofs.Text.Identifier
import MarketReplay.Proofs.Book.Relisting
import MarketReplay.Proofs.Run.OpeningPrice
import MarketReplay.Proofs.Book.FixedPrice
import MarketReplay.Proofs.Run.Carry
