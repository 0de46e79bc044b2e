/-
The tables after a replay that completes.

Empty tables are the first rows of any book, so storing a sound book onto them
leaves exactly its rows (`persist_stored`), and the book of a replay is sound
because its roster is the one that the sets of the log make. What a run leaves
behind is therefore its book, row by row, and the numbers in its report are
the sizes of the tables.
-/
import MarketReplay.Proofs.Run.VersionSkew

namespace MarketReplay

variable {σ : Type}

/-- What a replay that completes on empty tables leaves in them: the book that
it stores, record by record. An auction has the number of its position,
counted from one, and an order the number of its auction; every row is of the
marketplace, no two rows of a table share what they are stored under, and the
report tells the sizes of the tables. -/
theorem Replayer.completed_stored {replayer : Replayer σ} {scene : σ → Scene}
    {tables : σ → Tables} {address : String} {report : Report}
    {host after : Host σ} (hlog : replayer.services.OverLog scene)
    (hsink : replayer.services.StoresIn tables)
    (hhandlers : replayer.handlers.BuiltIn)
    (hempty : tables host.world = .empty)
    (hrun : replayer.run address host = (.completed report, after)) :
    let stored := tables after.world
    ∃ (marketplace : Marketplace) (progress : Progress) (book : Book),
      replayer.Course address host.world marketplace progress book after.world
        ∧ stored.auctions = book.auctions.mapIdx (fun i auction =>
          { auction with id := some ((i : Int) + 1) })
        ∧ stored.orders = book.orders.map (fun order =>
          { order with auctionId := some ((order.auctionIndex : Int) + 1) })
        ∧ stored.offers = book.offers
        ∧ (∀ row ∈ stored.auctions, row.marketplaceKey = marketplace.key)
        ∧ (∀ row ∈ stored.orders, row.marketplaceKey = marketplace.key)
        ∧ (∀ row ∈ stored.offers, row.marketplaceKey = marketplace.key)
        ∧ (stored.auctions.map Auction.key).Nodup
        ∧ (stored.orders.map Order.key).Nodup
        ∧ (stored.offers.map Offer.key).Nodup
        ∧ report.auctionsPersisted = stored.auctions.length
        ∧ report.ordersPersisted = stored.orders.length
        ∧ report.offersPersisted = stored.offers.length := by
  intro stored
  obtain ⟨marketplace, progress, book, course, -, -, hauctions, horders,
    hoffers⟩ := of_rebuild_report (of_run hrun)
  obtain ⟨hfind, hreplay, hfill, hstore⟩ := id course
  obtain ⟨texts, -, hroster⟩ :=
    roster_of_fill hlog hhandlers hfind hreplay hfill
  have hsound : book.roster.Sound := hroster ▸ EventSet.sound_rosterOf
  have hcarries : book.roster.Carries marketplace.key :=
    hroster ▸ EventSet.carries_rosterOf
  have hbegins := Tables.empty_begins book.stored
  rw [← hempty, ← (hsink.marketplaceAt address).of_run hfind,
    ← (keeps_replay hsink marketplace).of_run hreplay,
    ← (keeps_backfill hsink.tagsOf _).of_run hfill] at hbegins
  have hstored : stored = book.stored :=
    (persist_stored hsink hsound hstore hbegins).2 rfl
  obtain ⟨hauctionKeys, horderKeys, hofferKeys⟩ := Book.nodup_keys hsound
  rw [← book.keys_stored_auctions] at hauctionKeys
  obtain ⟨hauctionRows, horderRows, hofferRows⟩ := Book.stored_carries hcarries
  rw [hstored]
  refine ⟨marketplace, progress, book, course, rfl, rfl, rfl, hauctionRows,
    horderRows, hofferRows, hauctionKeys, horderKeys, hofferKeys, ?_, ?_, ?_⟩
  · rw [hauctions, Book.stored, List.length_mapIdx]
  · rw [horders, Book.stored, List.length_map]
  · exact hoffers

namespace Sample

/-- The topic of a public key of zeros. -/
def zeroKey : String := "AAAAAAAAAAAAAAAAAAAAAAAAAAAAAAAAAAAAAAAAAAA="

/-- A token is listed. -/
def listed : Event :=
  ⟨3, "listed", none, "listing", "market",
    ["", "Qw==", "AQ==", "AQ==", "AQ==", zeroKey, "BQ=="]⟩

/-- A bid on it. -/
def bidden : Event :=
  ⟨4, "bidden", none, "bid", "market",
    ["", "Qw==", "AQ==", "AQ==", "AQ==", zeroKey, "BQ=="]⟩

/-- An offer for any token of the collection. -/
def offered : Event :=
  ⟨5, "offered", none, "sendOffer", "market",
    ["", "Qw==", "", "AQ==", "RUdMRA==", "", "BQ==", "", zeroKey, "AQ=="]⟩

/-- A memory with a log of all three. -/
def trading : Host Memory :=
  ⟨.empty, (Memory.empty.addMarketplace market).addEvents "market"
    [listed, bidden, offered]⟩

/-- Services in memory that know no token and no tags. -/
def trader : Replayer Memory :=
  ⟨.standard, Memory.obligingServices (fun _ _ => none) (fun _ _ _ => []),
    .standard⟩

theorem ascending_trading :
    trading.world.log.ascending "market" 0 = [listed, bidden, offered] := by
  have hstored : (trading.world.log.eventsAt "market").filter
      (0 ≤ ·.timestamp) = [listed, bidden, offered] := rfl
  unfold EventLog.ascending
  rw [hstored]
  exact List.mergeSort_of_pairwise (by decide)

theorem chronological_trading :
    Chronological [listed, bidden, offered] := by
  unfold Chronological
  decide

theorem sameTime_trading : EventSet.SameTime [listed, bidden, offered] := by
  unfold EventSet.SameTime
  decide

theorem grouping_trading :
    EventSet.grouping [listed, bidden, offered]
      = [[listed], [bidden], [offered]] := by
  have hlisted : [bidden, offered].filter (!·.belongsTo listed.key)
      = [bidden, offered] := rfl
  have hbidden : [offered].filter (!·.belongsTo bidden.key) = [offered] := rfl
  rw [EventSet.grouping_cons, hlisted, EventSet.grouping_cons, hbidden,
    EventSet.grouping_cons, List.filter_nil, EventSet.grouping_nil]
  rfl

theorem exists_completed_trading :
    ∃ report after, trader.run "market" trading
      = (.completed report, after) := by
  have hfind : trading.world.marketplaceAt? "market" = some market := rfl
  exact Outcome.exists_of_isCompleted (Replayer.isCompleted_of_known .standard
    (fun _ _ => none) (fun _ _ _ => []) trading "market" hfind rfl (by decide))

theorem rosterOf_trading :
    let roster := EventSet.rosterOf market [[listed], [bidden], [offered]]
    roster.auctions.length = 1 ∧ roster.orders.map OrderName.auction = [0]
      ∧ roster.offers.length = 1 := ⟨rfl, rfl, rfl⟩

end Sample

/-- The sample log with a listing, a bid on it and an offer: one row each. -/
theorem Replayer.completed_stored_sample :
    ∃ report after,
      Sample.trader.run "market" Sample.trading = (.completed report, after)
        ∧ after.world.tables.auctions.map (·.id) = [some 1]
        ∧ after.world.tables.orders.map (·.auctionId) = [some 1]
        ∧ report.auctionsPersisted = 1 ∧ report.ordersPersisted = 1
        ∧ report.offersPersisted = 1 := by
  obtain ⟨report, after, hrun⟩ := Sample.exists_completed_trading
  have hlog : Sample.trader.services.OverLog Memory.scene :=
    Memory.overLog_obliging (fun _ _ => none) fun _ _ _ => []
  have hsink : Sample.trader.services.StoresIn Memory.tables :=
    Memory.storesIn_obliging (fun _ _ => none) fun _ _ _ => []
  obtain ⟨marketplace, progress, book, ⟨hfind, hreplay, hfill, -⟩, hauctions,
    horders, hoffers, -, -, -, -, -, -, hcounts⟩ :=
    Replayer.completed_stored hlog hsink Registry.builtIn_standard rfl hrun
  -- the marketplace is the only one, and the log makes one record of each kind
  obtain rfl : Sample.market = marketplace :=
    Option.some.inj (Except.ok.inj (congrArg Prod.fst hfind))
  obtain ⟨texts, hflat, hroster⟩ :=
    Replayer.roster_of_fill hlog Registry.builtIn_standard hfind hreplay hfill
  have hread : texts.flatten
      = [Sample.listed, Sample.bidden, Sample.offered] :=
    hflat.trans Sample.ascending_trading
  rw [EventSet.deal_eq_grouping (hread ▸ Sample.chronological_trading)
    (hread ▸ Sample.sameTime_trading), hread, Sample.grouping_trading]
    at hroster
  obtain ⟨hone, horder, hoffer⟩ := Sample.rosterOf_trading
  rw [← hroster] at hone horder hoffer
  have hids : after.world.tables.auctions.map (·.id) = [some 1] := by
    obtain ⟨auction, hauction⟩ := List.length_eq_one_iff.1
      ((List.length_map _).symm.trans hone)
    rw [hauctions, hauction]
    rfl
  have hbound : after.world.tables.orders.map (·.auctionId) = [some 1] := by
    have hindices : book.orders.map (·.auctionIndex) = [0] := by
      rw [← horder, Book.roster, List.map_map]
      rfl
    have hnumbers := congrArg (·.map fun i : Nat => some ((i : Int) + 1))
      hindices
    rw [List.map_map] at hnumbers
    rw [horders, List.map_map]
    exact hnumbers
  obtain ⟨hfirst, hsecond, hthird⟩ := hcounts
  refine ⟨report, after, hrun, hids, hbound, ?_, ?_, ?_⟩
  · rw [hfirst, ← List.length_map, hids]
    rfl
  · rw [hsecond, ← List.length_map, hbound]
    rfl
  · rw [hthird, hoffers, ← hoffer, Book.roster, List.length_map]

end MarketReplay
