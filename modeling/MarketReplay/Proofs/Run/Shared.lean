/-
Runs that store their books into one sink.

A run is concerned with the sink only while it stores its book, by one call
for each table. `Storing` is how far it has come with that, and
`Storing.turn` the next call; three turns in a row are what a run does that
is not interrupted (`persist_eq_turns`). Runs that share a sink take turns in
any order (`Shared.turn`), and a schedule says whose turn it is.

The invariant is `Shared.Going`. The tables are tidy, and the rows of each
run's marketplace are those of its own book that it has stored so far, moved
on by the number of auctions that it found (`Storing.Stands`). A turn of the
run itself adds the next of its rows; a turn of another one adds rows of
another key. What a marketplace has in the end is therefore its own book,
renumbered by a shift.
-/
import MarketReplay.Proofs.Run.Snapshot
import MarketReplay.Proofs.Store.Shared

namespace MarketReplay

-- ============================================================ turn by turn

/-- How far a run has come with storing its book. -/
inductive Storing
  | auctions (book : Book)
  /-- The auctions are stored, under these numbers. -/
  | orders (book : Book) (ids : List Int)
  | offers (book : Book)
  | done
  | failed (error : RunError)

namespace Storing

variable {σ : Type}

/-- Makes the next call. -/
def turn (sink : Sink σ) : Storing → Call σ Storing
  | auctions book => do
      let ids ← sink.saveAuctions book.auctions
      return .orders book ids
  | orders book ids => do
      if ids.length ≠ book.auctions.length then
        throw (.persistence (.idCount ids.length book.auctions.length))
      let orders ← (book.orders.mapM (Order.bind ids) :
        Except RunError (List Order))
      sink.saveOrders orders
      return .offers book
  | offers book => do
      sink.saveOffers book.offers
      return .done
  | done => return .done
  | failed error => throw error

/-- How many calls are to come. -/
def left : Storing → Nat
  | auctions _ => 3
  | orders _ _ => 2
  | offers _ => 1
  | done => 0
  | failed _ => 0

end Storing

/-- Storing a book is three turns in a row. -/
theorem Replayer.persist_eq_turns {σ : Type} (replayer : Replayer σ)
    (book : Book) :
    replayer.persist book = (do
      let listed ← (Storing.auctions book).turn replayer.services.sink
      let ordered ← listed.turn replayer.services.sink
      let _ ← ordered.turn replayer.services.sink) := by
  have hthrow : ∀ {α β : Type} (error : RunError) (f : α → Call σ β),
      (throw error : Call σ α) >>= f = throw error := fun _ _ => rfl
  unfold persist Storing.turn
  simp only [bind_assoc, pure_bind]
  refine bind_congr fun ids => ?_
  split
  · rw [hthrow, hthrow, hthrow]
  · simp only [bind_assoc, pure_bind, bind_pure_unit]

-- ========================================================== one of the runs

/-- Where the rows of a key are none, no row is of the key. -/
theorem ne_of_filter_eq_nil {α : Type} {list : List α} {field : α → String}
    {key : String} (h : list.filter (field · == key) = []) :
    ∀ a ∈ list, field a ≠ key :=
  fun a hmem heq => List.filter_eq_nil_iff.1 h a hmem (beq_iff_eq.2 heq)

namespace Storing

/-- What a run that stores a book has in the tables: as much of its rows as
it has stored so far, from some number on. -/
inductive Stands (key : String) (book : Book) (tables : Tables) :
    Storing → Prop
  | auctions (rows : tables.rowsOf key = .empty) :
      Stands key book tables (.auctions book)
  | orders (offset : Nat)
      (places : tables.Places key offset book.auctions.length)
      (rows : tables.rowsOf key
        = .ofAuctions (book.rowsAt offset).auctions) :
      Stands key book tables (.orders book (book.numbersAt offset))
  | offers (offset : Nat)
      (rows : tables.rowsOf key
        = { book.rowsAt offset with offers := [] }) :
      Stands key book tables (.offers book)
  | done (offset : Nat) (rows : tables.rowsOf key = book.rowsAt offset) :
      Stands key book tables .done

namespace Stands

variable {key other : String} {book : Book} {tables : Tables}
  {stage : Storing}

/-- A run stands where it stood when another one has added its rows. -/
theorem append_ne (h : Stands key book tables stage) {rows : Tables}
    (hrows : rows.Carries other) (hne : other ≠ key) :
    Stands key book (tables.append rows) stage := by
  have hkept := @Tables.Carries.rowsOf_append_ne key other tables rows hrows hne
  cases h with
  | auctions hnone => exact .auctions (hkept.trans hnone)
  | orders offset hplaces hlisted =>
      exact .orders offset (hplaces.append rows) (hkept.trans hlisted)
  | offers offset hordered => exact .offers offset (hkept.trans hordered)
  | done offset hall => exact .done offset (hkept.trans hall)

/-- A run that stands with no more calls to make has all of its rows. -/
theorem of_left_eq_zero (h : Stands key book tables stage)
    (hleft : stage.left = 0) :
    stage = .done ∧ ∃ offset, tables.rowsOf key = book.rowsAt offset := by
  cases h with
  | auctions _ => cases hleft
  | orders _ _ _ => cases hleft
  | offers _ _ => cases hleft
  | done offset hall => exact ⟨rfl, offset, hall⟩

/-- The calls of a run, given what they do to the tables. -/
theorem run_auctions {memory : Memory} {ids : List Int} {after : Tables}
    (h : memory.tables.saveAuctions book.auctions = (ids, after)) :
    ((Storing.auctions book).turn Memory.sink).run memory
      = (.ok (.orders book ids), { memory with tables := after }) := by
  have hsave : (Memory.sink.saveAuctions book.auctions).run memory
      = (.ok (memory.tables.saveAuctions book.auctions).1, { memory with
        tables := (memory.tables.saveAuctions book.auctions).2 }) := rfl
  rw [h] at hsave
  unfold Storing.turn
  rw [Call.run_bind_ok hsave]
  rfl

theorem run_orders {memory : Memory} {ids : List Int} {orders : List Order}
    {after : Tables} (hlength : ids.length = book.auctions.length)
    (hbind : book.orders.mapM (Order.bind ids) = .ok orders)
    (h : memory.tables.saveOrders orders = (.ok (), after)) :
    ((Storing.orders book ids).turn Memory.sink).run memory
      = (.ok (.offers book), { memory with tables := after }) := by
  have hsave := Memory.run_saveOrders orders memory
  rw [h] at hsave
  unfold Storing.turn
  simp only [hlength, ne_eq, not_true_eq_false, ↓reduceIte, hbind]
  rw [Call.run_bind_ok (Call.run_liftM (.ok orders) memory),
    Call.run_bind_ok hsave]
  rfl

theorem run_offers {memory : Memory} {after : Tables}
    (h : memory.tables.saveOffers book.offers = after) :
    ((Storing.offers book).turn Memory.sink).run memory
      = (.ok .done, { memory with tables := after }) := by
  have hsave : (Memory.sink.saveOffers book.offers).run memory
      = (.ok (), { memory with
        tables := memory.tables.saveOffers book.offers }) := rfl
  rw [h] at hsave
  unfold Storing.turn
  rw [Call.run_bind_ok hsave]
  rfl

/-- The next call of a run is answered, and adds the next of its rows. -/
theorem turn (hsound : book.roster.Sound) (hcarries : book.roster.Carries key)
    {memory : Memory} (htidy : memory.tables.Tidy)
    (h : Stands key book memory.tables stage) :
    ∃ next rows, (stage.turn Memory.sink).run memory
        = (.ok next, { memory with tables := memory.tables.append rows })
      ∧ rows.Carries key ∧ (memory.tables.append rows).Tidy
      ∧ Stands key book (memory.tables.append rows) next
      ∧ next.left = stage.left - 1 := by
  have hrowsAt := book.rowsAt_carries hcarries
  cases h with
  | auctions hnone =>
      have hfree := ne_of_filter_eq_nil (congrArg Tables.auctions hnone)
      obtain ⟨hsave, hafter, hplaces⟩ :=
        Book.saveAuctions_fresh hsound hcarries htidy hfree
      have hlisted := (hrowsAt memory.tables.auctions.length).ofAuctions
      refine ⟨_, _, run_auctions hsave, hlisted, hafter,
        .orders _ hplaces ?_, rfl⟩
      rw [hlisted.rowsOf_append, hnone]
      rfl
  | orders offset hplaces hlisted =>
      -- the numbers answered before are still those of the book's auctions
      have hfree := ne_of_filter_eq_nil (congrArg Tables.orders hlisted)
      obtain ⟨hsave, hafter⟩ :=
        Book.saveOrders_fresh hsound hcarries htidy hplaces hfree
      have hordered := (hrowsAt offset).ofOrders
      refine ⟨_, _, run_orders (book.length_numbersAt offset)
        (Book.mapM_bind_numbersAt hsound offset) hsave, hordered, hafter,
        .offers offset ?_, rfl⟩
      rw [hordered.rowsOf_append, hlisted]
      simp [Tables.append, Tables.ofAuctions, Tables.ofOrders]
  | offers offset hordered =>
      have hfree := ne_of_filter_eq_nil (congrArg Tables.offers hordered)
      obtain ⟨hsave, hafter⟩ :=
        Book.saveOffers_fresh hsound hcarries htidy hfree
      have hoffered : (Tables.ofOffers book.offers).Carries key :=
        (hrowsAt offset).ofOffers
      refine ⟨_, _, run_offers hsave, hoffered, hafter, .done offset ?_, rfl⟩
      rw [hoffered.rowsOf_append, hordered]
      simp [Tables.append, Tables.ofOffers, Book.rowsAt, Tables.renumber,
        Book.stored]
  | done offset hall =>
      refine ⟨.done, .empty, ?_, Tables.carries_empty key, ?_, ?_, rfl⟩
      · rw [Tables.append_empty]
        rfl
      · rwa [Tables.append_empty]
      · rw [Tables.append_empty]
        exact .done offset hall

end Stands

end Storing

-- ============================================================= all the runs

/-- Some runs, and the world that they share. -/
structure Shared (ι σ : Type) where
  stages : ι → Storing
  world : σ

namespace Shared

variable {ι σ : Type} [DecidableEq ι]

/-- One of the runs makes its next call; one that fails is over. -/
def turn (sink : Sink σ) (shared : Shared ι σ) (run : ι) : Shared ι σ :=
  let (result, world) := ((shared.stages run).turn sink).run shared.world
  let next := match result with
    | .ok next => next
    | .error error => .failed error
  ⟨fun other => if other = run then next else shared.stages other, world⟩

/-- Every run makes its next call whenever the schedule names it. -/
def turns (sink : Sink σ) (schedule : List ι) (shared : Shared ι σ) :
    Shared ι σ :=
  schedule.foldl (turn sink) shared

/-- Runs that are about to store their books. -/
def start (books : ι → Book) (world : σ) : Shared ι σ :=
  ⟨fun run => .auctions (books run), world⟩

/-- The tables are tidy, and every run stands with its own rows. -/
structure Going (keys : ι → String) (books : ι → Book)
    (shared : Shared ι Memory) : Prop where
  tidy : shared.world.tables.Tidy
  stands : ∀ run, Storing.Stands (keys run) (books run) shared.world.tables
    (shared.stages run)

variable {keys : ι → String} {books : ι → Book} {shared : Shared ι Memory}

omit [DecidableEq ι] in
theorem going_start {memory : Memory} (h : memory.tables = .empty) :
    (start books memory).Going keys books where
  tidy := by
    show memory.tables.Tidy
    rw [h]
    exact Tables.tidy_empty
  stands run := by
    refine .auctions ?_
    show memory.tables.rowsOf _ = _
    rw [h]
    rfl

section
variable (hsound : ∀ run, (books run).roster.Sound)
  (hcarries : ∀ run, (books run).roster.Carries (keys run))
  (hkeys : Function.Injective keys)
include hsound hcarries hkeys

/-- A turn of a run leaves the other runs where they stand, and the run itself
with one call less to make. -/
theorem Going.turn (h : shared.Going keys books) (run : ι) :
    (shared.turn Memory.sink run).Going keys books
      ∧ ∀ other, ((shared.turn Memory.sink run).stages other).left
        = (shared.stages other).left - [run].count other := by
  obtain ⟨next, rows, hrun, hrows, htidy, hstands, hleft⟩ :=
    (h.stands run).turn (hsound run) (hcarries run) h.tidy
  have hturn : shared.turn Memory.sink run
      = ⟨fun other => if other = run then next else shared.stages other,
        { shared.world with tables := shared.world.tables.append rows }⟩ := by
    unfold Shared.turn
    rw [hrun]
  rw [hturn]
  refine ⟨⟨htidy, fun other => ?_⟩, fun other => ?_⟩
  · dsimp only
    split
    next heq =>
      rw [heq]
      exact hstands
    next hne =>
      exact (h.stands other).append_ne hrows fun heq => hne (hkeys heq).symm
  · dsimp only
    split
    next heq => rw [hleft, heq, List.count_singleton_self]
    next hne =>
      rw [List.count_eq_zero.2 fun hmem => hne (List.mem_singleton.1 hmem),
        Nat.sub_zero]

theorem Going.turns (h : shared.Going keys books) (schedule : List ι) :
    (shared.turns Memory.sink schedule).Going keys books
      ∧ ∀ run, ((shared.turns Memory.sink schedule).stages run).left
        = (shared.stages run).left - schedule.count run := by
  induction schedule generalizing shared with
  | nil => exact ⟨h, fun _ => rfl⟩
  | cons first rest ih =>
      obtain ⟨hnext, hfirst⟩ := h.turn hsound hcarries hkeys first
      obtain ⟨hlast, hrest⟩ := ih hnext
      refine ⟨hlast, fun run => ?_⟩
      rw [List.count_cons, ← List.count_singleton, Nat.add_comm,
        ← Nat.sub_sub, ← hfirst]
      exact hrest run

end

end Shared

-- =========================================================== a run by itself

/-- A run that completes by itself, on tables that are empty. -/
structure Solo (σ : Type) where
  replayer : Replayer σ
  scene : σ → Scene
  tables : σ → Tables
  overLog : replayer.services.OverLog scene
  storesIn : replayer.services.StoresIn tables
  builtIn : replayer.handlers.BuiltIn
  address : String
  world : σ
  empty : tables world = .empty
  marketplace : Marketplace
  progress : Progress
  book : Book
  later : σ
  course : replayer.Course address world marketplace progress book later

namespace Solo

variable {σ : Type}

/-- Its book is sound, of its marketplace, and what it leaves in the tables. -/
theorem stored (run : Solo σ) : run.book.roster.Sound
    ∧ run.book.roster.Carries run.marketplace.key
    ∧ run.tables run.later = run.book.stored := by
  obtain ⟨hfind, hreplay, hfill, hstore⟩ := id run.course
  obtain ⟨texts, -, hroster⟩ :=
    Replayer.roster_of_fill run.overLog run.builtIn hfind hreplay hfill
  have hsound : run.book.roster.Sound := hroster ▸ EventSet.sound_rosterOf
  have hbegins := Tables.empty_begins run.book.stored
  rw [← run.empty, ← (run.storesIn.marketplaceAt run.address).of_run hfind,
    ← (Replayer.keeps_replay run.storesIn run.marketplace).of_run hreplay,
    ← (Replayer.keeps_backfill run.storesIn.tagsOf _).of_run hfill] at hbegins
  exact ⟨hsound, hroster ▸ EventSet.carries_rosterOf,
    (Replayer.persist_stored run.storesIn hsound hstore hbegins).2 rfl⟩

end Solo

/-- Some runs, each of which completes by itself on empty tables, store their
books into one memory instead, with tables that are empty at first, and take
turns in any order; three turns in a row are what storing a book is, whatever
the sink. If their marketplaces have different keys, a run that has had its
three turns is done, and the rows of its marketplace are those that it stores
by itself, in their order, up to the numbers of the auctions: these are renamed
in auctions and orders alike, no two to one. -/
theorem Shared.rows_apart {ι σ : Type} [DecidableEq ι] (runs : ι → Solo σ)
    (hkeys : Function.Injective fun run => (runs run).marketplace.key)
    {memory : Memory} (hempty : memory.tables = .empty)
    (schedule : List ι) :
    (∀ (τ : Type) (replayer : Replayer τ) (book : Book),
      replayer.persist book = (do
        let listed ← (Storing.auctions book).turn replayer.services.sink
        let ordered ← listed.turn replayer.services.sink
        let _ ← ordered.turn replayer.services.sink))
    ∧ let last := (start (fun run => (runs run).book) memory).turns
        Memory.sink schedule
      ∀ run, 3 ≤ schedule.count run →
        last.stages run = .done
          ∧ ∃ rename : Int → Int, Function.Injective rename
            ∧ last.world.tables.rowsOf (runs run).marketplace.key
              = ((runs run).tables (runs run).later).renumber rename := by
  refine ⟨fun τ replayer book => replayer.persist_eq_turns book, ?_⟩
  intro last run hturns
  obtain ⟨hgoing, hleft⟩ := Going.turns (fun run => (runs run).stored.1)
    (fun run => (runs run).stored.2.1) hkeys (going_start hempty) schedule
  have hnone : (last.stages run).left = 0 := by
    rw [hleft run]
    exact Nat.sub_eq_zero_of_le hturns
  obtain ⟨hdone, offset, hrows⟩ := (hgoing.stands run).of_left_eq_zero hnone
  refine ⟨hdone, (· + (offset : Int)), fun a b heq => ?_, ?_⟩
  · have hsum : a + (offset : Int) = b + offset := heq
    omega
  · rw [(runs run).stored.2.2]
    exact hrows

namespace Sample

/-- The log of the sample, at a marketplace with any key. -/
def tradingAs (key : String) : Host Memory :=
  ⟨.empty, (Memory.empty.addMarketplace
    ⟨key, "market", .internal, .byAuctionId⟩).addEvents "market"
      [listed, bidden, offered]⟩

theorem rosterOf_tradingAs (key : String) :
    let roster := EventSet.rosterOf ⟨key, "market", .internal, .byAuctionId⟩
      [[listed], [bidden], [offered]]
    roster.auctions.length = 1 ∧ roster.orders.length = 1
      ∧ roster.offers.length = 1 := ⟨rfl, rfl, rfl⟩

/-- It is replayed to the end, and leaves one row of each kind. -/
theorem exists_solo (key : String) : ∃ run : Solo Memory,
    run.marketplace.key = key
      ∧ (run.tables run.later).auctions.length = 1
      ∧ (run.tables run.later).orders.length = 1
      ∧ (run.tables run.later).offers.length = 1 := by
  have hlog : trader.services.OverLog Memory.scene :=
    Memory.overLog_obliging (fun _ _ => none) fun _ _ _ => []
  have hsink : trader.services.StoresIn Memory.tables :=
    Memory.storesIn_obliging (fun _ _ => none) fun _ _ _ => []
  have hmarket : (tradingAs key).world.marketplaceAt? "market"
      = some ⟨key, "market", .internal, .byAuctionId⟩ := rfl
  have hknown : ∀ e ∈ ((tradingAs key).world.log.eventsAt "market").filter
      (0 ≤ ·.timestamp),
      EventSet.isSkewed ⟨key, "market", .internal, .byAuctionId⟩ e = false := by
    show ∀ e ∈ [listed, bidden, offered], _
    simp only [List.forall_mem_cons]
    exact ⟨rfl, rfl, rfl, nofun⟩
  -- no event is unknown and no service fails, so the run completes
  obtain ⟨report, after, hrun⟩ := Outcome.exists_of_isCompleted
    (Replayer.isCompleted_of_known .standard (fun _ _ => none)
      (fun _ _ _ => []) (tradingAs key) "market" hmarket rfl hknown)
  obtain ⟨marketplace, progress, book, course, -⟩ :=
    Replayer.of_rebuild_report (Replayer.of_run hrun)
  obtain ⟨hfind, hreplay, hfill, -⟩ := id course
  obtain rfl : (⟨key, "market", .internal, .byAuctionId⟩ : Marketplace)
      = marketplace :=
    Option.some.inj (Except.ok.inj (congrArg Prod.fst hfind))
  obtain ⟨texts, hflat, hroster⟩ :=
    Replayer.roster_of_fill hlog Registry.builtIn_standard hfind hreplay hfill
  -- the log is grouped as it was dealt, into three sets of one action each
  have hread : texts.flatten = [listed, bidden, offered] :=
    hflat.trans ascending_trading
  rw [EventSet.deal_eq_grouping (hread ▸ chronological_trading)
    (hread ▸ sameTime_trading), hread, grouping_trading] at hroster
  obtain ⟨hauctions, horders, hoffers⟩ := rosterOf_tradingAs key
  rw [← hroster, Book.roster, List.length_map] at hauctions horders hoffers
  let run : Solo Memory :=
    ⟨trader, Memory.scene, Memory.tables, hlog, hsink,
      Registry.builtIn_standard, "market", (tradingAs key).world, rfl, _,
      progress, book, after.world, course⟩
  have hstored : after.world.tables = book.stored := run.stored.2.2
  refine ⟨run, rfl, ?_⟩
  show after.world.tables.auctions.length = 1
    ∧ after.world.tables.orders.length = 1
    ∧ after.world.tables.offers.length = 1
  rw [hstored, Book.stored, List.length_mapIdx, List.length_map]
  exact ⟨hauctions, horders, hoffers⟩

/-- Two of them, one for each side. -/
theorem exists_sides : ∃ runs : Bool → Solo Memory,
    (∀ side, (runs side).marketplace.key = if side then "north" else "south")
      ∧ ∀ side, ((runs side).tables (runs side).later).orders.length = 1 := by
  obtain ⟨north, hnorth, -, hnorthRow, -⟩ := exists_solo "north"
  obtain ⟨south, hsouth, -, hsouthRow, -⟩ := exists_solo "south"
  refine ⟨fun side => if side then north else south, fun side => ?_,
    fun side => ?_⟩
  · cases side
    · exact hsouth
    · exact hnorth
  · cases side
    · exact hsouthRow
    · exact hnorthRow

end Sample

/-- Two runs take turns over the same log, for marketplaces of different keys.
Every transaction and every auction occurs at both, and each of them stores its
book in three turns. -/
theorem Shared.rows_apart_sample : ∃ runs : Bool → Solo Memory,
    (∀ side, ((runs side).tables (runs side).later).orders.length = 1)
      ∧ (∀ side, (runs side).replayer.persist (runs side).book = (do
        let listed ← (Storing.auctions (runs side).book).turn
          (runs side).replayer.services.sink
        let ordered ← listed.turn (runs side).replayer.services.sink
        let _ ← ordered.turn (runs side).replayer.services.sink))
      ∧ let last := (start (fun side => (runs side).book) Memory.empty).turns
          Memory.sink [true, false, false, true, true, false]
        ∀ side, last.stages side = .done
          ∧ ∃ rename : Int → Int, Function.Injective rename
            ∧ last.world.tables.rowsOf (if side then "north" else "south")
              = ((runs side).tables (runs side).later).renumber rename := by
  obtain ⟨runs, hkeys, hrows⟩ := Sample.exists_sides
  have hapart : Function.Injective fun side => (runs side).marketplace.key := by
    intro side other heq
    have hsame : (if side then "north" else "south")
        = (if other then "north" else "south") := by
      rw [← hkeys side, ← hkeys other]
      exact heq
    revert hsame
    cases side <;> cases other <;> decide
  obtain ⟨hturns, hlast⟩ := Shared.rows_apart runs hapart
    (show Memory.empty.tables = .empty from rfl)
    [true, false, false, true, true, false]
  refine ⟨runs, hrows, fun side => hturns Memory _ _, fun side => ?_⟩
  rw [← hkeys side]
  refine hlast side ?_
  cases side <;> decide

end MarketReplay
