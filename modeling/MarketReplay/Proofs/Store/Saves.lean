/-
The sink in memory as an upsert map that remembers its order.

A `Save` is one call of the sink, and `Save.after` makes some calls in a row,
whether or not each of them succeeds. What the tables hold then is all that the
calls saved, upserted (`Tables.Holds`); a call of orders saves those before
the first without an auction. The numbers that auctions get are the places of
their keys among all that ever come, so every call answers them alike.

The same calls may be made of shelves, on which a map tells where the row of
each key is. They answer the same and hold the same rows.
-/
import MarketReplay.Proofs.Run.Contract
import MarketReplay.Proofs.Store.Shelves

namespace MarketReplay

-- ================================================================= calls

/-- A call of the sink. -/
inductive Save
  | auctions (records : List Auction)
  | orders (records : List Order)
  | offers (records : List Offer)

namespace Save

/-- Makes the call; only auctions are answered with numbers. -/
def call : Save → Call Memory (List Int)
  | auctions records => Memory.sink.saveAuctions records
  | orders records => do
      Memory.sink.saveOrders records
      return []
  | offers records => do
      Memory.sink.saveOffers records
      return []

/-- The memory after some calls. -/
def after (memory : Memory) (saves : List Save) : Memory :=
  saves.foldl (fun memory save => (save.call.run memory).2) memory

/-- The auctions that the call saves. -/
def savedAuctions : Save → List Auction
  | auctions records => records
  | _ => []

/-- The orders that the call saves: those before the first without an
auction. -/
def savedOrders : Save → List Order
  | orders records => records.takeWhile (·.auctionId.isSome)
  | _ => []

/-- The offers that the call saves. -/
def savedOffers : Save → List Offer
  | offers records => records
  | _ => []

/-- What the call answers, and the tables after it. -/
def store (tables : Tables) : Save → Except RunError (List Int) × Tables
  | auctions records =>
      let (ids, saved) := tables.saveAuctions records
      (.ok ids, saved)
  | orders records =>
      let (result, saved) := tables.saveOrders records
      (result.mapError .persistence |>.map fun _ => [], saved)
  | offers records => (.ok [], tables.saveOffers records)

/-- A call is concerned with the tables only. -/
theorem run_call (save : Save) (memory : Memory) :
    save.call.run memory = ((save.store memory.tables).1,
      { memory with tables := (save.store memory.tables).2 }) := by
  cases save with
  | auctions records => rfl
  | orders records =>
      have hrun := Memory.run_saveOrders records memory
      unfold call store
      dsimp only
      cases hresult : (memory.tables.saveOrders records).1 with
      | ok done =>
          rw [hresult] at hrun
          rw [Call.run_bind_ok hrun]
          rfl
      | error fault =>
          rw [hresult] at hrun
          rw [Call.run_bind_error hrun]
          rfl
  | offers records => rfl

/-- So are some calls in a row. -/
theorem tables_after (memory : Memory) (saves : List Save) :
    (after memory saves).tables
      = saves.foldl (fun tables save => (save.store tables).2)
        memory.tables := by
  induction saves generalizing memory with
  | nil => rfl
  | cons save saves ih =>
      have hstep : (save.call.run memory).2.tables
          = (save.store memory.tables).2 := by
        rw [run_call]
      rw [List.foldl_cons, ← hstep]
      exact ih _

theorem after_append (memory : Memory) (before saves : List Save) :
    after memory (before ++ saves) = after (after memory before) saves :=
  List.foldl_append

end Save

-- ======================================================== what is stored

/-- Each table is upserted with what the call saves into it, and each auction
is stored with the number of its row. -/
theorem Save.store_snd (save : Save) {tables : Tables} {rows : List Auction}
    (h : tables.auctions = rows.mapIdx Auction.inRow) :
    (save.store tables).2 = {
      auctions := (save.savedAuctions.foldl (fun table auction =>
        upsert Auction.key auction table) rows).mapIdx Auction.inRow
      orders := save.savedOrders.foldl (fun table order =>
        upsert Order.key order table) tables.orders
      offers := save.savedOffers.foldl (fun table offer =>
        upsert Offer.key offer table) tables.offers } := by
  cases save with
  | auctions records => exact Tables.saveAuctions_snd h
  | orders records =>
      refine (Tables.saveOrders_snd tables records).trans ?_
      rw [h]
      rfl
  | offers records =>
      refine (Tables.saveOffers_eq records).trans ?_
      rw [h]
      rfl

namespace Tables

/-- The tables hold what was saved: the last row of each key, where its key
came first, and each auction with the number of its row. -/
structure Holds (saves : List Save) (tables : Tables) : Prop where
  auctions : ∃ rows, tables.auctions = rows.mapIdx Auction.inRow
    ∧ IsUpserted Auction.key (saves.flatMap Save.savedAuctions) rows
  orders : IsUpserted Order.key (saves.flatMap Save.savedOrders) tables.orders
  offers : IsUpserted Offer.key (saves.flatMap Save.savedOffers) tables.offers

theorem holds_empty : empty.Holds [] where
  auctions := ⟨[], rfl, .nil _⟩
  orders := .nil _
  offers := .nil _

variable {saves : List Save} {tables : Tables}

/-- One more call. -/
theorem Holds.store (h : tables.Holds saves) (save : Save) :
    (save.store tables).2.Holds (saves ++ [save]) := by
  obtain ⟨rows, hrows, hauctions⟩ := h.auctions
  have hflat : ∀ {α : Type} (saved : Save → List α),
      (saves ++ [save]).flatMap saved = saves.flatMap saved ++ saved save := by
    intro α saved
    rw [List.flatMap_append, List.flatMap_singleton]
  rw [save.store_snd hrows]
  constructor
  case auctions =>
    rw [hflat]
    exact ⟨_, rfl, hauctions.foldl save.savedAuctions⟩
  case orders =>
    rw [hflat]
    exact h.orders.foldl save.savedOrders
  case offers =>
    rw [hflat]
    exact h.offers.foldl save.savedOffers

/-- The same call once more stores nothing new. -/
theorem Holds.store_again (h : tables.Holds saves) (save : Save) :
    (save.store (save.store tables).2).2 = (save.store tables).2 := by
  obtain ⟨rows, hrows, hauctions⟩ := h.auctions
  rw [save.store_snd hrows, save.store_snd rfl]
  dsimp only
  rw [foldl_upsert_again hauctions, foldl_upsert_again h.orders,
    foldl_upsert_again h.offers]

/-- And any number of calls. -/
theorem Holds.stores (h : tables.Holds saves) (more : List Save) :
    (more.foldl (fun tables save => (save.store tables).2) tables).Holds
      (saves ++ more) := by
  induction more generalizing saves tables with
  | nil => rwa [List.append_nil]
  | cons save more ih =>
      rw [List.append_cons]
      exact ih (h.store save)

/-- A row is numbered by its own key among the keys of the rows. -/
theorem Holds.id_eq (h : tables.Holds saves) {row : Auction}
    (hmem : row ∈ tables.auctions) :
    row.id = some (numberIn (tables.auctions.map Auction.key) row.key) := by
  obtain ⟨rows, hrows, hauctions⟩ := h.auctions
  have hkeys : tables.auctions.map Auction.key = rows.map Auction.key := by
    rw [hrows, map_mapIdx_key Auction.key_inRow]
  rw [hrows] at hmem
  obtain ⟨i, hi, rfl⟩ := List.mem_mapIdx.1 hmem
  have hplace : (rows.map Auction.key).idxOf (rows[i].inRow i).key = i := by
    have hlt : i < (rows.map Auction.key).length := by rwa [List.length_map]
    have hat := hauctions.nodup.idxOf_getElem i hlt
    rwa [List.getElem_map] at hat
  unfold numberIn
  rw [hkeys, hplace]
  rfl

/-- Who was saved has a row. -/
theorem Holds.mem_keys (h : tables.Holds saves) {auction : Auction}
    (hmem : auction ∈ saves.flatMap Save.savedAuctions) :
    auction.key ∈ tables.auctions.map Auction.key := by
  obtain ⟨rows, hrows, hauctions⟩ := h.auctions
  rw [hrows, map_mapIdx_key Auction.key_inRow, hauctions.mem_keys]
  exact List.mem_map_of_mem hmem

end Tables

namespace Save

/-- The keys of the auctions stay where they are. -/
theorem prefix_after (memory : Memory) (saves : List Save) :
    memory.tables.auctions.map Auction.key
      <+: (after memory saves).tables.auctions.map Auction.key := by
  rw [tables_after]
  generalize memory.tables = tables
  induction saves generalizing tables with
  | nil => exact List.prefix_rfl
  | cons save saves ih =>
      refine List.IsPrefix.trans ?_ (ih (save.store tables).2)
      cases save with
      | auctions records => exact Tables.prefix_saveAuctions tables records
      | orders records =>
          have hsame : (tables.saveOrders records).2.auctions
              = tables.auctions := by
            rw [Tables.saveOrders_snd]
          exact ⟨[], by rw [List.append_nil]; exact congrArg _ hsame.symm⟩
      | offers records =>
          have hsame : (tables.saveOffers records).auctions
              = tables.auctions := by
            rw [Tables.saveOffers_eq]
          exact ⟨[], by rw [List.append_nil]; exact congrArg _ hsame.symm⟩

/-- The numbers that a call answers are those of the keys after any further
calls. -/
theorem run_saveAuctions_amid (memory : Memory) (before : List Save)
    (auctions : List Auction) (later : List Save) :
    let last := after memory (before ++ .auctions auctions :: later)
    ((Memory.sink.saveAuctions auctions).run (after memory before)).1
      = .ok (auctions.map fun auction =>
        numberIn (last.tables.auctions.map Auction.key) auction.key) := by
  have hkeys := prefix_after (after memory (before ++ [.auctions auctions]))
    later
  rw [← after_append, List.append_assoc] at hkeys
  have hhere : (after memory (before ++ [.auctions auctions])).tables
      = ((after memory before).tables.saveAuctions auctions).2 := by
    rw [after_append]
    rfl
  rw [hhere] at hkeys
  exact congrArg Except.ok (Tables.saveAuctions_fst hkeys)

/-- A call that is made again at once changes nothing. -/
theorem run_twice {memory : Memory} {saves : List Save}
    (h : memory.tables.Holds saves) (save : Save) :
    (save.call.run (save.call.run memory).2).2 = (save.call.run memory).2 := by
  rw [run_call, run_call]
  dsimp only
  rw [h.store_again]

-- =============================================================== on shelves

/-- The call made of shelves. -/
def shelve (shelves : Shelves) : Save → Except RunError (List Int) × Shelves
  | auctions records =>
      let (ids, saved) := shelves.saveAuctions records
      (.ok ids, saved)
  | orders records =>
      let (result, saved) := shelves.saveOrders records
      (result.mapError .persistence |>.map fun _ => [], saved)
  | offers records => (.ok [], shelves.saveOffers records)

/-- The shelves after some calls. -/
def shelved (saves : List Save) : Shelves :=
  saves.foldl (fun shelves save => (save.shelve shelves).2) .empty

theorem shelve_eq {shelves : Shelves} (h : shelves.Orderly) (save : Save) :
    (save.shelve shelves).1 = (save.store shelves.tables).1
      ∧ (save.shelve shelves).2.tables = (save.store shelves.tables).2
      ∧ (save.shelve shelves).2.Orderly := by
  cases save with
  | auctions records =>
      obtain ⟨hids, htables, horderly⟩ := Shelves.saveAuctions_eq h records
      exact ⟨congrArg Except.ok hids, htables, horderly⟩
  | orders records =>
      obtain ⟨hresult, htables, horderly⟩ := Shelves.saveOrders_eq h records
      refine ⟨?_, htables, horderly⟩
      unfold shelve store
      dsimp only
      rw [hresult]
  | offers records =>
      obtain ⟨htables, horderly⟩ := Shelves.saveOffers_eq h records
      exact ⟨rfl, htables, horderly⟩

/-- Shelves keep up with the tables. -/
theorem foldl_shelve_eq {shelves : Shelves} (h : shelves.Orderly)
    (saves : List Save) :
    let last := saves.foldl (fun shelves save => (save.shelve shelves).2)
      shelves
    last.tables = saves.foldl (fun tables save => (save.store tables).2)
        shelves.tables
      ∧ last.Orderly := by
  induction saves generalizing shelves with
  | nil => exact ⟨rfl, h⟩
  | cons save saves ih =>
      obtain ⟨-, htables, horderly⟩ := shelve_eq h save
      have hrest := ih horderly
      rwa [htables] at hrest

theorem tables_shelved (memory : Memory) (saves : List Save) :
    (shelved saves).tables
        = (after { memory with tables := .empty } saves).tables
      ∧ (shelved saves).Orderly := by
  rw [tables_after]
  exact foldl_shelve_eq Shelves.orderly_empty saves

end Save

/-- The sink in memory is an upsert map in the order of its keys. After any
calls of an empty one its tables hold what was saved, each key once. A key of
an auction has one number, which is another than that of any other key; every
call answers with it, and the row has it. A call that is made again at once
changes nothing. Orders are refused where one has no auction, and then those
before it are stored. All that can be had from shelves, too. -/
theorem Memory.sink_upserts (memory : Memory) (saves : List Save) :
    let first := { memory with tables := .empty }
    let last := Save.after first saves
    last.tables.Holds saves
    ∧ (∃ number : Nat × String → Int,
      (∀ before auctions after, saves = before ++ .auctions auctions :: after →
        ((sink.saveAuctions auctions).run (Save.after first before)).1
          = .ok (auctions.map fun auction => number auction.key))
      ∧ (∀ auction ∈ saves.flatMap Save.savedAuctions,
        ∀ other ∈ saves.flatMap Save.savedAuctions,
          number auction.key = number other.key → auction.key = other.key)
      ∧ ∀ row ∈ last.tables.auctions, row.id = some (number row.key))
    ∧ (∀ save : Save,
      let once := (save.call.run last).2
      (save.call.run once).2 = once)
    ∧ (∀ orders, ((sink.saveOrders orders).run last).1 = .ok ()
      ↔ ∀ order ∈ orders, order.auctionId ≠ none)
    ∧ (∀ before order after,
      (∀ order ∈ before, order.auctionId ≠ none) → order.auctionId = none →
        (sink.saveOrders (before ++ order :: after)).run last
          = (.error (.persistence (.unboundOrder order.blockHash)),
            ((sink.saveOrders before).run last).2))
    ∧ (Save.shelved saves).tables = last.tables
    ∧ (Save.shelved saves).Orderly
    ∧ ∀ save : Save,
      (save.shelve (Save.shelved saves)).1 = (save.call.run last).1 := by
  intro first last
  have hholds : last.tables.Holds saves := by
    rw [Save.tables_after]
    exact Tables.holds_empty.stores saves
  obtain ⟨hshelved, horderly⟩ := Save.tables_shelved memory saves
  let number := numberIn (last.tables.auctions.map Auction.key)
  refine ⟨hholds, ⟨number, ?_, ?_, fun row => hholds.id_eq⟩, ?_, ?_, ?_,
    hshelved, horderly, ?_⟩
  · rintro before auctions after rfl
    exact Save.run_saveAuctions_amid first before auctions after
  · intro auction hauction other _ hsame
    exact numberIn_injective (hholds.mem_keys hauction) hsame
  · exact Save.run_twice hholds
  · intro orders
    rw [run_saveOrders, ← Tables.saveOrders_ok_iff last.tables orders]
    cases (last.tables.saveOrders orders).1 <;> simp [Except.mapError]
  · intro before order after hbefore hnone
    rw [run_saveOrders, run_saveOrders,
      Tables.saveOrders_of_unbound hbefore hnone]
    rfl
  · intro save
    obtain ⟨hanswer, -⟩ := Save.shelve_eq horderly save
    rw [hanswer, Save.run_call, hshelved]

end MarketReplay
