/-
Tables that several marketplaces are stored into.

Of shared tables a marketplace has the rows that carry its key
(`Tables.rowsOf`). Whoever stores a book for the first time adds rows behind
the others and changes none, so the rows of the others stay what they are
(`Tables.rowsOf_append`).

The number of an auction is the place of its row, and depends on who came
before. The auctions of a book are stored in one piece, though, so the numbers
of a book are all moved on by one distance, and the numbers in its orders with
them (`Book.rowsAt`). For orders this is the crux: they are stored under the
number of an auction and a transaction, and say nothing there of their
marketplace. Two marketplaces do not meet in one row because an order is of
the marketplace of the auction that stands at its number, which is one of the
things that make tables tidy (`Tables.Tidy`).
-/
import MarketReplay.Proofs.Store.Stored

namespace MarketReplay

namespace Tables

-- ============================================================= some rows

/-- Some rows behind others. -/
def append (tables rows : Tables) : Tables where
  auctions := tables.auctions ++ rows.auctions
  orders := tables.orders ++ rows.orders
  offers := tables.offers ++ rows.offers

/-- The rows of one marketplace. -/
def rowsOf (key : String) (tables : Tables) : Tables where
  auctions := tables.auctions.filter (·.marketplaceKey == key)
  orders := tables.orders.filter (·.marketplaceKey == key)
  offers := tables.offers.filter (·.marketplaceKey == key)

/-- The rows with other numbers for the auctions, in the auctions and in the
orders alike. -/
def renumber (change : Int → Int) (tables : Tables) : Tables where
  auctions := tables.auctions.map fun auction =>
    { auction with id := auction.id.map change }
  orders := tables.orders.map fun order =>
    { order with auctionId := order.auctionId.map change }
  offers := tables.offers

/-- Every row is of one marketplace. -/
structure Carries (key : String) (rows : Tables) : Prop where
  auctions : ∀ row ∈ rows.auctions, row.marketplaceKey = key
  orders : ∀ row ∈ rows.orders, row.marketplaceKey = key
  offers : ∀ row ∈ rows.offers, row.marketplaceKey = key

variable {key other : String} {tables rows : Tables}

/-- The rows of a marketplace are those in front and those behind. -/
@[simp] theorem rowsOf_append (key : String) (tables rows : Tables) :
    (tables.append rows).rowsOf key
      = (tables.rowsOf key).append (rows.rowsOf key) := by
  simp [rowsOf, append]

/-- Of rows that are all of one marketplace, that marketplace has all. -/
theorem Carries.rowsOf (h : rows.Carries key) : rows.rowsOf key = rows := by
  unfold Tables.rowsOf
  rw [List.filter_eq_self.2 fun row hrow => beq_iff_eq.2 (h.auctions row hrow),
    List.filter_eq_self.2 fun row hrow => beq_iff_eq.2 (h.orders row hrow),
    List.filter_eq_self.2 fun row hrow => beq_iff_eq.2 (h.offers row hrow)]

/-- Of rows that are all of one marketplace, another has none. -/
theorem Carries.rowsOf_ne (h : rows.Carries other) (hne : other ≠ key) :
    rows.rowsOf key = empty := by
  have hrow : ∀ rowKey : String, rowKey = other → ¬ (rowKey == key) = true := by
    intro rowKey heq hkey
    exact hne (heq.symm.trans (beq_iff_eq.1 hkey))
  unfold Tables.rowsOf
  rw [List.filter_eq_nil_iff.2 fun row hmem => hrow _ (h.auctions row hmem),
    List.filter_eq_nil_iff.2 fun row hmem => hrow _ (h.orders row hmem),
    List.filter_eq_nil_iff.2 fun row hmem => hrow _ (h.offers row hmem)]
  rfl

/-- Rows of another marketplace do not show. -/
theorem Carries.rowsOf_append_ne (h : rows.Carries other) (hne : other ≠ key) :
    (tables.append rows).rowsOf key = tables.rowsOf key := by
  rw [rowsOf_append, h.rowsOf_ne hne]
  simp [append, empty]

/-- Rows of a marketplace that are added stand behind those it has. -/
theorem Carries.rowsOf_append (h : rows.Carries key) :
    (tables.append rows).rowsOf key = (tables.rowsOf key).append rows := by
  rw [Tables.rowsOf_append, h.rowsOf]

-- =========================================================== tidy tables

/-- The auction that stands at the number in an order is of the marketplace of
the order. -/
def Binds (tables : Tables) (order : Order) : Prop :=
  ∃ (i : Nat) (auction : Auction), order.auctionId = some ((i : Int) + 1)
    ∧ tables.auctions[i]? = some auction
    ∧ auction.marketplaceKey = order.marketplaceKey

/-- No two rows of a table share what they are stored under, and every order
is bound to an auction of its own marketplace. -/
structure Tidy (tables : Tables) : Prop where
  auctions : (tables.auctions.map Auction.key).Nodup
  orders : (tables.orders.map Order.key).Nodup
  offers : (tables.offers.map Offer.key).Nodup
  binds : ∀ order ∈ tables.orders, tables.Binds order

theorem tidy_empty : empty.Tidy :=
  ⟨List.nodup_nil, List.nodup_nil, List.nodup_nil, nofun⟩

/-- The auctions of a marketplace stand in one piece, from a place on. -/
def Places (tables : Tables) (key : String) (offset count : Nat) : Prop :=
  ∀ i < count, ∃ auction, tables.auctions[offset + i]? = some auction
    ∧ auction.marketplaceKey = key

/-- A row keeps its place when others are added behind. -/
theorem getElem?_append_of_some {i : Nat} {auction : Auction}
    (h : tables.auctions[i]? = some auction) (rows : Tables) :
    (tables.append rows).auctions[i]? = some auction := by
  obtain ⟨hlt, -⟩ := List.getElem?_eq_some_iff.1 h
  rw [append, List.getElem?_append_left hlt]
  exact h

/-- An order stays bound to its auction when rows are added behind. -/
theorem Binds.append {order : Order} (h : tables.Binds order)
    (rows : Tables) : (tables.append rows).Binds order := by
  obtain ⟨i, auction, hid, hauction, hkey⟩ := h
  exact ⟨i, auction, hid, getElem?_append_of_some hauction rows, hkey⟩

/-- The numbers from an offset on stay those of the marketplace when rows are
added behind. -/
theorem Places.append {offset count : Nat}
    (h : tables.Places key offset count) (rows : Tables) :
    (tables.append rows).Places key offset count := by
  intro i hi
  obtain ⟨auction, hauction, hkey⟩ := h i hi
  exact ⟨auction, getElem?_append_of_some hauction rows, hkey⟩

/-- Rows of different keys, stored where there are none of their keys, stand
behind the others. -/
theorem foldl_upsert_fresh {κ ρ : Type} [DecidableEq κ] {key : ρ → κ}
    {table rows : List ρ} (h : ((table ++ rows).map key).Nodup) :
    rows.foldl (fun table row => upsert key row table) table
      = table ++ rows := by
  have hstored := @foldl_upsert_append κ ρ _ key rows table [] h
    List.nil_prefix
  rwa [List.append_nil] at hstored

/-- Two lists without repeated keys that share no key have none together. -/
theorem nodup_append_of_apart {α κ : Type} {key : α → κ}
    {done rows : List α} (hdone : (done.map key).Nodup)
    (hrows : (rows.map key).Nodup)
    (hapart : ∀ a ∈ done, ∀ b ∈ rows, key a ≠ key b) :
    ((done ++ rows).map key).Nodup := by
  rw [List.map_append, List.nodup_append]
  refine ⟨hdone, hrows, fun ka hka kb hkb => ?_⟩
  obtain ⟨a, ha, rfl⟩ := List.mem_map.1 hka
  obtain ⟨b, hb, rfl⟩ := List.mem_map.1 hkb
  exact hapart a ha b hb

/-- Rows of one table. -/
def ofAuctions (auctions : List Auction) : Tables := ⟨auctions, [], []⟩

def ofOrders (orders : List Order) : Tables := ⟨[], orders, []⟩

def ofOffers (offers : List Offer) : Tables := ⟨[], [], offers⟩

theorem carries_empty (key : String) : empty.Carries key :=
  ⟨List.forall_mem_nil _, List.forall_mem_nil _, List.forall_mem_nil _⟩

theorem Carries.ofAuctions (h : rows.Carries key) :
    (ofAuctions rows.auctions).Carries key :=
  ⟨h.auctions, List.forall_mem_nil _, List.forall_mem_nil _⟩

theorem Carries.ofOrders (h : rows.Carries key) :
    (ofOrders rows.orders).Carries key :=
  ⟨List.forall_mem_nil _, h.orders, List.forall_mem_nil _⟩

theorem Carries.ofOffers (h : rows.Carries key) :
    (ofOffers rows.offers).Carries key :=
  ⟨List.forall_mem_nil _, List.forall_mem_nil _, h.offers⟩

theorem append_empty (tables : Tables) : tables.append empty = tables := by
  simp [append, empty]

theorem append_ofAuctions (tables : Tables) (auctions : List Auction) :
    tables.append (ofAuctions auctions)
      = { tables with auctions := tables.auctions ++ auctions } := by
  simp [append, ofAuctions]

theorem append_ofOrders (tables : Tables) (orders : List Order) :
    tables.append (ofOrders orders)
      = { tables with orders := tables.orders ++ orders } := by
  simp [append, ofOrders]

theorem append_ofOffers (tables : Tables) (offers : List Offer) :
    tables.append (ofOffers offers)
      = { tables with offers := tables.offers ++ offers } := by
  simp [append, ofOffers]

/-- Tables stay tidy with auctions of other keys behind: what is bound already
stays bound. -/
theorem Tidy.append_auctions (h : tables.Tidy) {auctions : List Auction}
    (hnodup : ((tables.auctions ++ auctions).map Auction.key).Nodup) :
    (tables.append (ofAuctions auctions)).Tidy where
  auctions := hnodup
  orders := by
    rw [append_ofAuctions]
    exact h.orders
  offers := by
    rw [append_ofAuctions]
    exact h.offers
  binds order hmem := by
    rw [append_ofAuctions] at hmem
    exact (h.binds order hmem).append _

/-- Tables stay tidy with orders of other keys behind, if the auctions of these
are there already. -/
theorem Tidy.append_orders (h : tables.Tidy) {orders : List Order}
    (hnodup : ((tables.orders ++ orders).map Order.key).Nodup)
    (hbinds : ∀ order ∈ orders, tables.Binds order) :
    (tables.append (ofOrders orders)).Tidy where
  auctions := by
    rw [append_ofOrders]
    exact h.auctions
  orders := hnodup
  offers := by
    rw [append_ofOrders]
    exact h.offers
  binds order hmem := by
    rcases List.mem_append.1 hmem with hold | hnew
    · exact (h.binds order hold).append _
    · exact (hbinds order hnew).append _

/-- Tables stay tidy with offers of other keys behind. -/
theorem Tidy.append_offers (h : tables.Tidy) {offers : List Offer}
    (hnodup : ((tables.offers ++ offers).map Offer.key).Nodup) :
    (tables.append (ofOffers offers)).Tidy where
  auctions := by
    rw [append_ofOffers]
    exact h.auctions
  orders := by
    rw [append_ofOffers]
    exact h.orders
  offers := hnodup
  binds order hmem := by
    rw [append_ofOffers] at hmem
    exact (h.binds order hmem).append _

end Tables

namespace Book

variable (book : Book) {key : String} {tables : Tables}

-- ======================================================= a book, moved on

/-- The rows of a book, stored behind some auctions. -/
def rowsAt (offset : Nat) : Tables := book.stored.renumber (· + (offset : Int))

/-- The numbers that its auctions are stored under then. -/
def numbersAt (offset : Nat) : List Int :=
  book.auctions.mapIdx fun i _ => ((offset + i : Nat) : Int) + 1

theorem length_numbersAt (offset : Nat) :
    (book.numbersAt offset).length = book.auctions.length :=
  List.length_mapIdx

/-- The auction at a place is stored under the offset, the place, and one more.
-/
theorem auctions_rowsAt (offset : Nat) :
    (book.rowsAt offset).auctions = book.auctions.mapIdx fun i auction =>
      auction.numbered (((offset + i : Nat) : Int) + 1) := by
  refine List.ext_getElem? fun i => ?_
  simp only [rowsAt, Tables.renumber, stored, List.getElem?_map,
    List.getElem?_mapIdx, Option.map_map]
  refine congrArg (fun change => book.auctions[i]?.map change)
    (funext fun auction => ?_)
  have hsum : (i : Int) + 1 + offset = ((offset + i : Nat) : Int) + 1 := by
    omega
  simp [Auction.numbered, hsum]

/-- An order is stored under the number of the auction it is on. -/
theorem orders_rowsAt (offset : Nat) :
    (book.rowsAt offset).orders = book.orders.map fun order =>
      order.numbered (((offset + order.auctionIndex : Nat) : Int) + 1) := by
  simp only [rowsAt, Tables.renumber, stored, List.map_map]
  refine List.map_congr_left fun order _ => ?_
  have hsum : (order.auctionIndex : Int) + 1 + offset
      = ((offset + order.auctionIndex : Nat) : Int) + 1 := by omega
  simp [Order.numbered, hsum]

variable {book}

/-- Wherever a book is stored, its rows are of its marketplace. -/
theorem rowsAt_carries (h : book.roster.Carries key) (offset : Nat) :
    (book.rowsAt offset).Carries key := by
  obtain ⟨hauctions, horders, hoffers⟩ := stored_carries h
  refine ⟨fun row hrow => ?_, fun row hrow => ?_, hoffers⟩
  · obtain ⟨before, hmem, rfl⟩ := List.mem_map.1 hrow
    exact hauctions before hmem
  · obtain ⟨before, hmem, rfl⟩ := List.mem_map.1 hrow
    exact horders before hmem

/-- Its orders, bound to the numbers of its auctions, are its rows. -/
theorem mapM_bind_numbersAt (h : book.roster.Sound) (offset : Nat) :
    book.orders.mapM (Order.bind (book.numbersAt offset))
      = .ok (book.rowsAt offset).orders := by
  have hknown : ∀ order ∈ book.orders,
      order.auctionIndex < (book.numbersAt offset).length := by
    intro order hmem
    rw [book.length_numbersAt]
    exact order_known h hmem
  rw [mapM_bind hknown, orders_rowsAt]
  refine congrArg Except.ok (List.map_congr_left fun order hmem => ?_)
  rw [numbersAt, List.getElem?_mapIdx,
    List.getElem?_eq_getElem (order_known h hmem)]
  rfl

/-- An order at its new number is bound to an auction of its marketplace. -/
theorem binds_rowsAt (hsound : book.roster.Sound)
    (hcarries : book.roster.Carries key) {offset : Nat}
    (hplaces : tables.Places key offset book.auctions.length) :
    ∀ row ∈ (book.rowsAt offset).orders, tables.Binds row := by
  intro row hrow
  have hkey := (rowsAt_carries hcarries offset).orders row hrow
  rw [orders_rowsAt] at hrow
  obtain ⟨order, hmem, rfl⟩ := List.mem_map.1 hrow
  obtain ⟨auction, hauction, hcarried⟩ :=
    hplaces order.auctionIndex (order_known hsound hmem)
  exact ⟨offset + order.auctionIndex, auction, rfl, hauction,
    hcarried.trans hkey.symm⟩

/-- The rows of a sound book differ in what they are stored under, wherever
the book is stored. -/
theorem nodup_rowsAt (h : book.roster.Sound) (offset : Nat) :
    ((book.rowsAt offset).auctions.map Auction.key).Nodup
      ∧ ((book.rowsAt offset).orders.map Order.key).Nodup
      ∧ ((book.rowsAt offset).offers.map Offer.key).Nodup := by
  obtain ⟨hauctions, horders, hoffers⟩ := nodup_keys h
  rw [← book.keys_stored_auctions] at hauctions
  simp only [rowsAt, Tables.renumber, List.map_map, List.Nodup,
    List.pairwise_map] at hauctions horders hoffers ⊢
  refine ⟨hauctions, horders.imp fun {a b} hne heq => hne ?_, hoffers⟩
  -- numbers that are moved on alike were the same before
  obtain ⟨hid, hhash⟩ := Prod.mk.inj heq
  refine Prod.ext ?_ hhash
  cases ha : a.auctionId <;> cases hb : b.auctionId <;>
    simp_all [Order.key]

-- ================================================== stored for the first time

/-- Auctions of a marketplace that has none are stored behind the others, in
one piece. -/
theorem saveAuctions_fresh (hsound : book.roster.Sound)
    (hcarries : book.roster.Carries key) (htidy : tables.Tidy)
    (hnone : ∀ row ∈ tables.auctions, row.marketplaceKey ≠ key) :
    let offset := tables.auctions.length
    let after := tables.append (.ofAuctions (book.rowsAt offset).auctions)
    tables.saveAuctions book.auctions = (book.numbersAt offset, after)
      ∧ after.Tidy ∧ after.Places key offset book.auctions.length := by
  intro offset after
  have hkeys := (rowsAt_carries hcarries offset).auctions
  have hnodup : ((tables.auctions ++ (book.rowsAt offset).auctions).map
      Auction.key).Nodup :=
    Tables.nodup_append_of_apart htidy.auctions (nodup_rowsAt hsound offset).1
      fun row hrow auction hauction heq => hnone row hrow
        ((congrArg Prod.snd heq).trans (hkeys auction hauction))
  have htidy := htidy.append_auctions hnodup
  -- a row has the key of its auction, whatever its number
  have hsame : (book.rowsAt offset).auctions.map Auction.key
      = book.auctions.map Auction.key := by
    rw [← book.keys_stored_auctions]
    exact List.map_map
  refine ⟨?_, htidy, fun i hi => ?_⟩
  · rw [List.map_append, hsame, ← List.map_append] at hnodup
    have hsave := @Tables.saveAuctions_append tables book.auctions
      tables.auctions [] (List.append_nil _).symm hnodup List.nil_prefix
    rw [hsave]
    unfold after
    rw [Tables.append_ofAuctions, auctions_rowsAt]
    rfl
  · have hlt : i < (book.rowsAt offset).auctions.length := by
      rw [auctions_rowsAt, List.length_mapIdx]
      exact hi
    refine ⟨_, ?_, hkeys _ (List.getElem_mem hlt)⟩
    show (tables.auctions ++ (book.rowsAt offset).auctions)[offset + i]? = _
    rw [List.getElem?_append_right (Nat.le_add_right _ _),
      Nat.add_sub_cancel_left, List.getElem?_eq_getElem hlt]

/-- Its orders are stored behind the others too: an order of another
marketplace is not bound to any of its auctions. -/
theorem saveOrders_fresh (hsound : book.roster.Sound)
    (hcarries : book.roster.Carries key) (htidy : tables.Tidy) {offset : Nat}
    (hplaces : tables.Places key offset book.auctions.length)
    (hnone : ∀ row ∈ tables.orders, row.marketplaceKey ≠ key) :
    let after := tables.append (.ofOrders (book.rowsAt offset).orders)
    tables.saveOrders (book.rowsAt offset).orders = (.ok (), after)
      ∧ after.Tidy := by
  intro after
  have hbinds := binds_rowsAt hsound hcarries hplaces
  have hbound : ∀ row ∈ (book.rowsAt offset).orders, row.auctionId ≠ none := by
    intro row hrow
    obtain ⟨i, _, hid, -⟩ := hbinds row hrow
    rw [hid]
    exact Option.some_ne_none _
  have hnodup : ((tables.orders ++ (book.rowsAt offset).orders).map
      Order.key).Nodup := by
    refine Tables.nodup_append_of_apart htidy.orders
      (nodup_rowsAt hsound offset).2.1 fun row hrow new hnew heq => ?_
    -- rows with one key are bound to one auction, so they are of one marketplace
    obtain ⟨i, auction, hid, hauction, hkey⟩ := htidy.binds row hrow
    obtain ⟨j, other, hjd, hother, hnewKey⟩ := hbinds new hnew
    have hids : some ((i : Int) + 1) = some ((j : Int) + 1) := by
      rw [← hid, ← hjd]
      exact congrArg Prod.fst heq
    obtain rfl : i = j := by
      have := Option.some.inj hids
      omega
    obtain rfl := Option.some.inj (hauction.symm.trans hother)
    refine hnone row hrow (hkey.symm.trans (hnewKey.trans ?_))
    exact (rowsAt_carries hcarries offset).orders new hnew
  refine ⟨?_, htidy.append_orders hnodup hbinds⟩
  unfold after
  rw [Tables.saveOrders_of_bound hbound, Tables.foldl_upsert_fresh hnodup,
    Tables.append_ofOrders]

/-- So are its offers. -/
theorem saveOffers_fresh (hsound : book.roster.Sound)
    (hcarries : book.roster.Carries key) (htidy : tables.Tidy)
    (hnone : ∀ row ∈ tables.offers, row.marketplaceKey ≠ key) :
    let after := tables.append (.ofOffers book.offers)
    tables.saveOffers book.offers = after ∧ after.Tidy := by
  intro after
  have hnodup : ((tables.offers ++ book.offers).map Offer.key).Nodup :=
    Tables.nodup_append_of_apart htidy.offers (nodup_keys hsound).2.2
      fun row hrow offer hoffer heq => hnone row hrow
        ((congrArg Prod.snd heq).trans
          (hcarries.offers _ (List.mem_map_of_mem hoffer)))
  refine ⟨?_, htidy.append_offers hnodup⟩
  unfold after
  rw [Tables.saveOffers_eq, Tables.foldl_upsert_fresh hnodup,
    Tables.append_ofOffers]

end Book

end MarketReplay
