/-
Storing the records of a book.

A table is upserted row by row, so what it holds afterwards depends on what
was there. Two things make the outcome simple. The records of a sound book
have different keys, so no two of them meet in one row; and the tables that a
book is stored into hold, if anything, the first of its keys in their order
(`Tables.Begins`), because an earlier replay of the same marketplace began in
the same way. Then every record lands in the row of its own position
(`foldl_upsert_append`), auctions are numbered by position, and the tables end
up as exactly the records of the book (`Book.stored`), whatever was in them.

The same holds of each table by itself, which is what a replay that fails
between two of them leaves behind.
-/
import MarketReplay.Proofs.Book.Roster
import MarketReplay.Run
import MarketReplay.Store.Tables

namespace MarketReplay

-- ============================================================= one table

section upsert

variable {κ ρ : Type} [DecidableEq κ] {key : ρ → κ}

/-- A row is stored behind rows of other keys, in place of the next one if
that is its own. -/
theorem upsert_append {row : ρ} {done pending : List ρ} {keys : List κ}
    (hfresh : key row ∉ done.map key)
    (hnext : pending.map key <+: key row :: keys) :
    upsert key row (done ++ pending) = done ++ row :: pending.tail := by
  induction done with
  | nil =>
      cases pending with
      | nil => rfl
      | cons next pending =>
          have hkey : key next = key row := (List.cons_prefix_cons.1 hnext).1
          exact if_pos hkey
  | cons first done ih =>
      rw [List.map_cons, List.mem_cons, not_or] at hfresh
      rw [List.cons_append, upsert, if_neg (Ne.symm hfresh.1), ih hfresh.2]
      rfl

omit [DecidableEq κ] in
/-- What is still to come has the keys that follow. -/
theorem map_tail_of_cons {row : ρ} {pending rows : List ρ}
    (hnext : pending.map key <+: (row :: rows).map key) :
    pending.tail.map key <+: rows.map key := by
  cases pending with
  | nil => exact List.nil_prefix
  | cons next pending => exact (List.cons_prefix_cons.1 hnext).2

omit [DecidableEq κ] in
/-- The first of some rows of different keys is not among those before it. -/
theorem not_mem_of_nodup {row : ρ} {done rows : List ρ}
    (hnodup : ((done ++ row :: rows).map key).Nodup) :
    key row ∉ done.map key := by
  rw [List.map_append, List.map_cons, List.nodup_append] at hnodup
  exact fun hmem => hnodup.2.2 _ hmem _ List.mem_cons_self rfl

/-- Rows of different keys, stored where the first of their keys are already,
are what the table holds afterwards. -/
theorem foldl_upsert_append {rows done pending : List ρ}
    (hnodup : ((done ++ rows).map key).Nodup)
    (hnext : pending.map key <+: rows.map key) :
    rows.foldl (fun table row => upsert key row table) (done ++ pending)
      = done ++ rows := by
  induction rows generalizing done pending with
  | nil =>
      rw [List.map_nil, List.prefix_nil, List.map_eq_nil_iff] at hnext
      rw [hnext]
      rfl
  | cons row rows ih =>
      rw [List.foldl_cons, upsert_append (not_mem_of_nodup hnodup) hnext]
      rw [List.append_cons] at hnodup ⊢
      rw [List.append_cons done row rows]
      exact ih hnodup (map_tail_of_cons hnext)

/-- Rows of different keys end up as the table, if it held the first of their
keys in their order. -/
theorem foldl_upsert {rows table : List ρ} (hnodup : (rows.map key).Nodup)
    (hnext : table.map key <+: rows.map key) :
    rows.foldl (fun table row => upsert key row table) table = rows :=
  @foldl_upsert_append κ ρ _ key rows [] table hnodup hnext

end upsert

-- ============================================================ three tables

/-- An auction with the number it is stored under. -/
def Auction.numbered (auction : Auction) (number : Int) : Auction :=
  { auction with id := some number }

/-- An order with the number its auction is stored under. -/
def Order.numbered (order : Order) (number : Int) : Order :=
  { order with auctionId := some number }

@[simp] theorem Auction.key_numbered (auction : Auction) (number : Int) :
    (auction.numbered number).key = auction.key := rfl

namespace Tables

variable {tables : Tables}

/-- The auction behind some rows is stored under the next number. -/
theorem auctionId_append {auction : Auction} {done pending : List Auction}
    {keys : List (Nat × String)} (htable : tables.auctions = done ++ pending)
    (hfresh : auction.key ∉ done.map Auction.key)
    (hnext : pending.map Auction.key <+: auction.key :: keys) :
    tables.auctionId auction = done.length + 1 := by
  have hskip : ∀ row ∈ done, (row.key == auction.key) = false := by
    intro row hrow
    rw [beq_eq_false_iff_ne]
    exact fun heq => hfresh (heq ▸ List.mem_map_of_mem hrow)
  have hplace : (done ++ pending).findIdx (·.key == auction.key)
      = done.length := by
    rw [List.findIdx_append, List.findIdx_eq_length.2 hskip,
      if_neg (Nat.lt_irrefl _)]
    cases pending with
    | nil => simp
    | cons next pending =>
        have hkey : next.key = auction.key :=
          (List.cons_prefix_cons.1 hnext).1
        simp [List.findIdx_cons, hkey]
  rw [auctionId, htable, hplace]

/-- An auction is upserted with its number in it. -/
theorem saveAuction_eq (auction : Auction) :
    tables.saveAuction auction = { tables with
      auctions := upsert Auction.key
        (auction.numbered (tables.auctionId auction)) tables.auctions } := rfl

/-- Auctions of different keys are stored in order, and numbered on from the
rows before them. -/
theorem saveAuctions_append {auctions done pending : List Auction}
    (htable : tables.auctions = done ++ pending)
    (hnodup : ((done ++ auctions).map Auction.key).Nodup)
    (hnext : pending.map Auction.key <+: auctions.map Auction.key) :
    tables.saveAuctions auctions
      = (auctions.mapIdx fun i _ => ((done.length + i : Nat) : Int) + 1,
        { tables with
          auctions := done ++ auctions.mapIdx fun i auction =>
            auction.numbered (((done.length + i : Nat) : Int) + 1) }) := by
  induction auctions generalizing tables done pending with
  | nil =>
      rw [List.map_nil, List.prefix_nil, List.map_eq_nil_iff] at hnext
      rw [hnext] at htable
      rw [List.mapIdx_nil, List.mapIdx_nil, ← htable]
      rfl
  | cons auction auctions ih =>
      have hfresh := not_mem_of_nodup hnodup
      have hid := auctionId_append htable hfresh hnext
      let row := auction.numbered ((done.length : Int) + 1)
      have hsaved : (tables.saveAuction auction).auctions
          = (done ++ [row]) ++ pending.tail := by
        rw [saveAuction_eq, hid, htable, List.append_assoc]
        have hrow : row.key ∉ done.map Auction.key := hfresh
        exact upsert_append hrow hnext
      -- the row that is stored has the key of the auction
      have hkeys : ((done ++ [row]) ++ auctions).map Auction.key
          = (done ++ auction :: auctions).map Auction.key := by
        simp [row]
      have hrest := ih hsaved (hkeys ▸ hnodup) (map_tail_of_cons hnext)
      rw [saveAuctions, hid, hrest]
      simp only [List.mapIdx_cons, List.length_append, List.length_singleton,
        Nat.add_zero, Nat.add_assoc, Nat.add_comm 1, List.append_assoc]
      rfl

/-- Each auction that is saved is answered with one number. -/
theorem length_saveAuctions (tables : Tables)
    (auctions : List Auction) :
    (tables.saveAuctions auctions).1.length = auctions.length := by
  induction auctions generalizing tables with
  | nil => rfl
  | cons auction auctions ih =>
      rw [saveAuctions, List.length_cons, List.length_cons]
      exact congrArg (· + 1) (ih _)

/-- Orders that say where their auctions are stored are stored without
fault. -/
theorem saveOrders_of_bound {orders : List Order}
    (hbound : ∀ order ∈ orders, order.auctionId ≠ none) :
    tables.saveOrders orders = (.ok (),
      { tables with
        orders := orders.foldl (fun table order =>
          upsert Order.key order table) tables.orders }) := by
  induction orders generalizing tables with
  | nil => rfl
  | cons order orders ih =>
      obtain ⟨horder, hrest⟩ := List.forall_mem_cons.1 hbound
      obtain ⟨id, hid⟩ := Option.ne_none_iff_exists'.1 horder
      rw [saveOrders, hid]
      exact ih hrest

/-- Saving offers upserts them one by one, and touches no other table. -/
theorem saveOffers_eq (offers : List Offer) :
    tables.saveOffers offers = { tables with
      offers := offers.foldl (fun table offer =>
        upsert Offer.key offer table) tables.offers } := by
  unfold saveOffers
  induction offers generalizing tables with
  | nil => rfl
  | cons offer offers ih =>
      rw [List.foldl_cons, ih]
      rfl

/-- The rows of some tables are, by their keys and numbers, the first of
others. -/
structure Begins (tables other : Tables) : Prop where
  auctions : tables.auctions.map (fun auction => (auction.key, auction.id))
    <+: other.auctions.map fun auction => (auction.key, auction.id)
  orders : tables.orders.map Order.key <+: other.orders.map Order.key
  offers : tables.offers.map Offer.key <+: other.offers.map Offer.key

theorem empty_begins (other : Tables) : empty.Begins other :=
  ⟨List.nil_prefix, List.nil_prefix, List.nil_prefix⟩

theorem Begins.refl (tables : Tables) : tables.Begins tables :=
  ⟨List.prefix_rfl, List.prefix_rfl, List.prefix_rfl⟩

/-- A beginning of a beginning is a beginning. -/
theorem Begins.trans {other last : Tables} (h : tables.Begins other)
    (more : other.Begins last) : tables.Begins last :=
  ⟨h.auctions.trans more.auctions, h.orders.trans more.orders,
    h.offers.trans more.offers⟩

end Tables

-- ================================================================== a book

/-- An order's auction is stored under the number at its position. -/
theorem mapM_bind {ids : List Int} {orders : List Order}
    (h : ∀ order ∈ orders, order.auctionIndex < ids.length) :
    orders.mapM (Order.bind ids) = .ok (orders.map fun order =>
      { order with auctionId := ids[order.auctionIndex]? }) := by
  induction orders with
  | nil => rfl
  | cons order orders ih =>
      obtain ⟨horder, hrest⟩ := List.forall_mem_cons.1 h
      have hid := List.getElem?_eq_getElem horder
      rw [List.mapM_cons, ih hrest, Order.bind, hid, List.map_cons, hid]
      rfl

namespace Book

variable (book : Book)

/-- The records of a book as rows: an auction under the number of its
position, counted from one, and an order under the number of its auction. -/
def stored : Tables where
  auctions := book.auctions.mapIdx fun i auction => auction.numbered (i + 1)
  orders := book.orders.map fun order =>
    order.numbered (order.auctionIndex + 1)
  offers := book.offers

/-- The numbers that the auctions of a book are stored under. -/
def numbers : List Int := book.auctions.mapIdx fun i _ => (i : Int) + 1

theorem length_numbers : book.numbers.length = book.auctions.length :=
  List.length_mapIdx

/-- Every stored order says where its auction is stored. -/
theorem bound_stored_orders :
    ∀ row ∈ book.stored.orders, row.auctionId ≠ none := by
  intro row hrow
  obtain ⟨_, -, rfl⟩ := List.mem_map.1 hrow
  exact Option.some_ne_none _

/-- The auctions are stored under the keys that they have in the book. -/
theorem keys_stored_auctions :
    book.stored.auctions.map Auction.key = book.auctions.map Auction.key := by
  refine List.ext_getElem? fun i => ?_
  simp only [stored, List.getElem?_map, List.getElem?_mapIdx, Option.map_map]
  rfl

variable {book}

/-- The orders of a book, bound to these numbers, are its stored rows. -/
theorem mapM_bind_numbers (h : book.roster.Sound) :
    book.orders.mapM (Order.bind book.numbers) = .ok book.stored.orders := by
  have hknown : ∀ order ∈ book.orders,
      order.auctionIndex < book.numbers.length := by
    intro order hmem
    rw [book.length_numbers]
    exact order_known h hmem
  rw [mapM_bind hknown]
  refine congrArg Except.ok (List.map_congr_left fun order hmem => ?_)
  rw [numbers, List.getElem?_mapIdx,
    List.getElem?_eq_getElem (order_known h hmem)]
  rfl

/-- Records of a sound book differ in what they are stored under. -/
theorem nodup_keys (h : book.roster.Sound) :
    (book.auctions.map Auction.key).Nodup
      ∧ (book.stored.orders.map Order.key).Nodup
      ∧ (book.offers.map Offer.key).Nodup := by
  have hauctions := h.auctions_nodup
  have horders := h.orders_nodup
  have hoffers := h.offers_nodup
  simp only [roster, stored, List.map_map, List.Nodup, List.pairwise_map]
    at hauctions horders hoffers ⊢
  refine ⟨hauctions.imp fun hne heq => hne (congrArg Prod.fst heq),
    horders.imp fun {a b} hne heq => hne ?_,
    hoffers.imp fun hne heq => hne (congrArg Prod.fst heq)⟩
  -- the number of an auction tells its position
  obtain ⟨hid, hhash⟩ := Prod.mk.inj heq
  have hindex : a.auctionIndex = b.auctionIndex := by
    have := Option.some.inj hid
    omega
  exact Prod.ext hindex hhash

/-- The rows of a book are of the marketplace that its records are of. -/
theorem stored_carries {key : String} (h : book.roster.Carries key) :
    (∀ row ∈ book.stored.auctions, row.marketplaceKey = key)
      ∧ (∀ row ∈ book.stored.orders, row.marketplaceKey = key)
      ∧ ∀ row ∈ book.stored.offers, row.marketplaceKey = key := by
  refine ⟨fun row hrow => ?_, fun row hrow => ?_, fun row hrow => ?_⟩
  · obtain ⟨i, hi, rfl⟩ := List.mem_mapIdx.1 hrow
    exact h.auctions _ (List.mem_map_of_mem (List.getElem_mem hi))
  · obtain ⟨order, horder, rfl⟩ := List.mem_map.1 hrow
    exact h.orders _ (List.mem_map_of_mem horder)
  · exact h.offers _ (List.mem_map_of_mem hrow)

/-- Whatever rows of its first keys the tables hold, the auctions of a book
are stored under the numbers of their positions. -/
theorem saveAuctions_stored (h : book.roster.Sound) {tables : Tables}
    (hbegins : tables.Begins book.stored) :
    tables.saveAuctions book.auctions
      = (book.numbers, { tables with auctions := book.stored.auctions }) := by
  have hnext := hbegins.auctions.map Prod.fst
  simp only [List.map_map] at hnext
  have hkeys : tables.auctions.map Auction.key
      <+: book.auctions.map Auction.key := by
    rw [← book.keys_stored_auctions]
    exact hnext
  have hsave := @Tables.saveAuctions_append tables book.auctions [] _ rfl
    (nodup_keys h).1 hkeys
  simpa [numbers, stored] using hsave

/-- So are its orders. -/
theorem saveOrders_stored (h : book.roster.Sound) {tables : Tables}
    (hbegins : tables.Begins book.stored) :
    tables.saveOrders book.stored.orders
      = (.ok (), { tables with orders := book.stored.orders }) := by
  rw [Tables.saveOrders_of_bound book.bound_stored_orders,
    foldl_upsert (nodup_keys h).2.1 hbegins.orders]

/-- So are its offers. -/
theorem saveOffers_stored (h : book.roster.Sound) {tables : Tables}
    (hbegins : tables.Begins book.stored) :
    tables.saveOffers book.offers
      = { tables with offers := book.stored.offers } := by
  rw [Tables.saveOffers_eq, foldl_upsert (nodup_keys h).2.2 hbegins.offers]
  rfl

/-- Numbers and keys of the stored auctions are read off the roster. -/
theorem labels_stored_auctions (book : Book) :
    book.stored.auctions.map (fun auction => (auction.key, auction.id))
      = book.roster.auctions.mapIdx fun i name =>
        ((name.number, name.marketplaceKey), some ((i : Int) + 1)) := by
  refine List.ext_getElem? fun i => ?_
  simp only [stored, roster, List.getElem?_map, List.getElem?_mapIdx,
    Option.map_map]
  rfl

/-- A book that begins another one is stored as the beginning of it. -/
theorem stored_begins {other : Book} (h : book.roster.Begins other.roster) :
    book.stored.Begins other.stored where
  auctions := by
    rw [labels_stored_auctions, labels_stored_auctions]
    obtain ⟨more, hmore⟩ := h.auctions
    rw [← hmore, List.mapIdx_append]
    exact List.prefix_append _ _
  orders := by
    have hkeys : ∀ book : Book, book.stored.orders.map Order.key
        = book.roster.orders.map fun name =>
          (some ((name.auction : Int) + 1), name.txHash) := by
      intro book
      simp only [stored, roster, List.map_map]
      rfl
    rw [hkeys, hkeys]
    exact h.orders.map _
  offers := by
    have hkeys : ∀ book : Book, book.stored.offers.map Offer.key
        = book.roster.offers.map fun name =>
          (name.number, name.marketplaceKey) := by
      intro book
      simp only [stored, roster, List.map_map]
      rfl
    rw [hkeys, hkeys]
    exact h.offers.map _

end Book

end MarketReplay
