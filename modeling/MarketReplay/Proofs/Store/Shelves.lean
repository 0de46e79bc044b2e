/-
Tables with the positions of their keys at hand.

A table can be upserted without looking through it, if a map beside it tells
where the row of each key stands. A `Shelf` is such a table: a row of a known
key is written over, a row of a new key goes to the end and its position is
filed. As long as the map and the rows agree on every key (`Shelf.Orderly`),
which every call keeps, a shelf holds what a table holds and answers the same
numbers (`Shelves.saveAuctions_eq` and its likes).

A new auction is put on its shelf before its number is known and written over
at once with the number in it; nobody sees it without.
-/
import Mathlib.Data.List.Nodup
import MarketReplay.Proofs.Store.Upserted

namespace MarketReplay

-- ============================================================= one shelf

/-- Rows, and where the row of each key is. -/
structure Shelf (κ ρ : Type) where
  rows : List ρ
  places : Index κ

namespace Shelf

variable {κ ρ : Type} [DecidableEq κ]

/-- The shelf without rows. -/
def empty : Shelf κ ρ := ⟨[], .empty⟩

/-- A row of a new key at the end. -/
def push (key : κ) (row : ρ) (shelf : Shelf κ ρ) : Shelf κ ρ where
  rows := shelf.rows ++ [row]
  places := shelf.places.file key shelf.rows.length

/-- A row over the one at a position. -/
def write (index : Nat) (row : ρ) (shelf : Shelf κ ρ) : Shelf κ ρ :=
  { shelf with rows := shelf.rows.set index row }

/-- A row over the one of its key, or at the end. -/
def put (key : κ) (row : ρ) (shelf : Shelf κ ρ) : Shelf κ ρ :=
  match shelf.places.find? key with
  | some index => shelf.write index row
  | none => shelf.push key row

/-- The position of a key, which is the end if the key is new, and the shelf
with some row there. -/
def reserve (key : κ) (row : ρ) (shelf : Shelf κ ρ) : Nat × Shelf κ ρ :=
  match shelf.places.find? key with
  | some index => (index, shelf)
  | none => (shelf.rows.length, shelf.push key row)

/-- The keys of the rows are all different, and each is filed where its row
is. -/
structure Orderly (key : ρ → κ) (shelf : Shelf κ ρ) : Prop where
  nodup : (shelf.rows.map key).Nodup
  files : shelf.places.Files (shelf.rows.map key)

variable {key : ρ → κ} {shelf : Shelf κ ρ} {row : ρ}

theorem orderly_empty (key : ρ → κ) : Orderly key (empty : Shelf κ ρ) where
  nodup := List.nodup_nil
  files := Index.files_empty

namespace Orderly

/-- A row that is written over at the place of its key leaves a shelf orderly.
-/
theorem write {index : Nat} (h : shelf.Orderly key)
    (hindex : (shelf.rows.map key)[index]? = some (key row)) :
    (shelf.write index row).Orderly key := by
  have hsame : (shelf.rows.set index row).map key = shelf.rows.map key := by
    obtain ⟨hlt, hkey⟩ := List.getElem?_eq_some_iff.1 hindex
    rw [List.map_set, ← hkey, List.set_getElem_self]
  constructor
  · show ((shelf.rows.set index row).map key).Nodup
    exact hsame ▸ h.nodup
  · show shelf.places.Files ((shelf.rows.set index row).map key)
    exact hsame ▸ h.files

/-- A row of a new key that goes to the end leaves a shelf orderly. -/
theorem push (h : shelf.Orderly key)
    (hnew : key row ∉ shelf.rows.map key) :
    (shelf.push (key row) row).Orderly key := by
  have hkeys : (shelf.rows ++ [row]).map key
      = shelf.rows.map key ++ [key row] := List.map_append
  constructor
  · show ((shelf.rows ++ [row]).map key).Nodup
    rw [hkeys, ← List.concat_eq_append]
    exact h.nodup.concat hnew
  · show (shelf.places.file (key row) shelf.rows.length).Files
      ((shelf.rows ++ [row]).map key)
    have hfiles := h.files.file (key row)
    rwa [List.length_map, ← hkeys] at hfiles

/-- Where the row of a known key is. -/
theorem getElem?_of_find? (h : shelf.Orderly key) {k : κ} {index : Nat}
    (hindex : shelf.places.find? k = some index) :
    (shelf.rows.map key)[index]? = some k :=
  (h.files.find?_eq_some_iff_getElem? h.nodup k index).1 hindex

theorem not_mem_of_find? (h : shelf.Orderly key) {k : κ}
    (hnone : shelf.places.find? k = none) : k ∉ shelf.rows.map key :=
  (h.files.find?_eq_none_iff k).1 hnone

end Orderly

/-- Where the keys are different, the row of a key is the one to replace. -/
theorem upsert_eq_set {table : List ρ} {index : Nat}
    (hnodup : (table.map key).Nodup)
    (hindex : (table.map key)[index]? = some (key row)) :
    upsert key row table = table.set index row := by
  induction table generalizing index with
  | nil => cases hindex
  | cons head tail ih =>
      rw [List.map_cons, List.nodup_cons] at hnodup
      rw [upsert]
      cases index with
      | zero =>
          obtain hhead : key head = key row := Option.some.inj hindex
          rw [if_pos hhead]
          rfl
      | succ index =>
          have htail : (tail.map key)[index]? = some (key row) := hindex
          have hhead : key head ≠ key row := by
            intro hhead
            exact hnodup.1 (hhead ▸ List.mem_of_getElem? htail)
          rw [if_neg hhead, ih hnodup.2 htail]
          rfl

/-- A row of a new key is upserted at the end. -/
theorem upsert_eq_append {table : List ρ} (hnew : key row ∉ table.map key) :
    upsert key row table = table ++ [row] := by
  have hnone : ([] : List ρ).map key <+: [key row] := List.nil_prefix
  have h := upsert_append hnew hnone
  rwa [List.append_nil] at h

/-- To put a row on a shelf is to upsert it. -/
theorem put_eq (h : shelf.Orderly key) (row : ρ) :
    (shelf.put (key row) row).rows = upsert key row shelf.rows
      ∧ (shelf.put (key row) row).Orderly key := by
  unfold put
  cases hfound : shelf.places.find? (key row) with
  | some index =>
      have hindex := h.getElem?_of_find? hfound
      exact ⟨(upsert_eq_set h.nodup hindex).symm, h.write hindex⟩
  | none =>
      have hnew := h.not_mem_of_find? hfound
      exact ⟨(upsert_eq_append hnew).symm, h.push hnew⟩

/-- To write over a reserved position is to upsert, too, and the position is
the place of the key. -/
theorem reserve_eq [BEq κ] [LawfulBEq κ] (h : shelf.Orderly key)
    (draft : ρ) (mark : Nat → ρ) (hkey : ∀ i, key (mark i) = key draft) :
    let (index, reserved) := shelf.reserve (key draft) draft
    index = shelf.rows.findIdx (key · == key draft)
      ∧ (reserved.write index (mark index)).rows
        = upsert key (mark index) shelf.rows
      ∧ (reserved.write index (mark index)).Orderly key := by
  unfold reserve
  cases hfound : shelf.places.find? (key draft) with
  | some index =>
      have hindex := h.getElem?_of_find? hfound
      have hplace : (shelf.rows.map key)[index]? = some (key (mark index)) := by
        rw [hkey, hindex]
      refine ⟨?_, (upsert_eq_set h.nodup hplace).symm, h.write hplace⟩
      obtain ⟨hlt, hat⟩ := List.getElem?_eq_some_iff.1 hindex
      rw [findIdx_eq_idxOf, ← hat]
      exact (h.nodup.idxOf_getElem index hlt).symm
  | none =>
      have hnew := h.not_mem_of_find? hfound
      have hmark : key (mark shelf.rows.length) ∉ shelf.rows.map key := by
        rwa [hkey]
      have hplace : ((shelf.push (key draft) draft).rows.map key)[
          shelf.rows.length]? = some (key (mark shelf.rows.length)) := by
        rw [hkey]
        simp [push]
      refine ⟨?_, ?_, (h.push hnew).write hplace⟩
      · rw [findIdx_eq_idxOf, List.idxOf_eq_length hnew, List.length_map]
      · rw [upsert_eq_append hmark]
        simp [push, write]

end Shelf

-- =========================================================== three shelves

/-- The stored records on shelves. -/
structure Shelves where
  auctions : Shelf (Nat × String) Auction
  orders : Shelf (Option Int × String) Order
  offers : Shelf (Nat × String) Offer

namespace Shelves

/-- The shelves without rows. -/
def empty : Shelves := ⟨.empty, .empty, .empty⟩

/-- The rows on the shelves. -/
def tables (shelves : Shelves) : Tables :=
  ⟨shelves.auctions.rows, shelves.orders.rows, shelves.offers.rows⟩

/-- One more auction, with the number it is stored under. -/
def saveAuction (shelves : Shelves) (auction : Auction) : Int × Shelves :=
  let (index, reserved) := shelves.auctions.reserve auction.key auction
  (index + 1, { shelves with
    auctions := reserved.write index (auction.inRow index) })

/-- Some more auctions, with the numbers they are stored under. -/
def saveAuctions (shelves : Shelves) : List Auction → List Int × Shelves
  | [] => ([], shelves)
  | auction :: rest =>
      let (id, saved) := shelves.saveAuction auction
      let (ids, last) := saved.saveAuctions rest
      (id :: ids, last)

/-- Some more orders, up to the first that has no auction. -/
def saveOrders (shelves : Shelves) :
    List Order → Except SinkFault Unit × Shelves
  | [] => (.ok (), shelves)
  | order :: rest =>
      match order.auctionId with
      | none => (.error (.unboundOrder order.blockHash), shelves)
      | some _ => saveOrders { shelves with
          orders := shelves.orders.put order.key order } rest

/-- Some more offers. -/
def saveOffers (shelves : Shelves) (offers : List Offer) : Shelves :=
  offers.foldl (fun shelves offer =>
    { shelves with offers := shelves.offers.put offer.key offer }) shelves

/-- All three shelves are orderly. -/
structure Orderly (shelves : Shelves) : Prop where
  auctions : shelves.auctions.Orderly Auction.key
  orders : shelves.orders.Orderly Order.key
  offers : shelves.offers.Orderly Offer.key

theorem orderly_empty : empty.Orderly where
  auctions := Shelf.orderly_empty _
  orders := Shelf.orderly_empty _
  offers := Shelf.orderly_empty _

variable {shelves : Shelves}

/-- On shelves an auction gets the number that it gets in tables, and the rows
end up the same. -/
theorem saveAuction_eq (h : shelves.Orderly) (auction : Auction) :
    (shelves.saveAuction auction).1 = shelves.tables.auctionId auction
      ∧ (shelves.saveAuction auction).2.tables
        = shelves.tables.saveAuction auction
      ∧ (shelves.saveAuction auction).2.Orderly := by
  obtain ⟨hindex, hrows, horderly⟩ := Shelf.reserve_eq h.auctions
    auction (auction.inRow ·) fun _ => rfl
  have hid : (shelves.saveAuction auction).1
      = shelves.tables.auctionId auction :=
    congrArg (fun index : Nat => (index : Int) + 1) hindex
  refine ⟨hid, ?_, horderly, h.orders, h.offers⟩
  rw [Tables.saveAuction_eq, ← hid]
  exact congrArg (Tables.mk · shelves.orders.rows shelves.offers.rows) hrows

/-- On shelves auctions get the numbers that they get in tables, and the rows
end up the same. -/
theorem saveAuctions_eq (h : shelves.Orderly) (auctions : List Auction) :
    (shelves.saveAuctions auctions).1
        = (shelves.tables.saveAuctions auctions).1
      ∧ (shelves.saveAuctions auctions).2.tables
        = (shelves.tables.saveAuctions auctions).2
      ∧ (shelves.saveAuctions auctions).2.Orderly := by
  induction auctions generalizing shelves with
  | nil => exact ⟨rfl, rfl, h⟩
  | cons auction auctions ih =>
      obtain ⟨hid, htables, horderly⟩ := saveAuction_eq h auction
      obtain ⟨hids, hlast, hend⟩ := ih horderly
      rw [htables] at hids hlast
      exact ⟨congrArg₂ List.cons hid hids, hlast, hend⟩

/-- On shelves orders are answered as in tables, and the rows end up the same,
failure or not. -/
theorem saveOrders_eq (h : shelves.Orderly) (orders : List Order) :
    (shelves.saveOrders orders).1 = (shelves.tables.saveOrders orders).1
      ∧ (shelves.saveOrders orders).2.tables
        = (shelves.tables.saveOrders orders).2
      ∧ (shelves.saveOrders orders).2.Orderly := by
  induction orders generalizing shelves with
  | nil => exact ⟨rfl, rfl, h⟩
  | cons order orders ih =>
      rw [saveOrders, Tables.saveOrders]
      cases order.auctionId with
      | none => exact ⟨rfl, rfl, h⟩
      | some id =>
          obtain ⟨hrows, horderly⟩ := Shelf.put_eq h.orders order
          let next : Shelves := { shelves with
            orders := shelves.orders.put order.key order }
          have htables : next.tables = { shelves.tables with
              orders := upsert Order.key order shelves.tables.orders } :=
            congrArg (Tables.mk shelves.auctions.rows · shelves.offers.rows)
              hrows
          have hnext : next.Orderly := ⟨h.auctions, horderly, h.offers⟩
          have hrest := ih hnext
          rwa [htables] at hrest

/-- On shelves offers end up as in tables. -/
theorem saveOffers_eq (h : shelves.Orderly) (offers : List Offer) :
    (shelves.saveOffers offers).tables = shelves.tables.saveOffers offers
      ∧ (shelves.saveOffers offers).Orderly := by
  induction offers generalizing shelves with
  | nil => exact ⟨rfl, h⟩
  | cons offer offers ih =>
      obtain ⟨hrows, horderly⟩ := Shelf.put_eq h.offers offer
      let next : Shelves := { shelves with
        offers := shelves.offers.put offer.key offer }
      have htables : next.tables = { shelves.tables with
          offers := upsert Offer.key offer shelves.tables.offers } :=
        congrArg (Tables.mk shelves.auctions.rows shelves.orders.rows) hrows
      have hnext : next.Orderly := ⟨h.auctions, h.orders, horderly⟩
      have hrest := ih hnext
      rwa [htables] at hrest

end Shelves

end MarketReplay
