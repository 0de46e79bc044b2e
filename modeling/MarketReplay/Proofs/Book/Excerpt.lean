/-
The part of a book that one auction can see.

An auction sees its own record, the orders on it, and all offers. The part is a
book again (`Book.only`): it has at most the one auction, at the front, and its
orders are on what stands there. Which record and which orders these are is
told by the number of the auction, wherever it stands in the whole book
(`Book.auctions_only`, `Book.orders_only`).

What is done to the whole book at the place of the auction is done to the part
at the front, and what is done at another place leaves the part as it is. There
is one such pair of lemmas for each operation of a book.
-/
import MarketReplay.Proofs.Book.Floor

namespace MarketReplay

-- ============================================================= the part

namespace Order

/-- An order, wherever its auction stands. -/
def unplaced (order : Order) : Order := { order with auctionIndex := 0 }

/-- Is its auction at this place? -/
def isAt (place : Option Nat) (order : Order) : Bool :=
  place == some order.auctionIndex

/-- The orders on the auction at a place, wherever that is. -/
def onlyAt (place : Option Nat) (orders : List Order) : List Order :=
  (orders.filter (isAt place)).map unplaced

variable {place : Option Nat} {orders : List Order} {order : Order}
  {index : Nat}

theorem isAt_iff : order.isAt place = true ↔ place = some order.auctionIndex :=
  beq_iff_eq

/-- An order that comes to the place stands last there. -/
theorem onlyAt_concat (h : place = some order.auctionIndex) :
    onlyAt place (orders ++ [order])
      = onlyAt place orders ++ [order.unplaced] := by
  unfold onlyAt
  rw [List.filter_append, List.map_append,
    List.filter_cons_of_pos (isAt_iff.2 h)]
  rfl

/-- An order that comes to another place is not seen. -/
theorem onlyAt_concat_of_ne (h : place ≠ some order.auctionIndex) :
    onlyAt place (orders ++ [order]) = onlyAt place orders := by
  unfold onlyAt
  rw [List.filter_append, List.map_append,
    List.filter_cons_of_neg (fun hat => h (isAt_iff.1 hat))]
  exact List.append_nil _

/-- A place that no order is at. -/
theorem onlyAt_eq_nil (h : ∀ order ∈ orders, place ≠ some order.auctionIndex) :
    onlyAt place orders = [] := by
  unfold onlyAt
  rw [List.map_eq_nil_iff, List.filter_eq_nil_iff]
  exact fun order hmem hat => h order hmem (isAt_iff.1 hat)

/-- Settling orders moves none of them to another place. -/
theorem onlyAt_map_settle (next : OrderStatus) :
    onlyAt place (orders.map (settle index next))
      = (orders.filter (isAt place)).map (unplaced ∘ settle index next) := by
  unfold onlyAt
  rw [List.filter_map, List.map_map]
  refine congrArg (List.map _) (List.filter_congr fun order _ => ?_)
  simp only [Function.comp_apply, isAt, auctionIndex_settle]

/-- Settling the orders at the place settles those that are seen. -/
theorem onlyAt_settle (next : OrderStatus) :
    onlyAt (some index) (orders.map (settle index next))
      = (onlyAt (some index) orders).map (settle 0 next) := by
  rw [onlyAt_map_settle, onlyAt, List.map_map]
  refine List.map_congr_left fun order hmem => ?_
  have hplace := isAt_iff.1 (List.mem_filter.1 hmem).2
  simp only [Function.comp_apply, settle]
  rw [if_pos (Option.some.inj hplace).symm]
  rfl

/-- Settling the orders at another place is not seen. -/
theorem onlyAt_settle_of_ne (h : place ≠ some index) (next : OrderStatus) :
    onlyAt place (orders.map (settle index next)) = onlyAt place orders := by
  rw [onlyAt_map_settle]
  refine List.map_congr_left fun order hmem => ?_
  have hplace := isAt_iff.1 (List.mem_filter.1 hmem).2
  have hne : order.auctionIndex ≠ index := fun heq => h (heq ▸ hplace)
  simp only [Function.comp_apply, settle, if_neg hne]

end Order

namespace Book

variable (book : Book) (number : Nat)

/-- The record of the auction with a number. -/
def auctionNumbered? : Option Auction :=
  book.auctions.find? (·.marketplaceAuctionId == number)

/-- The orders on that auction, in order, wherever it stands. -/
def ordersNumbered : List Order :=
  (book.orders.filter fun order =>
    book.auctions[order.auctionIndex]?.any
      (·.marketplaceAuctionId == number)).map Order.unplaced

/-- What is at the position of that auction. -/
def auctionThere? : Option Auction :=
  (book.auctionIndex? number).bind (book.auctions[·]?)

/-- The book with no other auction, and with the orders on that one. -/
def only : Book :=
  { book with
    auctions := (book.auctionThere? number).toList
    orders := Order.onlyAt (book.auctionIndex? number) book.orders
    auctionById := ⟨(book.auctionThere? number).toList.map
      fun auction => (auction.marketplaceAuctionId, 0)⟩
    auctionByIdentifier := ⟨(book.auctionThere? number).toList.map
      fun auction => (auction.identifier, 0)⟩ }

variable {book} {number}

/-- A sound book finds an auction of a number where there is one. -/
theorem auctionIndex?_eq_some_iff (h : book.roster.Sound) {i : Nat} :
    book.auctionIndex? number = some i
      ↔ ∃ auction, book.auctions[i]? = some auction
        ∧ auction.marketplaceAuctionId = number :=
  (filed_of_sound h).auctionIndex? number i

/-- A number finds the auction that has it, and no other one has. -/
theorem auctionThere?_eq_some_iff (h : book.roster.Sound) {auction : Auction} :
    book.auctionThere? number = some auction
      ↔ auction ∈ book.auctions ∧ auction.marketplaceAuctionId = number := by
  unfold auctionThere?
  rw [Option.bind_eq_some_iff]
  constructor
  · rintro ⟨i, hi, hauction⟩
    obtain ⟨found, hfound, hnumber⟩ := (auctionIndex?_eq_some_iff h).1 hi
    rw [hauction] at hfound
    cases hfound
    exact ⟨List.mem_of_getElem? hauction, hnumber⟩
  · rintro ⟨hmem, hnumber⟩
    obtain ⟨i, hi⟩ := List.getElem?_of_mem hmem
    exact ⟨i, (auctionIndex?_eq_some_iff h).2 ⟨auction, hi, hnumber⟩, hi⟩

/-- Position and number lead to the same record. -/
theorem auctionThere?_eq (h : book.roster.Sound) :
    book.auctionThere? number = book.auctionNumbered? number := by
  unfold auctionNumbered?
  cases hfind : book.auctions.find? (·.marketplaceAuctionId == number) with
  | none =>
      rw [Option.eq_none_iff_forall_ne_some]
      intro auction hthere
      obtain ⟨hmem, hnumber⟩ := (auctionThere?_eq_some_iff h).1 hthere
      exact List.find?_eq_none.1 hfind auction hmem (beq_iff_eq.2 hnumber)
  | some found =>
      have hnumber := List.find?_some hfind
      exact (auctionThere?_eq_some_iff h).2
        ⟨List.mem_of_find?_eq_some hfind, eq_of_beq hnumber⟩

/-- The part of a sound book has the record and the orders that are the
auction's by number. -/
theorem auctions_only (h : book.roster.Sound) :
    (book.only number).auctions = (book.auctionNumbered? number).toList :=
  congrArg Option.toList (auctionThere?_eq h)

/-- The orders that an auction sees are those that bear its number. -/
theorem orders_only (h : book.roster.Sound) :
    (book.only number).orders = book.ordersNumbered number := by
  refine congrArg (List.map _) (List.filter_congr fun order _ => ?_)
  rw [Bool.eq_iff_iff, Order.isAt_iff, auctionIndex?_eq_some_iff h]
  simp [Option.any_eq_true]

-- ==================================================== the operations

variable {index : Nat}

theorem offers_only (book : Book) {number : Nat} :
    (book.only number).offers = book.offers := rfl

/-- What is written into the auction is written in front. -/
theorem only_modifyAuction (hindex : book.auctionIndex? number = some index)
    {change : Auction → Auction}
    (hname : ∀ auction, (change auction).name = auction.name) :
    (book.modifyAuction index change).only number
      = (book.only number).modifyAuction 0 change := by
  have hthere : (book.modifyAuction index change).auctionThere? number
      = (book.auctionThere? number).map change := by
    unfold auctionThere?
    rw [show (book.modifyAuction index change).auctionIndex? number
      = some index from hindex, hindex]
    exact List.getElem?_modify_eq ..
  have hnumber : ∀ auction, (change auction).marketplaceAuctionId
      = auction.marketplaceAuctionId :=
    fun auction => congrArg AuctionName.number (hname auction)
  have hidentifier : ∀ auction, (change auction).identifier
      = auction.identifier :=
    fun auction => congrArg AuctionName.identifier (hname auction)
  unfold only
  rw [hthere]
  cases book.auctionThere? number with
  | none => rfl
  | some auction => simp [modifyAuction, auctionIndex?, hnumber, hidentifier]

/-- What is written into another auction is not seen. -/
theorem only_modifyAuction_of_ne
    (hindex : book.auctionIndex? number ≠ some index)
    (change : Auction → Auction) :
    (book.modifyAuction index change).only number = book.only number := by
  have hthere : (book.modifyAuction index change).auctionThere? number
      = book.auctionThere? number := by
    unfold auctionThere?
    rw [show (book.modifyAuction index change).auctionIndex? number
      = book.auctionIndex? number from rfl]
    cases hi : book.auctionIndex? number with
    | none => rfl
    | some i =>
        have hne : index ≠ i := fun heq => hindex (heq ▸ hi)
        exact List.getElem?_modify_ne _ _ hne
  unfold only
  rw [hthere]
  rfl

theorem only_advanceAuction (hindex : book.auctionIndex? number = some index)
    (next : AuctionStatus) :
    (book.advanceAuction index next).only number
      = (book.only number).advanceAuction 0 next :=
  only_modifyAuction hindex fun auction => auction.name_advance next

theorem only_advanceAuction_of_ne
    (hindex : book.auctionIndex? number ≠ some index) (next : AuctionStatus) :
    (book.advanceAuction index next).only number = book.only number :=
  only_modifyAuction_of_ne hindex (·.advance next)

/-- An order on the auction is an order on the one in front. -/
theorem only_addOrder {order : Order}
    (hindex : book.auctionIndex? number = some order.auctionIndex) :
    (book.addOrder order).only number
      = (book.only number).addOrder order.unplaced :=
  congrArg (fun orders => { book.only number with orders })
    (Order.onlyAt_concat hindex)

/-- An order on another auction is not seen. -/
theorem only_addOrder_of_ne {order : Order}
    (hindex : book.auctionIndex? number ≠ some order.auctionIndex) :
    (book.addOrder order).only number = book.only number :=
  congrArg (fun orders => { book.only number with orders })
    (Order.onlyAt_concat_of_ne hindex)

/-- Settling the orders on the auction settles all orders that it sees. -/
theorem only_advanceOrders (hindex : book.auctionIndex? number = some index)
    (next : OrderStatus) :
    (book.advanceOrders index next).only number
      = (book.only number).advanceOrders 0 next := by
  have horders : Order.onlyAt (book.auctionIndex? number)
      (book.orders.map (Order.settle index next))
        = (book.only number).orders.map (Order.settle 0 next) := by
    unfold only
    rw [hindex]
    exact Order.onlyAt_settle next
  exact congrArg (fun orders => { book.only number with orders }) horders

/-- Settling the orders on another auction is not seen. -/
theorem only_advanceOrders_of_ne
    (hindex : book.auctionIndex? number ≠ some index) (next : OrderStatus) :
    (book.advanceOrders index next).only number = book.only number :=
  congrArg (fun orders => { book.only number with orders })
    (Order.onlyAt_settle_of_ne hindex next)

/-- A sound book has no order on an auction that is still to come. -/
theorem only_addAuction (h : book.roster.Sound) {auction : Auction}
    (hnumber : auction.marketplaceAuctionId = number)
    (hfree : book.auctionIndex? number = none) :
    (book.addAuction auction).only number
      = (book.only number).addAuction auction := by
  have hindex : (book.addAuction auction).auctionIndex? number
      = some book.auctions.length := by
    show (book.auctionById.file _ _).find? number = _
    rw [Index.find?_file, if_pos hnumber.symm]
  have hthere : (book.addAuction auction).auctionThere? number
      = some auction := by
    unfold auctionThere?
    rw [hindex]
    exact List.getElem?_concat_length
  have hnone : Order.onlyAt (some book.auctions.length) book.orders = [] := by
    refine Order.onlyAt_eq_nil fun order hmem heq => ?_
    exact Nat.ne_of_lt (order_known h hmem) (Option.some.inj heq).symm
  have hempty : Order.onlyAt none book.orders = [] :=
    Order.onlyAt_eq_nil fun _ _ => nofun
  have hmissing : book.auctionThere? number = none := by
    rw [auctionThere?, hfree]
    rfl
  unfold only
  rw [hthere, hindex, hmissing, hfree, hempty,
    show (book.addAuction auction).orders = book.orders from rfl, hnone]
  rfl

/-- An auction of another number is not seen. -/
theorem only_addAuction_of_ne (h : book.roster.Sound) {auction : Auction}
    (hnumber : auction.marketplaceAuctionId ≠ number) :
    (book.addAuction auction).only number = book.only number := by
  have hindex : (book.addAuction auction).auctionIndex? number
      = book.auctionIndex? number := by
    show (book.auctionById.file _ _).find? number = _
    rw [Index.find?_file, if_neg (Ne.symm hnumber)]
    rfl
  have hthere : (book.addAuction auction).auctionThere? number
      = book.auctionThere? number := by
    unfold auctionThere?
    rw [hindex]
    cases hi : book.auctionIndex? number with
    | none => rfl
    | some i =>
        obtain ⟨found, hfound, -⟩ := (auctionIndex?_eq_some_iff h).1 hi
        have hlt := (List.getElem?_eq_some_iff.1 hfound).1
        exact List.getElem?_append_left hlt
  unfold only
  rw [hthere, hindex]
  rfl

end Book

end MarketReplay
