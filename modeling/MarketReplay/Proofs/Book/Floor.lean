/-
The trading floor of a book, and what any deed does to it.

Of an auction the floor keeps what a trade asks about, the lot: its status,
the units on sale and the price at which a bid wins. The orders it keeps as
they are. Prices, tokens, tags, offers and the indices do not show.

Whatever is done to a book, on the floor one of seven things happens
(`Floor.Step`). No trade takes place; or a lot opens; or a bid stands, or wins
its lot; or units are bought, and that may sell the lot out; or a lot ends and
its standing bid wins. A step says all that its action made sure of before.
Which deed is which step is found out once, handler by handler
(`Handler.floor_apply`), so what every deed keeps is a proof by cases on the
seven.
-/
import MarketReplay.Proofs.Book.Lasting

namespace MarketReplay

-- ============================================================= the lots

/-- What a trade asks an auction about. -/
structure Lot where
  status : AuctionStatus
  quantity : Nat
  maxBid : Nat

def Auction.lot (auction : Auction) : Lot :=
  ⟨auction.status, auction.quantity, auction.maxBid⟩

namespace Lot

def advance (lot : Lot) (next : AuctionStatus) : Lot :=
  { lot with status := Lifecycle.advance lot.status next }

/-- A lot that is not traded offers as many units as before, and if it leaves
the market it is not sold. -/
structure Rests (before after : Lot) : Prop where
  quantity : after.quantity = before.quantity
  status : after.status = before.status
    ∨ before.status = .running ∧ after.status ≠ .running
      ∧ after.status ≠ .ended

theorem Rests.refl (lot : Lot) : lot.Rests lot := ⟨rfl, .inl rfl⟩

/-- A lot that is moved on does not run. -/
theorem status_advance_ne (lot : Lot) {next : AuctionStatus}
    (h : next ≠ .running) : (lot.advance next).status ≠ .running := by
  unfold advance
  by_cases hrunning : lot.status = .running
  · rwa [hrunning, AuctionStatus.advance_running]
  · rwa [AuctionStatus.advance_of_ne_running hrunning]

/-- A status that moves on to another one than `ended` does not sell. -/
theorem rests_advance (lot : Lot) {next : AuctionStatus}
    (h : next ≠ .ended) : lot.Rests (lot.advance next) := by
  refine ⟨rfl, ?_⟩
  unfold advance
  by_cases hrunning : lot.status = .running
  · rw [hrunning, AuctionStatus.advance_running]
    by_cases hnext : next = .running
    · exact .inl hnext
    · exact .inr ⟨rfl, hnext, h⟩
  · exact .inl (AuctionStatus.advance_of_ne_running hrunning next)

end Lot

namespace Auction

variable (auction : Auction)

@[simp] theorem lot_advance (next : AuctionStatus) :
    (auction.advance next).lot = auction.lot.advance next := rfl

/-- What a lot is paid in does not show. -/
@[simp] theorem lot_payInNamed (summary : ActionSummary) (payment : Payment) :
    (auction.payInNamed summary payment).lot = auction.lot := by
  unfold payInNamed
  split <;> rfl

/-- The tags do not show. -/
@[simp] theorem lot_fillTags (answers : List TokenTags) :
    (auction.fillTags answers).lot = auction.lot := by
  unfold fillTags
  split
  · split <;> rfl
  · rfl

/-- A new price changes at which bid a lot is won, and no more. -/
theorem rests_reprice (price decimals : Nat) :
    auction.lot.Rests (auction.reprice price decimals).lot := by
  unfold reprice
  dsimp only
  split <;> exact ⟨rfl, .inl rfl⟩

/-- So do new terms. -/
theorem rests_revise (revision : Revision) (decimals : Nat) :
    auction.lot.Rests (auction.revise revision decimals).lot := by
  unfold revise
  cases revision.newPrice <;> cases revision.deadline
  case none.none => exact .refl auction.lot
  case none.some deadline => exact ⟨rfl, .inl rfl⟩
  case some.none price => exact auction.rests_reprice price decimals
  case some.some price deadline => exact auction.rests_reprice price decimals

/-- A sweep takes a lot off the market without selling it. -/
theorem rests_sweep (now : Int) (standing : Bool) :
    auction.lot.Rests (auction.sweep now standing).lot := by
  unfold sweep
  split
  · exact auction.lot.rests_advance (by cases standing <;> nofun)
  · exact .refl auction.lot

end Auction

-- ============================================================= the floor

namespace Order

/-- Does the order buy units of the auction? -/
def buysOn (auction : Nat) (order : Order) : Bool :=
  order.auctionIndex == auction && order.status == .bought

/-- An order with its status moved on, if it is on the auction. -/
def settle (auction : Nat) (next : OrderStatus) (order : Order) : Order :=
  if order.auctionIndex = auction then order.advance next else order

variable (order : Order) {auction : Nat} {next : OrderStatus}

/-- Settling an order moves it to no other auction. -/
@[simp] theorem auctionIndex_settle :
    (order.settle auction next).auctionIndex = order.auctionIndex := by
  unfold settle
  split <;> rfl

/-- Settling an order changes nothing of how many units it is for. -/
@[simp] theorem quantity_settle :
    (order.settle auction next).quantity = order.quantity := by
  unfold settle
  split <;> rfl

/-- Only a standing bid on the auction is settled. -/
theorem settle_eq : order.settle auction next
    = if order.auctionIndex = auction ∧ order.status = .active
      then { order with status := next } else order := by
  unfold settle advance
  by_cases hplace : order.auctionIndex = auction
  · by_cases hactive : order.status = .active
    · rw [if_pos hplace, if_pos ⟨hplace, hactive⟩, hactive,
        OrderStatus.advance_active]
    · rw [if_pos hplace, if_neg (fun h => hactive h.2),
        OrderStatus.advance_of_ne_active hactive]
  · rw [if_neg hplace, if_neg (fun h => hplace h.1)]

/-- Who buys of an auction changes only where its orders are settled as bought.
-/
theorem buysOn_settle {index : Nat} (h : next ≠ .bought ∨ index ≠ auction) :
    (order.settle index next).buysOn auction = order.buysOn auction := by
  rw [settle_eq]
  split
  next hstands =>
    obtain ⟨rfl, hactive⟩ := hstands
    unfold buysOn
    rcases h with hnext | hne
    · rw [hactive, beq_eq_false_iff_ne.2 hnext]
      rfl
    · rw [beq_eq_false_iff_ne.2 hne]
      rfl
  next => rfl

end Order

/-- Lots and orders, in the order of the book. -/
structure Floor where
  lots : List Lot
  orders : List Order

namespace Floor

variable (floor : Floor)

def addLot (lot : Lot) : Floor :=
  { floor with lots := floor.lots ++ [lot] }

def addOrder (order : Order) : Floor :=
  { floor with orders := floor.orders ++ [order] }

def advance (index : Nat) (next : AuctionStatus) : Floor :=
  { floor with lots := floor.lots.modify index (·.advance next) }

def settle (auction : Nat) (next : OrderStatus) : Floor :=
  { floor with orders := floor.orders.map (Order.settle auction next) }

/-- How many units of a lot are bought. -/
def boughtTokens (auction : Nat) : Nat :=
  (floor.orders.filter (Order.buysOn auction)).foldl
    (fun total order => total + order.quantity) 0

/-- Nothing is traded. -/
structure Rests (before after : Floor) : Prop where
  lots : ∀ (i : Nat) (lot : Lot), after.lots[i]? = some lot →
    ∃ old : Lot, before.lots[i]? = some old ∧ old.Rests lot
  orders : after.orders = before.orders

/-- What an action does on the floor, and what it made sure of. -/
inductive Step (action : Action) (before : Floor) : Floor → Prop
  | rest {after : Floor} (rests : before.Rests after) :
      Step action before after
  | opens {opening : Opening} (named : action = .started opening) :
      Step action before
        (before.addLot ⟨.running, opening.quantity, opening.maxBid⟩)
  | stands {bid : Bid} {index : Nat} {order : Order} (named : action = .bid bid)
      (placed : order.auctionIndex = index) (active : order.status = .active) :
      Step action before ((before.settle index .outbid).addOrder order)
  | wins {bid : Bid} {index : Nat} {order : Order} {lot : Lot}
      (named : action = .bid bid) (placed : order.auctionIndex = index)
      (bought : order.status = .bought) (known : before.lots[index]? = some lot)
      (limited : lot.maxBid ≠ 0) (reached : lot.maxBid ≤ bid.amount) :
      Step action before
        (((before.settle index .outbid).addOrder order).advance index .ended)
  | sells {purchase : Purchase} {index : Nat} {order : Order} {lot : Lot}
      (named : action = .bought purchase) (placed : order.auctionIndex = index)
      (bought : order.status = .bought) (known : before.lots[index]? = some lot)
      (left : (before.addOrder order).boughtTokens index < lot.quantity) :
      Step action before (before.addOrder order)
  | sellsOut {purchase : Purchase} {index : Nat} {order : Order} {lot : Lot}
      (named : action = .bought purchase) (placed : order.auctionIndex = index)
      (bought : order.status = .bought) (known : before.lots[index]? = some lot)
      (gone : lot.quantity ≤ (before.addOrder order).boughtTokens index) :
      Step action before
        (((before.addOrder order).settle index .outbid).advance index .ended)
  | ends {ending : Ending} {index : Nat} {lot : Lot}
      (named : action = .ended ending) (known : before.lots[index]? = some lot)
      (running : lot.status = .running) :
      Step action before ((before.advance index .ended).settle index .bought)

theorem Rests.refl (floor : Floor) : floor.Rests floor :=
  ⟨fun _ lot hlot => ⟨lot, hlot, .refl lot⟩, rfl⟩

-- ===================================================== the units bought

/-- A purchase adds its own units, and those only where it is made. -/
theorem boughtTokens_addOrder (order : Order) (auction : Nat) :
    (floor.addOrder order).boughtTokens auction = floor.boughtTokens auction
      + if order.buysOn auction then order.quantity else 0 := by
  unfold boughtTokens addOrder
  rw [List.filter_append, List.foldl_append]
  by_cases h : order.buysOn auction = true
  · rw [List.filter_cons_of_pos h, if_pos h]
    rfl
  · rw [List.filter_cons_of_neg h, if_neg h]
    rfl

/-- Settling leaves the units bought alone where it makes no order bought. -/
theorem boughtTokens_settle {index : Nat} {next : OrderStatus} {auction : Nat}
    (h : next ≠ .bought ∨ index ≠ auction) :
    (floor.settle index next).boughtTokens auction
      = floor.boughtTokens auction := by
  unfold boughtTokens settle
  rw [List.filter_map, List.foldl_map]
  simp only [Order.quantity_settle]
  refine congrArg (List.foldl _ 0) (List.filter_congr fun order _ => ?_)
  exact order.buysOn_settle h

/-- Outbidding makes no order bought. -/
theorem boughtTokens_outbid (index auction : Nat) :
    (floor.settle index .outbid).boughtTokens auction
      = floor.boughtTokens auction :=
  floor.boughtTokens_settle (.inl nofun)

end Floor

namespace Book

variable (book : Book)

/-- The floor of a book. -/
def floor : Floor := ⟨book.auctions.map Auction.lot, book.orders⟩

/-- An auction brings its lot to the floor. -/
@[simp] theorem floor_addAuction (auction : Auction) :
    (book.addAuction auction).floor = book.floor.addLot auction.lot := by
  simp [floor, addAuction, Floor.addLot]

@[simp] theorem floor_addOrder (order : Order) :
    (book.addOrder order).floor = book.floor.addOrder order := rfl

/-- What moves the status of auctions does it to the lots. -/
theorem floor_modifyAuction (index : Nat) {change : Auction → Auction}
    {next : AuctionStatus}
    (h : ∀ auction, (change auction).lot = auction.lot.advance next) :
    (book.modifyAuction index change).floor
      = book.floor.advance index next := by
  unfold floor modifyAuction Floor.advance
  rw [map_modify_of_comm (g := (·.advance next)) h]

/-- Moving the status of one auction is such a change. -/
@[simp] theorem floor_advanceAuction (index : Nat) (next : AuctionStatus) :
    (book.advanceAuction index next).floor = book.floor.advance index next :=
  book.floor_modifyAuction index fun auction => auction.lot_advance next

/-- Settling the orders of an auction settles them on the floor. -/
@[simp] theorem floor_advanceOrders (auction : Nat) (next : OrderStatus) :
    (book.advanceOrders auction next).floor
      = book.floor.settle auction next := rfl

/-- A lot is at the place of its auction. -/
theorem getElem?_lots {i : Nat} {auction : Auction}
    (h : book.auctions[i]? = some auction) :
    book.floor.lots[i]? = some auction.lot := by
  unfold floor
  rw [List.getElem?_map, h]
  rfl

/-- Where auctions change in place without being sold, nothing is traded. -/
theorem rests_of_getElem? {next : Book} (change : Nat → Auction → Auction)
    (hauctions : ∀ i, next.auctions[i]? = book.auctions[i]?.map (change i))
    (horders : next.orders = book.orders)
    (h : ∀ i (auction : Auction), auction.lot.Rests (change i auction).lot) :
    book.floor.Rests next.floor := by
  refine ⟨fun i lot hlot => ?_, horders⟩
  unfold floor at hlot
  rw [List.getElem?_map, hauctions, Option.map_map] at hlot
  obtain ⟨auction, hauction, rfl⟩ := Option.map_eq_some_iff.1 hlot
  exact ⟨auction.lot, book.getElem?_lots hauction, h i auction⟩

/-- Where no lot is traded, neither is the floor. -/
theorem rests_modifyAuction (index : Nat) {change : Auction → Auction}
    (h : ∀ auction : Auction, auction.lot.Rests (change auction).lot) :
    book.floor.Rests (book.modifyAuction index change).floor := by
  refine book.rests_of_getElem?
    (fun i auction => if index = i then change auction else auction)
    (fun i => List.getElem?_modify ..) rfl fun i auction => ?_
  split
  · exact h auction
  · exact .refl auction.lot

/-- A sweep trades nothing. -/
theorem rests_expire (now : Int) :
    book.floor.Rests (book.expire now).floor :=
  book.rests_of_getElem? _ (fun _ => List.getElem?_mapIdx) rfl
    fun i auction => auction.rests_sweep now (book.hasActiveOrder i)

/-- Filling in tags trades nothing. -/
theorem rests_fillTags (answers : List TokenTags) :
    book.floor.Rests (book.fillTags answers).floor :=
  book.rests_of_getElem? (fun _ => (·.fillTags answers))
    (fun _ => List.getElem?_map) rfl
    fun _ auction => auction.lot_fillTags answers ▸ .refl auction.lot

-- ========================================================= the actions

variable (summary : ActionSummary) (payment : Payment)

/-- A listing that is closed is not sold. -/
theorem rests_closeAuction :
    book.floor.Rests (book.closeAuction summary).floor := by
  unfold closeAuction
  split
  · exact book.rests_modifyAuction _ fun auction =>
      auction.lot.rests_advance nofun
  · exact .refl book.floor

/-- A price is no trade. -/
theorem rests_repriceAuction :
    book.floor.Rests (book.repriceAuction summary payment).floor := by
  unfold repriceAuction
  split
  · refine book.rests_modifyAuction _ fun auction => ?_
    rw [← auction.lot_payInNamed summary payment]
    exact Auction.rests_reprice _ _ _
  · exact .refl book.floor

/-- New terms are no trade. -/
theorem rests_updateAuction :
    book.floor.Rests (book.updateAuction summary payment).floor := by
  unfold updateAuction
  split
  · refine book.rests_modifyAuction _ fun auction => ?_
    rw [← auction.lot_payInNamed summary payment]
    exact Auction.rests_revise _ _ _
  · exact .refl book.floor

/-- An offer that is made is not on the floor. -/
theorem rests_makeOffer :
    book.floor.Rests (book.makeOffer summary payment).floor := by
  unfold makeOffer
  split
  · split <;> exact .refl book.floor
  · exact .refl book.floor

/-- An offer that is accepted closes a listing, which is no trade. -/
theorem rests_acceptOffer :
    book.floor.Rests (book.acceptOffer summary).floor := by
  unfold acceptOffer
  split
  · split
    · exact rests_closeAuction (book.modifyOffer _ _) summary
    · exact .refl book.floor
  · exact .refl book.floor

/-- An offer that is taken back was not on the floor. -/
theorem rests_withdrawOffer :
    book.floor.Rests (book.withdrawOffer summary).floor := by
  unfold withdrawOffer
  split
  · split <;> exact .refl book.floor
  · exact .refl book.floor

/-- An offer to everyone that is accepted is like any other. -/
theorem rests_acceptGlobalOffer :
    book.floor.Rests (book.acceptGlobalOffer summary).floor := by
  unfold acceptGlobalOffer
  split
  · split
    · exact .refl book.floor
    · exact rests_closeAuction (book.modifyOffer _ _) summary
    · exact book.rests_closeAuction summary
  · exact .refl book.floor

/-- An opening brings a lot, or is one of an auction that there is. -/
theorem floor_openAuction :
    book.floor.Step summary.action
      (book.openAuction summary payment).floor := by
  unfold openAuction
  split
  next opening haction =>
    split
    · exact .rest (.refl book.floor)
    · rw [floor_addAuction]
      exact .opens haction
  next => exact .rest (.refl book.floor)

variable {summary} in
/-- The lot of the auction that an action finds. -/
theorem getElem?_lots_of_auctionFor? {index : Nat} {auction : Auction}
    (h : book.auctionFor? summary = some (index, auction)) :
    book.floor.lots[index]? = some auction.lot :=
  book.getElem?_lots ((book.auctionFor?_eq_some_iff summary).1 h).2

/-- A bid stands or wins, or it is of a transaction that has bid before. -/
theorem floor_placeBid :
    book.floor.Step summary.action
      (book.placeBid summary payment).floor := by
  unfold placeBid
  split
  next bid index auction haction hfound =>
    split
    case isTrue => exact .rest (.refl book.floor)
    case isFalse =>
      dsimp only
      split
      next hwon =>
        have hreached : auction.maxBid ≠ 0 ∧ auction.maxBid ≤ bid.amount := by
          simpa [Auction.isWonBy] using hwon
        rw [floor_advanceAuction, floor_addOrder, floor_advanceOrders]
        exact .wins haction rfl rfl
          (book.getElem?_lots_of_auctionFor? hfound) hreached.1 hreached.2
      next =>
        rw [floor_addOrder, floor_advanceOrders]
        exact .stands haction rfl rfl
  next => exact .rest (.refl book.floor)

/-- A purchase leaves some units or none, or it is of a transaction that has
ordered before. -/
theorem floor_buyTokens :
    book.floor.Step summary.action
      (book.buyTokens summary payment).floor := by
  unfold buyTokens
  split
  next purchase index auction haction hfound =>
    have hlot := book.getElem?_lots_of_auctionFor? hfound
    split
    case isTrue => exact .rest (.refl book.floor)
    case isFalse =>
      dsimp only
      split
      next hgone =>
        rw [floor_advanceAuction, floor_advanceOrders, floor_addOrder]
        exact .sellsOut haction rfl rfl hlot hgone
      next hleft =>
        rw [floor_addOrder]
        exact .sells haction rfl rfl hlot (Nat.lt_of_not_le hleft)
  next => exact .rest (.refl book.floor)

/-- An end is that of a running lot, or of none. -/
theorem floor_endAuction (hkind : summary.kind = .ended) :
    book.floor.Step summary.action
      (book.endAuction summary payment).floor := by
  obtain ⟨ending, haction⟩ : ∃ ending, summary.action = .ended ending := by
    unfold ActionSummary.kind at hkind
    cases haction : summary.action with
    | ended ending => exact ⟨ending, rfl⟩
    | _ => rw [haction] at hkind; cases hkind
  unfold endAuction
  split
  next index auction hfound =>
    split
    next hlegal =>
      have hrunning : auction.status = .running := by
        simpa [Lifecycle.canBecome] using hlegal
      rw [floor_advanceOrders, floor_modifyAuction]
      · exact .ends haction (book.getElem?_lots_of_auctionFor? hfound) hrunning
      · exact fun auction => Auction.lot_payInNamed _ summary payment
    next => exact .rest (.refl book.floor)
  next => exact .rest (.refl book.floor)

end Book

/-- Every action is one of the steps. -/
theorem Handler.floor_apply (book : Book) (summary : ActionSummary)
    (payment : Payment) :
    book.floor.Step summary.action
      ((Handler.ofKind summary.kind).apply book summary payment).floor := by
  generalize hkind : summary.kind = kind
  unfold Handler.ofKind
  cases kind with
  | started => exact book.floor_openAuction summary payment
  | bid => exact book.floor_placeBid summary payment
  | bought => exact book.floor_buyTokens summary payment
  | ended => exact book.floor_endAuction summary payment hkind
  | closed => exact .rest (book.rests_closeAuction summary)
  | repriced => exact .rest (book.rests_repriceAuction summary payment)
  | updated => exact .rest (book.rests_updateAuction summary payment)
  | offerCreated => exact .rest (book.rests_makeOffer summary payment)
  | offerAccepted => exact .rest (book.rests_acceptOffer summary)
  | offerClosed => exact .rest (book.rests_withdrawOffer summary)
  | globalOfferAccepted => exact .rest (book.rests_acceptGlobalOffer summary)

/-- So every deed is one, and nothing is traded unless it is a dispatch. -/
theorem Book.floor_perform {book next : Book} {deed : Deed}
    (h : book.perform deed = .ok next) :
    book.floor.Rests next.floor
      ∨ ∃ summary payment, deed = .dispatch summary payment
        ∧ book.floor.Step summary.action next.floor := by
  cases deed with
  | dispatch summary payment =>
      rw [Registry.builtIn_standard.dispatch_eq h]
      exact .inr ⟨summary, payment, rfl,
        Handler.floor_apply book summary payment⟩
  | sweep now =>
      cases h
      exact .inl (book.rests_expire now)
  | fill answers =>
      cases h
      exact .inl (book.rests_fillTags answers)

end MarketReplay
