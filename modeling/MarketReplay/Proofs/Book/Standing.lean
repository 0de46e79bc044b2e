/-
The standing bid of an auction.

A bid stands until a later one outbids it, its auction ends, or the units are
sold out under it. So of the orders on one auction at most one stands, and
what was placed on the auction after it can only be purchases. Both are read
off one law about two orders (`Order.Yields`), which says that the later one
is bought if the earlier one still stands, and every step of the floor keeps
that law (`Floor.Step.yields`).

An auction is sold by three actions. Each of them settles the orders of the
auction in the same step, so when the auction has ended no bid stands on it
(`Floor.Step.sold`); an ending does nothing else to any order.
-/
import MarketReplay.Proofs.Book.Floor

namespace MarketReplay

-- ============================================================= two orders

namespace Order

/-- Is the order a standing bid on the auction? -/
def standsOn (auction : Nat) (order : Order) : Bool :=
  order.auctionIndex == auction && order.status == .active

/-- Of two orders on one auction the later one is bought, if the earlier one
still stands. -/
def Yields (earlier later : Order) : Prop :=
  earlier.auctionIndex = later.auctionIndex → earlier.status = .active →
    later.status = .bought

variable {auction : Nat} {next : OrderStatus}

theorem status_settle_of_ne {order : Order} (h : order.status ≠ .active) :
    (order.settle auction next).status = order.status := by
  rw [settle_eq, if_neg fun hstands => h hstands.2]

/-- Nothing stands on an auction that is settled. -/
theorem standsOn_settle (h : next ≠ .active) (order : Order) :
    (order.settle auction next).standsOn auction = false := by
  unfold standsOn
  by_cases hplace : order.auctionIndex = auction
  · by_cases hactive : order.status = .active
    · rw [settle_eq, if_pos ⟨hplace, hactive⟩]
      simp [h]
    · rw [status_settle_of_ne hactive]
      simp [hactive]
  · simp [hplace]

/-- Settling keeps the law: what stands afterwards stood before, and what was
bought before is bought afterwards. -/
theorem Yields.settle {earlier later : Order} (h : earlier.Yields later)
    (hnext : next ≠ .active) :
    (earlier.settle auction next).Yields (later.settle auction next) := by
  intro hsame hactive
  rw [auctionIndex_settle, auctionIndex_settle] at hsame
  have hearlier : earlier.status = .active := by
    rw [settle_eq] at hactive
    split at hactive
    next => exact absurd hactive hnext
    next => exact hactive
  have hlater : later.status = .bought := h hsame hearlier
  rw [status_settle_of_ne (by rw [hlater]; nofun), hlater]

/-- By the law at most one bid stands on an auction. -/
theorem countP_standsOn_le_one {orders : List Order}
    (h : orders.Pairwise Yields) (auction : Nat) :
    orders.countP (standsOn auction) ≤ 1 := by
  induction orders with
  | nil => exact Nat.zero_le 1
  | cons order orders ih =>
      obtain ⟨hfirst, hrest⟩ := List.pairwise_cons.1 h
      by_cases hstands : order.standsOn auction = true
      · -- whatever is on the auction behind a standing bid is bought
        have hnone : orders.countP (standsOn auction) = 0 := by
          rw [List.countP_eq_zero]
          intro later hlater hactive
          simp only [standsOn, Bool.and_eq_true, beq_iff_eq] at hstands hactive
          have hbought : later.status = .bought :=
            hfirst later hlater (hstands.1.trans hactive.1.symm) hstands.2
          rw [hactive.2] at hbought
          cases hbought
        have hone : (order :: orders).countP (standsOn auction) = 1 := by
          rw [List.countP_cons_of_pos hstands, hnone]
        exact Nat.le_of_eq hone
      · rw [List.countP_cons_of_neg hstands]
        exact ih hrest

end Order

-- ============================================================== the floor

namespace Floor

variable {before after : Floor} {action : Action}

theorem yields_settle (h : before.orders.Pairwise Order.Yields)
    (auction : Nat) {next : OrderStatus} (hnext : next ≠ .active) :
    (before.settle auction next).orders.Pairwise Order.Yields :=
  List.pairwise_map.2 (h.imp fun hyields => hyields.settle hnext)

theorem standsOn_of_mem_settle {auction : Nat} {next : OrderStatus}
    (hnext : next ≠ .active) :
    ∀ order ∈ (before.settle auction next).orders,
      order.standsOn auction = false := by
  intro order hmem
  obtain ⟨old, -, rfl⟩ := List.mem_map.1 hmem
  exact Order.standsOn_settle hnext old

/-- An order may be placed if it is bought, or if no bid stands. -/
theorem yields_addOrder (h : before.orders.Pairwise Order.Yields)
    {order : Order} (hfree : order.status = .bought
      ∨ ∀ old ∈ before.orders, old.standsOn order.auctionIndex = false) :
    (before.addOrder order).orders.Pairwise Order.Yields := by
  refine List.pairwise_append.2 ⟨h, List.pairwise_singleton _ _, ?_⟩
  intro old hold later hlater
  obtain rfl := List.mem_singleton.1 hlater
  intro hsame hactive
  rcases hfree with hbought | hnone
  · exact hbought
  · have hstands := hnone old hold
    simp [Order.standsOn, hsame, hactive] at hstands

theorem Step.yields (h : Step action before after)
    (hbefore : before.orders.Pairwise Order.Yields) :
    after.orders.Pairwise Order.Yields := by
  have hsettled : ∀ auction,
      (before.settle auction .outbid).orders.Pairwise Order.Yields :=
    fun auction => yields_settle hbefore auction nofun
  cases h with
  | rest rests => rwa [rests.orders]
  | opens _ => exact hbefore
  | stands _ placed _ =>
      refine yields_addOrder (hsettled _) (.inr ?_)
      rw [placed]
      exact standsOn_of_mem_settle nofun
  | wins _ _ bought _ _ _ =>
      exact yields_addOrder (hsettled _) (.inl bought)
  | sells _ _ bought _ _ => exact yields_addOrder hbefore (.inl bought)
  | sellsOut _ _ bought _ _ =>
      exact yields_settle (yields_addOrder hbefore (.inl bought)) _ nofun
  | ends _ _ _ => exact yields_settle hbefore _ nofun

-- =============================================================== a sale

/-- Of the lots of a floor, only the one that is moved on changes. -/
theorem eq_of_getElem?_advance {floor : Floor} {index i : Nat}
    {next : AuctionStatus} {lot moved : Lot} (hlot : floor.lots[i]? = some lot)
    (hmoved : (floor.advance index next).lots[i]? = some moved)
    (hstatus : moved.status ≠ lot.status) : index = i := by
  by_cases hindex : index = i
  · exact hindex
  · unfold advance at hmoved
    rw [List.getElem?_modify, hlot, Option.map_eq_map, Option.map_some,
      if_neg hindex] at hmoved
    exact absurd (congrArg Lot.status (Option.some.inj hmoved)).symm hstatus

/-- How an action sold a lot: it ended it, and made its standing bid bought
and changed no other order; or it is a bid that reached a limit; or it bought
the last units. -/
def SoldBy (action : Action) (index : Nat) (lot : Lot)
    (before after : Floor) : Prop :=
  match action with
  | .ended _ => after.orders = before.orders.map fun order =>
      if order.auctionIndex = index ∧ order.status = .active
      then { order with status := .bought } else order
  | .bid bid => lot.maxBid ≠ 0 ∧ lot.maxBid ≤ bid.amount
  | .bought _ => lot.quantity ≤ after.boughtTokens index
  | _ => False

/-- A step that sells a lot leaves no bid standing on it. -/
theorem Step.sold (h : Step action before after) {i : Nat} {lot sold : Lot}
    (hlot : before.lots[i]? = some lot) (hrunning : lot.status = .running)
    (hsold : after.lots[i]? = some sold) (hended : sold.status = .ended) :
    (∀ order ∈ after.orders, order.standsOn i = false)
      ∧ SoldBy action i lot before after := by
  have hmoved : sold.status ≠ lot.status := by
    rw [hended, hrunning]
    nofun
  -- a lot that stays as it was is not sold
  have hkept : before.lots[i]? ≠ some sold := by
    rw [hlot]
    exact fun hsame => hmoved (congrArg Lot.status (Option.some.inj hsame)).symm
  cases h with
  | rest rests =>
      obtain ⟨old, hold, hrests⟩ := rests.lots i sold hsold
      obtain rfl : lot = old := Option.some.inj (hlot.symm.trans hold)
      rcases hrests.status with hsame | ⟨-, -, hnot⟩
      · exact absurd hsame hmoved
      · exact absurd hended hnot
  | opens _ =>
      have hlt := (List.getElem?_eq_some_iff.1 hlot).1
      unfold addLot at hsold
      rw [List.getElem?_append_left hlt] at hsold
      exact absurd hsold hkept
  | stands _ _ _ => exact absurd hsold hkept
  | sells _ _ _ _ _ => exact absurd hsold hkept
  | @wins bid index order found named placed bought known limited reached =>
      obtain rfl := eq_of_getElem?_advance hlot hsold hmoved
      obtain rfl : found = lot := Option.some.inj (known.symm.trans hlot)
      refine ⟨fun old hold => ?_, named ▸ ⟨limited, reached⟩⟩
      rcases List.mem_append.1 hold with hold | hnew
      · have houtbid : OrderStatus.outbid ≠ .active := nofun
        exact standsOn_of_mem_settle houtbid old hold
      · rw [List.mem_singleton.1 hnew]
        simp [Order.standsOn, bought]
  | @sellsOut purchase index order found named placed bought known gone =>
      obtain rfl := eq_of_getElem?_advance hlot hsold hmoved
      obtain rfl : found = lot := Option.some.inj (known.symm.trans hlot)
      refine ⟨standsOn_of_mem_settle nofun, named ▸ ?_⟩
      have hbought := (before.addOrder order).boughtTokens_outbid index index
      exact Nat.le_trans gone (Nat.le_of_eq hbought.symm)
  | @ends ending index found named known running =>
      obtain rfl := eq_of_getElem?_advance hlot hsold hmoved
      refine ⟨standsOn_of_mem_settle nofun, named ▸ ?_⟩
      exact List.map_congr_left fun order _ => order.settle_eq

end Floor

-- =============================================================== the book

namespace Book

variable {marketplace : Marketplace} {book next : Book} {deed : Deed}
  {deeds : List Deed}

theorem yields_perform (h : book.perform deed = .ok next)
    (hbook : book.orders.Pairwise Order.Yields) :
    next.orders.Pairwise Order.Yields := by
  rcases floor_perform h with hrests | ⟨summary, payment, -, hstep⟩
  · rwa [show next.orders = book.orders from hrests.orders]
  · exact hstep.yields hbook

theorem yields_after (h : after marketplace deeds = .ok book) :
    book.orders.Pairwise Order.Yields :=
  performs_induction (motive := fun _ reached =>
    reached.orders.Pairwise Order.Yields) List.Pairwise.nil
    (fun _ hyields hnext => yields_perform hnext hyields) h

/-- Whatever was done to a book, at most one bid stands on an auction, and the
orders placed on it after a standing bid are bought. An action that moves an
auction from running to ended is an ending, a bid that reaches its limit, or
the purchase that sells it out; it leaves no bid standing on the auction, and
if it is an ending, the standing bid is the only order that it changes. -/
theorem after_standing (marketplace : Marketplace) (past : List Deed) :
    ∃ book, after marketplace past = .ok book
      ∧ book.orders.Pairwise Order.Yields
      ∧ (∀ i, book.orders.countP (Order.standsOn i) ≤ 1)
      ∧ ∀ summary payment, ∃ next,
        book.perform (.dispatch summary payment) = .ok next
          ∧ ∀ i (auction sold : Auction), book.auctions[i]? = some auction →
            auction.status = .running → next.auctions[i]? = some sold →
            sold.status = .ended →
              next.orders.countP (Order.standsOn i) = 0
                ∧ Floor.SoldBy summary.action i auction.lot book.floor
                  next.floor := by
  obtain ⟨book, hbook, -⟩ := exists_performs (sound_empty marketplace) past
  have hyields := yields_after hbook
  refine ⟨book, hbook, hyields, Order.countP_standsOn_le_one hyields,
    fun summary payment => ⟨_, Registry.dispatch_standard book summary payment,
      fun i auction sold hauction hrunning hsold hended => ?_⟩⟩
  obtain ⟨hnone, hsoldBy⟩ := (Handler.floor_apply book summary payment).sold
    (book.getElem?_lots hauction) hrunning (getElem?_lots _ hsold) hended
  refine ⟨List.countP_eq_zero.2 fun order hmem => ?_, hsoldBy⟩
  rw [hnone order hmem]
  exact Bool.false_ne_true

end Book

namespace Sample

/-- A bid on auction 7. -/
def stallBid (txHash : String) (amount : Nat) : ActionSummary :=
  stallAction txHash (.bid ⟨⟨7, "C", 1⟩, 1, "bidder", amount⟩)

/-- The auction ends. -/
def stallEnding : ActionSummary :=
  stallAction "ending" (.ended ⟨⟨7, "C", 1⟩, some "bidder", 6⟩)

/-- The auction opens, and one bid outbids another. -/
def stallBids : List Book.Deed :=
  [.dispatch stallOpening stallPayment,
    .dispatch (stallBid "first" 5) stallPayment,
    .dispatch (stallBid "second" 6) stallPayment]

end Sample

/-- The auction ends, and the bid that stands on it is bought. -/
theorem Book.after_standing_sample :
    ∃ book next, Book.after Sample.stall Sample.stallBids = .ok book
      ∧ book.orders.map (·.status) = [.outbid, .active]
      ∧ book.perform (.dispatch Sample.stallEnding Sample.stallPayment)
        = .ok next
      ∧ next.orders.map (·.status) = [.outbid, .bought]
      ∧ next.orders.countP (Order.standsOn 0) = 0 := by
  obtain ⟨book, hbook, -, -, hdispatch⟩ :=
    Book.after_standing Sample.stall Sample.stallBids
  obtain ⟨next, hnext, hsold⟩ :=
    hdispatch Sample.stallEnding Sample.stallPayment
  cases hbook
  cases hnext
  obtain ⟨hnone, hends⟩ := hsold 0 _ _ rfl rfl rfl rfl
  exact ⟨_, _, rfl, rfl, rfl, congrArg (List.map (·.status)) hends, hnone⟩

end MarketReplay
