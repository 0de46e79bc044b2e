/-
The units of an auction that are left.

While an auction runs, fewer units of it are bought than are on sale
(`Floor.Unsold`). Orders come to be bought in three ways. A purchase compares
the units bought with those on sale, and ends the auction when none are left.
A bid that wins, and an ending that makes the standing bid bought, compare
nothing; but they end the auction in the same step, and an auction that has
ended never runs again. So every step of the floor keeps the law
(`Floor.Step.unsold`), if a lot that opens has something to sell, which event
sets see to (`EventSet.stocked_of_summarize`).
-/
import MarketReplay.Proofs.Action.Reading
import MarketReplay.Proofs.Book.Standing
import MarketReplay.Proofs.Run.Progress

namespace MarketReplay

-- =================================================== what a log reports

/-- If the action is an opening, it puts something on sale. -/
def Action.Stocked (action : Action) : Prop :=
  ∀ opening, action = .started opening → 1 ≤ opening.quantity

namespace Layout

variable (topics : Topics)

/-- A quantity of zero counts as one. -/
theorem quantity_opening : Ensures (1 ≤ ·.quantity) (opening topics) := by
  unfold opening
  iterate 9 refine ensures_bind fun _ => ?_
  exact ensures_pure (Nat.le_max_right _ 1)

theorem Ensures.stocked {action : Action} {read : Topics.Read Reading}
    (h : Ensures (·.action = action) read) (hstocked : action.Stocked) :
    Ensures (·.action.Stocked) read := by
  intro reading hreading
  rw [h reading hreading]
  exact hstocked

theorem stocked_read (kind : ActionKind) :
    Ensures (·.action.Stocked) (read topics kind) := by
  have hnonce := action_paidWithNonce topics
  have htoken := action_paidInToken topics
  unfold read
  cases kind with
  | started =>
      refine ensures_bind_of (quantity_opening topics) fun opening hopening =>
        (hnonce 10 _).stocked ?_
      rintro _ ⟨⟩
      exact hopening
  | bid => exact ensures_bind fun _ => (hnonce 7 _).stocked nofun
  | bought => exact ensures_bind fun _ => (hnonce 7 _).stocked nofun
  | ended => exact ensures_bind fun _ => (htoken 7 _).stocked nofun
  | closed => exact ensures_bind fun _ => ensures_pure nofun
  | repriced => exact ensures_bind fun _ => (hnonce 5 _).stocked nofun
  | updated => exact ensures_bind fun _ => (htoken 6 _).stocked nofun
  | offerCreated => exact ensures_bind fun _ => (hnonce 4 _).stocked nofun
  | offerAccepted => exact ensures_bind fun _ => ensures_pure nofun
  | offerClosed => exact ensures_bind fun _ => ensures_pure nofun
  | globalOfferAccepted => exact ensures_bind fun _ => ensures_pure nofun

end Layout

namespace EventSet

/-- Every opening that an event set reports puts something on sale. -/
theorem stocked_of_summarize {marketplace : Marketplace} {set : List Event}
    {summaries : List ActionSummary}
    (h : summarize marketplace set = .ok summaries) :
    ∀ summary ∈ summaries, summary.action.Stocked := by
  unfold summarize at h
  cases set with
  | nil => cases h; nofun
  | cons head tail =>
      dsimp only at h
      split at h
      · cases h
      · intro summary hmem
        obtain ⟨log, -, hlog⟩ := exists_of_mem_mapM h summary hmem
        unfold summarizeLog at hlog
        cases hread : Layout.read ⟨log.1.topics⟩ log.2 with
        | error cause => rw [hread] at hlog; cases hlog
        | ok reading =>
            rw [hread] at hlog
            cases hlog
            dsimp only
            rw [action_payFrom]
            exact Layout.stocked_read _ _ reading hread

end EventSet

-- ============================================================== the floor

namespace Floor

variable {before after : Floor} {action : Action}

/-- Fewer units of a running lot are bought than are on sale. -/
def Unsold (floor : Floor) : Prop :=
  ∀ (i : Nat) (lot : Lot), floor.lots[i]? = some lot →
    lot.status = .running → floor.boughtTokens i < lot.quantity

/-- Every order is on a lot of the floor. -/
def Known (floor : Floor) : Prop :=
  ∀ order ∈ floor.orders, order.auctionIndex < floor.lots.length

theorem Known.boughtTokens_length (h : before.Known) :
    before.boughtTokens before.lots.length = 0 := by
  have hnone : before.orders.filter (Order.buysOn before.lots.length) = [] := by
    rw [List.filter_eq_nil_iff]
    intro order hmem
    have hne : order.auctionIndex ≠ before.lots.length :=
      Nat.ne_of_lt (h order hmem)
    simp [Order.buysOn, hne]
  unfold boughtTokens
  rw [hnone]
  rfl

theorem Rests.unsold (h : before.Rests after) (hbefore : before.Unsold) :
    after.Unsold := by
  intro i lot hlot hrunning
  obtain ⟨old, hold, hrests⟩ := h.lots i lot hlot
  have hold' : old.status = .running := by
    rcases hrests.status with hsame | ⟨hwas, -, -⟩
    · rw [← hsame, hrunning]
    · exact hwas
  unfold boughtTokens
  rw [h.orders, hrests.quantity]
  exact hbefore i old hold hold'

/-- A lot that still runs is not the one that has moved on. -/
theorem ne_of_running_advance {floor : Floor} {index i : Nat}
    {next : AuctionStatus} {lot : Lot}
    (h : (floor.advance index next).lots[i]? = some lot)
    (hrunning : lot.status = .running) (hnext : next ≠ .running) :
    index ≠ i ∧ floor.lots[i]? = some lot := by
  unfold advance at h
  rw [List.getElem?_modify, Option.map_eq_map] at h
  obtain ⟨old, hold, rfl⟩ := Option.map_eq_some_iff.1 h
  by_cases hindex : index = i
  · rw [if_pos hindex] at hrunning
    exact absurd hrunning (old.status_advance_ne hnext)
  · rw [if_neg hindex]
    exact ⟨hindex, hold⟩

/-- What is not for the lot leaves it as many units. -/
theorem boughtTokens_addOrder_of_not {order : Order} {i : Nat}
    (h : order.auctionIndex ≠ i ∨ order.status ≠ .bought) :
    (before.addOrder order).boughtTokens i = before.boughtTokens i := by
  rw [boughtTokens_addOrder, if_neg]
  · rfl
  · simp only [Order.buysOn, Bool.and_eq_true, beq_iff_eq]
    rintro ⟨hplace, hbought⟩
    exact h.elim (· hplace) (· hbought)

/-- A step keeps lots that run from being sold out, if what it opens has
something to sell. -/
theorem Step.unsold (h : Step action before after) (hknown : before.Known)
    (hstocked : action.Stocked) (hbefore : before.Unsold) : after.Unsold := by
  cases h with
  | rest rests => exact rests.unsold hbefore
  | @opens opening named =>
      intro i lot hlot hrunning
      show before.boughtTokens i < lot.quantity
      unfold addLot at hlot
      rcases Nat.lt_or_ge i before.lots.length with hold | hnew
      · rw [List.getElem?_append_left hold] at hlot
        exact hbefore i lot hlot hrunning
      · -- nobody has an order on a lot that was not there
        have hi := (List.getElem?_eq_some_iff.1 hlot).1
        rw [List.length_append, List.length_singleton] at hi
        obtain rfl : i = before.lots.length := by omega
        rw [List.getElem?_append_right hnew, Nat.sub_self] at hlot
        cases hlot
        rw [hknown.boughtTokens_length]
        exact hstocked opening named
  | @stands bid index order named placed active =>
      intro i lot hlot hrunning
      have hfew := hbefore i lot hlot hrunning
      -- a bid that stands is not bought, and takes nothing off the market
      rwa [boughtTokens_addOrder_of_not (.inr (active ▸ nofun)),
        boughtTokens_outbid]
  | @wins bid index order sold named placed bought known limited reached =>
      intro i lot hlot hrunning
      obtain ⟨hne, hlot⟩ := ne_of_running_advance hlot hrunning nofun
      have hfew := hbefore i lot hlot hrunning
      show ((before.settle index .outbid).addOrder order).boughtTokens i < _
      rwa [boughtTokens_addOrder_of_not (.inl (placed ▸ hne)),
        boughtTokens_outbid]
  | @sells purchase index order offered named placed bought known left =>
      intro i lot hlot hrunning
      by_cases hindex : index = i
      · obtain rfl : offered = lot :=
          Option.some.inj (known.symm.trans (hindex ▸ hlot))
        exact hindex ▸ left
      · have hfew := hbefore i lot hlot hrunning
        rwa [boughtTokens_addOrder_of_not (.inl (placed ▸ hindex))]
  | @sellsOut purchase index order sold named placed bought known gone =>
      intro i lot hlot hrunning
      obtain ⟨hne, hlot⟩ := ne_of_running_advance hlot hrunning nofun
      have hfew := hbefore i lot hlot hrunning
      show ((before.addOrder order).settle index .outbid).boughtTokens i < _
      rwa [boughtTokens_outbid,
        boughtTokens_addOrder_of_not (.inl (placed ▸ hne))]
  | @ends ending index ended named known running =>
      intro i lot hlot hrunning
      obtain ⟨hne, hlot⟩ := ne_of_running_advance hlot hrunning nofun
      have hfew := hbefore i lot hlot hrunning
      rwa [boughtTokens_settle _ (.inr hne)]

end Floor

-- =============================================================== the book

namespace Book

variable {marketplace : Marketplace} {book next : Book} {deed : Deed}
  {deeds : List Deed}

/-- If the deed opens an auction, that has something to sell. -/
def Deed.Stocked : Deed → Prop
  | dispatch summary _ => summary.action.Stocked
  | _ => True

theorem known_of_sound (h : book.roster.Sound) : book.floor.Known := by
  intro order hmem
  unfold floor
  rw [List.length_map]
  exact order_known h hmem

theorem unsold_perform (h : book.perform deed = .ok next)
    (hsound : book.roster.Sound) (hstocked : deed.Stocked)
    (hbook : book.floor.Unsold) : next.floor.Unsold := by
  rcases floor_perform h with hrests | ⟨summary, payment, rfl, hstep⟩
  · exact hrests.unsold hbook
  · exact hstep.unsold (known_of_sound hsound) hstocked hbook

theorem unsold_after (h : after marketplace deeds = .ok book)
    (hstocked : ∀ deed ∈ deeds, deed.Stocked) : book.floor.Unsold := by
  refine performs_induction (motive := fun past reached =>
    (∀ deed ∈ past, deed.Stocked) → reached.floor.Unsold) ?_ ?_ h hstocked
  · exact fun _ _ _ hlot => by cases hlot
  · intro past reached later deed hpast hunsold hlater hall
    have hsound : reached.roster.Sound := sound_after hpast
    refine unsold_perform hlater hsound (hall deed (by simp)) (hunsold ?_)
    exact fun old hold => hall old (List.mem_append_left _ hold)

/-- An auction that runs has units left, whatever was done to its book, if
what opened had something to sell. Event sets report nothing else. The units
bought are added up without a bound, so the sum never wraps. -/
theorem after_unsold (marketplace : Marketplace) (past : List Deed)
    (hstocked : ∀ deed ∈ past, deed.Stocked) :
    (∀ set summaries, EventSet.summarize marketplace set = .ok summaries →
      ∀ summary ∈ summaries, summary.action.Stocked)
      ∧ ∃ book, after marketplace past = .ok book
        ∧ ∀ i auction, book.auctions[i]? = some auction →
          auction.status = .running → book.boughtTokens i < auction.quantity := by
  refine ⟨fun set summaries => EventSet.stocked_of_summarize, ?_⟩
  obtain ⟨book, hbook, -⟩ := exists_performs (sound_empty marketplace) past
  refine ⟨book, hbook, fun i auction hauction hrunning => ?_⟩
  exact unsold_after hbook hstocked i auction.lot
    (book.getElem?_lots hauction) hrunning

end Book

namespace Sample

/-- Auction 7 opens with five units. -/
def stallCrate : ActionSummary :=
  stallAction "crate" (.started
    ⟨⟨7, "C", 1⟩, 5, "owner", 5, 0, 0, 0, 0, .sftOnePerPayment⟩)

/-- Units of it are bought. -/
def stallPurchase (txHash : String) (quantity : Nat) : ActionSummary :=
  stallAction txHash (.bought ⟨⟨7, "C", 1⟩, quantity, "buyer", 5⟩)

/-- Three units of five are bought, then a bid is placed. -/
def stallSale : List Book.Deed :=
  [.dispatch stallCrate stallPayment,
    .dispatch (stallPurchase "three" 3) stallPayment,
    .dispatch (stallBid "bid" 5) stallPayment, .sweep 9]

end Sample

/-- There the auction runs, with three units of five bought. -/
theorem Book.after_unsold_sample :
    (∀ deed ∈ Sample.stallSale, deed.Stocked)
      ∧ ∃ book, Book.after Sample.stall Sample.stallSale = .ok book
        ∧ book.auctions.map (·.status) = [.running]
        ∧ book.boughtTokens 0 = 3 ∧ book.boughtTokens 0 < 5 := by
  have hstocked : ∀ deed ∈ Sample.stallSale, deed.Stocked := by
    simp [Sample.stallSale, Deed.Stocked, Action.Stocked, Sample.stallCrate,
      Sample.stallPurchase, Sample.stallBid, Sample.stallAction]
  obtain ⟨-, book, hbook, hleft⟩ :=
    Book.after_unsold Sample.stall Sample.stallSale hstocked
  cases hbook
  exact ⟨hstocked, _, rfl, rfl, rfl, hleft 0 _ rfl rfl⟩

end MarketReplay
