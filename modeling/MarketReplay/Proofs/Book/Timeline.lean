/-
The times of orders and offers.

Of all that a book says, this file keeps the marketplace and the times of the
orders and of the offers, in the order of the records: the book's `timeline`.
Nothing that changes a record in place shows in it, so each operation of a
book has one short lemma, and what any action can do is said once
(`Handler.timeline_apply`): leave the timeline alone, or add the time of its
event set behind the orders or behind the offers.

A book to which actions come in order of time therefore lists both in order
of time: `Timeline.Ordered` is kept by every step that is not earlier than
the ones before it.
-/
import MarketReplay.Book.Expiry
import MarketReplay.Book.Tags
import MarketReplay.Handler

namespace MarketReplay

-- ======================================================== the timeline

/-- Whose book it is, and the times of its orders and offers. -/
structure Timeline where
  marketplace : Marketplace
  orders : List Int
  offers : List Int

namespace Timeline

/-- Both lists are in order of time, and nothing is later than `now`. -/
structure Ordered (now : Int) (timeline : Timeline) : Prop where
  orders : timeline.orders.Pairwise (· ≤ ·)
  offers : timeline.offers.Pairwise (· ≤ ·)
  orders_le : ∀ time ∈ timeline.orders, time ≤ now
  offers_le : ∀ time ∈ timeline.offers, time ≤ now

/-- What one action at a time can do to a timeline. -/
inductive Step (time : Int) (before : Timeline) : Timeline → Prop
  | same : Step time before before
  | order :
      Step time before { before with orders := before.orders ++ [time] }
  | offer :
      Step time before { before with offers := before.offers ++ [time] }

/-- No step moves a timeline to another marketplace. -/
theorem Step.marketplace_eq {time : Int} {before after : Timeline}
    (h : Step time before after) : after.marketplace = before.marketplace := by
  cases h <;> rfl

/-- Times in order stay in order with one that is not earlier. -/
theorem pairwise_concat {times : List Int} {now time : Int}
    (h : times.Pairwise (· ≤ ·)) (hle : ∀ t ∈ times, t ≤ now)
    (hnow : now ≤ time) :
    (times ++ [time]).Pairwise (· ≤ ·) ∧ ∀ t ∈ times ++ [time], t ≤ time := by
  constructor
  · refine List.pairwise_append.2 ⟨h, List.pairwise_singleton _ _, ?_⟩
    intro t ht u hu
    obtain rfl := List.mem_singleton.1 hu
    exact Int.le_trans (hle t ht) hnow
  · intro t ht
    rcases List.mem_append.1 ht with ht | ht
    · exact Int.le_trans (hle t ht) hnow
    · exact Int.le_of_eq (List.mem_singleton.1 ht)

/-- Times in order have a time that is not later than any of them. -/
theorem exists_start {times : List Int} (h : times.Pairwise (· ≤ ·)) :
    ∃ now, (now :: times).Pairwise (· ≤ ·) := by
  cases times with
  | nil => exact ⟨0, List.pairwise_singleton _ 0⟩
  | cons first rest =>
      refine ⟨first, List.pairwise_cons.2 ⟨fun time hmem => ?_, h⟩⟩
      rcases List.mem_cons.1 hmem with rfl | hmem
      · exact Int.le_refl _
      · exact (List.pairwise_cons.1 h).1 time hmem

/-- An action that is not earlier than what is there keeps the order. -/
theorem Ordered.step {now time : Int} {before after : Timeline}
    (h : before.Ordered now) (hnow : now ≤ time) (hs : Step time before after) :
    after.Ordered time := by
  have horders : ∀ t ∈ before.orders, t ≤ time :=
    fun t ht => Int.le_trans (h.orders_le t ht) hnow
  have hoffers : ∀ t ∈ before.offers, t ≤ time :=
    fun t ht => Int.le_trans (h.offers_le t ht) hnow
  cases hs with
  | same => exact ⟨h.orders, h.offers, horders, hoffers⟩
  | order =>
      obtain ⟨hpair, hle⟩ := pairwise_concat h.orders h.orders_le hnow
      exact ⟨hpair, h.offers, hle, hoffers⟩
  | offer =>
      obtain ⟨hpair, hle⟩ := pairwise_concat h.offers h.offers_le hnow
      exact ⟨h.orders, hpair, horders, hle⟩

end Timeline

-- ====================================================== the operations

/-- A change in place seen through a view is a change of what is seen. -/
theorem map_modify_of_comm {α β : Type} {f : α → β} {change : α → α}
    {g : β → β} (h : ∀ a, f (change a) = g (f a)) (list : List α)
    (index : Nat) :
    (list.modify index change).map f = (list.map f).modify index g := by
  induction list generalizing index with
  | nil => simp
  | cons a list ih =>
      cases index with
      | zero => simp [h]
      | succ index => simp [ih]

namespace Book

variable (book : Book)

/-- The timeline of a book. -/
def timeline : Timeline where
  marketplace := book.marketplace
  orders := book.orders.map (·.timestamp)
  offers := book.offers.map (·.timestamp)

/-- A book without records is in order of time. -/
theorem ordered_empty (marketplace : Marketplace) (now : Int) :
    (Book.empty marketplace).timeline.Ordered now where
  orders := List.Pairwise.nil
  offers := List.Pairwise.nil
  orders_le time hmem := by cases hmem
  offers_le time hmem := by cases hmem

@[simp] theorem timeline_addAuction (auction : Auction) :
    (book.addAuction auction).timeline = book.timeline := rfl

/-- The time of an order comes behind those of the others. -/
theorem timeline_addOrder (order : Order) :
    (book.addOrder order).timeline
      = { book.timeline with
          orders := book.timeline.orders ++ [order.timestamp] } := by
  unfold timeline addOrder
  rw [List.map_append]
  rfl

/-- The time of an offer comes behind those of the others. -/
theorem timeline_addOffer (offer : Offer) :
    (book.addOffer offer).timeline
      = { book.timeline with
          offers := book.timeline.offers ++ [offer.timestamp] } := by
  unfold timeline addOffer
  rw [List.map_append]
  rfl

/-- Auctions have no part in the timeline, whatever is written into one. -/
@[simp] theorem timeline_modifyAuction (index : Nat)
    (change : Auction → Auction) :
    (book.modifyAuction index change).timeline = book.timeline := rfl

@[simp] theorem timeline_advanceAuction (index : Nat) (next : AuctionStatus) :
    (book.advanceAuction index next).timeline = book.timeline := rfl

/-- Changing an offer in place does not show, if its time stays. -/
theorem timeline_modifyOffer (index : Nat) {change : Offer → Offer}
    (h : ∀ offer, (change offer).timestamp = offer.timestamp) :
    (book.modifyOffer index change).timeline = book.timeline := by
  unfold timeline modifyOffer
  rw [map_modify_of_comm (g := id) h, List.modify_id]

/-- Orders that are settled keep their times. -/
@[simp] theorem timeline_advanceOrders (auction : Nat) (next : OrderStatus) :
    (book.advanceOrders auction next).timeline = book.timeline := by
  unfold timeline advanceOrders
  rw [List.map_map]
  refine congrArg (Timeline.mk _ · _) (List.map_congr_left fun order _ => ?_)
  by_cases h : order.auctionIndex = auction
  · simp only [Function.comp_apply, if_pos h]
    rfl
  · simp only [Function.comp_apply, if_neg h]

@[simp] theorem timeline_fillTags (answers : List TokenTags) :
    (book.fillTags answers).timeline = book.timeline := rfl

/-- Auctions and offers that expire do not show: the offers keep their times.
-/
@[simp] theorem timeline_expire (now : Int) :
    (book.expire now).timeline = book.timeline := by
  unfold timeline expire
  rw [List.map_map]
  refine congrArg (Timeline.mk _ _) (List.map_congr_left fun offer _ => ?_)
  unfold Function.comp Offer.sweep
  split <;> rfl

-- ========================================================= the actions

variable (summary : ActionSummary) (payment : Payment)

/-- An opening adds neither an order nor an offer. -/
@[simp] theorem timeline_openAuction :
    (book.openAuction summary payment).timeline = book.timeline := by
  unfold openAuction
  split
  · split <;> simp
  · rfl

/-- An ending settles orders, and adds none. -/
@[simp] theorem timeline_endAuction :
    (book.endAuction summary payment).timeline = book.timeline := by
  unfold endAuction
  split
  · split <;> simp
  · rfl

/-- Closing a listing moves an auction on, and adds no order. -/
@[simp] theorem timeline_closeAuction :
    (book.closeAuction summary).timeline = book.timeline := by
  unfold closeAuction
  split <;> simp

/-- A change of price stays within an auction. -/
@[simp] theorem timeline_repriceAuction :
    (book.repriceAuction summary payment).timeline = book.timeline := by
  unfold repriceAuction
  split <;> simp

/-- An update stays within an auction. -/
@[simp] theorem timeline_updateAuction :
    (book.updateAuction summary payment).timeline = book.timeline := by
  unfold updateAuction
  split <;> simp

/-- A bid adds the time of its event set behind the orders, or nothing. -/
theorem timeline_placeBid :
    book.timeline.Step summary.timestamp
      (book.placeBid summary payment).timeline := by
  unfold placeBid
  -- the orders that the bid outbids, or the sale ends, change in place only
  split
  next bid index auction _ =>
    split
    case isTrue => exact .same
    case isFalse =>
      dsimp only
      split
      all_goals
        simp only [timeline_advanceAuction, timeline_addOrder,
          timeline_advanceOrders]
        exact .order
  next => exact .same

/-- A purchase adds the time of its event set behind the orders, or nothing. -/
theorem timeline_buyTokens :
    book.timeline.Step summary.timestamp
      (book.buyTokens summary payment).timeline := by
  unfold buyTokens
  split
  next purchase index auction _ =>
    split
    case isTrue => exact .same
    case isFalse =>
      dsimp only
      split
      all_goals
        simp only [timeline_advanceAuction, timeline_advanceOrders,
          timeline_addOrder]
        exact .order
  next => exact .same

/-- An offer that is made adds the time of its event set behind the offers, or
nothing. -/
theorem timeline_makeOffer :
    book.timeline.Step summary.timestamp
      (book.makeOffer summary payment).timeline := by
  unfold makeOffer
  split
  next made _ =>
    split
    · exact .same
    · rw [timeline_addOffer]
      exact .offer
  next => exact .same

/-- An offer that is accepted keeps the time at which it was made. -/
theorem accept_timestamp (offer : Offer) (txHash : String) :
    (offer.accept txHash).timestamp = offer.timestamp := by
  unfold Offer.accept
  split <;> rfl

/-- An acceptance settles an offer in place. -/
@[simp] theorem timeline_acceptOffer :
    (book.acceptOffer summary).timeline = book.timeline := by
  unfold acceptOffer
  split
  · split
    · rw [timeline_closeAuction, timeline_modifyOffer]
      exact fun offer => accept_timestamp offer summary.txHash
    · rfl
  · rfl

/-- A withdrawn offer stays in place. -/
@[simp] theorem timeline_withdrawOffer :
    (book.withdrawOffer summary).timeline = book.timeline := by
  unfold withdrawOffer
  split
  · split
    · rw [timeline_modifyOffer]
      exact fun offer => rfl
    · rfl
  · rfl

/-- A global acceptance settles an offer in place. -/
@[simp] theorem timeline_acceptGlobalOffer :
    (book.acceptGlobalOffer summary).timeline = book.timeline := by
  unfold acceptGlobalOffer
  split
  · split
    · rfl
    · rw [timeline_closeAuction, timeline_modifyOffer]
      exact fun offer => accept_timestamp offer summary.txHash
    · simp
  · rfl

end Book

/-- Whatever its kind, an action adds its time behind the orders or behind the
offers, or leaves all times alone. -/
theorem Handler.timeline_apply (kind : ActionKind) (book : Book)
    (summary : ActionSummary) (payment : Payment) :
    book.timeline.Step summary.timestamp
      ((Handler.ofKind kind).apply book summary payment).timeline := by
  unfold Handler.ofKind
  -- three kinds add a record; the others change what is there
  cases kind with
  | bid => exact book.timeline_placeBid summary payment
  | bought => exact book.timeline_buyTokens summary payment
  | offerCreated => exact book.timeline_makeOffer summary payment
  | _ =>
      simp only [Book.timeline_openAuction, Book.timeline_endAuction,
        Book.timeline_closeAuction, Book.timeline_repriceAuction,
        Book.timeline_updateAuction, Book.timeline_acceptOffer,
        Book.timeline_withdrawOffer, Book.timeline_acceptGlobalOffer]
      exact .same

end MarketReplay
