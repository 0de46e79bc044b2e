/-
What becomes of the records of a book.

A record stays at the place where it was written, and of its columns only some
ever change. `Auction.Becomes`, `Order.Becomes` and `Offer.Becomes` say which,
and how: a status leaves its first value once and then stays, and so do tags.
They are preorders, so what one deed does to a record and what a whole history
does to it are said by the same relation; `Book.Becomes` says it of all three
lists. Two parameters tell deeds apart: whether tags may be filled in, and
under which transactions offers may be accepted.

Each operation of a book has one lemma, and each action is one or two of them
in a row (`Handler.becomes_apply`). A history of deeds is then an induction
along the deeds (`becomes_performs`). Who accepted an offer is read off the
same induction, taken from its end (`exists_acceptance`): the last deed either
found the offer accepted, or is a dispatch that accepted it.
-/
import MarketReplay.Proofs.Book.History

namespace MarketReplay

-- ========================================================== one record

/-- A value stays as it is, or leaves the one that it starts from. -/
def LeavesOnce {α : Type} (start before after : α) : Prop :=
  after = before ∨ before = start ∧ after ≠ start

namespace LeavesOnce

variable {α : Type} {start before between after : α}

theorem refl (start before : α) : LeavesOnce start before before := .inl rfl

/-- What has left its start does not move again. -/
theorem trans (h : LeavesOnce start before between)
    (more : LeavesOnce start between after) : LeavesOnce start before after := by
  rcases more with rfl | ⟨hstart, hleft⟩
  · exact h
  · rcases h with rfl | ⟨-, hgone⟩
    · exact .inr ⟨hstart, hleft⟩
    · exact absurd hstart hgone

/-- Away from its start a value stays as it is. -/
theorem eq_of_ne (h : LeavesOnce start before after) (hne : before ≠ start) :
    after = before :=
  h.resolve_right fun hleft => hne hleft.1

/-- Nor does it come back to its start. -/
theorem ne_of_ne (h : LeavesOnce start before after) (hne : before ≠ start) :
    after ≠ start := by
  rwa [h.eq_of_ne hne]

end LeavesOnce

/-- The status of an auction leaves `running` once at most, whatever status is
asked for. -/
theorem AuctionStatus.leavesOnce_advance (current next : AuctionStatus) :
    LeavesOnce running current (Lifecycle.advance current next) := by
  by_cases hcurrent : current = running
  · subst hcurrent
    rw [advance_running]
    by_cases hnext : next = running
    · exact .inl hnext
    · exact .inr ⟨rfl, hnext⟩
  · rw [advance_of_ne_running hcurrent]
    exact .refl running current

/-- The auction with every column blank that may ever change. -/
def Auction.frozen (auction : Auction) : Auction :=
  { auction with
    status := .running
    paymentToken := ""
    paymentNonce := 0
    minBid := 0
    minBidDenominated := 0
    maxBid := 0
    maxBidDenominated := 0
    endDate := 0
    tags := [] }

/-- What may become of an auction, given whether tags may be filled in. -/
structure Auction.Becomes (filled : Prop) (before after : Auction) : Prop where
  frozen : after.frozen = before.frozen
  status : LeavesOnce .running before.status after.status
  tags : LeavesOnce [] before.tags after.tags
  unfilled : ¬ filled → after.tags = before.tags

/-- What may become of an order. -/
inductive Order.Becomes (before : Order) : Order → Prop
  | same : Becomes before before
  | settled (standing : before.status = .active) {status : OrderStatus}
      (moved : status ≠ .active) : Becomes before { before with status }

/-- What may become of an offer, given the transactions that may accept it. -/
inductive Offer.Becomes (accepts : String → Prop) (before : Offer) :
    Offer → Prop
  | same : Becomes accepts before before
  | closed (isOpen : before.status = .created) :
      Becomes accepts before { before with status := .closed }
  | accepted (isOpen : before.status = .created) {txHash : String}
      (granted : accepts txHash) :
      Becomes accepts before
        { before with status := .accepted, acceptedTxHash := some txHash }

namespace Auction

variable {filled : Prop} {before between after : Auction}

theorem Becomes.refl (filled : Prop) (auction : Auction) :
    auction.Becomes filled auction :=
  ⟨rfl, .refl _ _, .refl _ _, fun _ => rfl⟩

/-- What two deeds may make of an auction, one after the other, is what may
become of it. -/
theorem Becomes.trans (h : before.Becomes filled between)
    (more : between.Becomes filled after) : before.Becomes filled after :=
  ⟨more.frozen.trans h.frozen, h.status.trans more.status,
    h.tags.trans more.tags,
    fun hnone => (more.unfilled hnone).trans (h.unfilled hnone)⟩

/-- Leave to fill in tags forbids nothing. -/
theorem Becomes.imp {other : Prop} (himp : filled → other)
    (h : before.Becomes filled after) : before.Becomes other after :=
  { h with unfilled := fun hnone => h.unfilled fun hfilled => hnone (himp hfilled) }

variable (auction : Auction)

/-- Asked for a status, an auction keeps all columns but that one. -/
theorem becomes_advance (next : AuctionStatus) :
    auction.Becomes filled (auction.advance next) where
  frozen := rfl
  status := AuctionStatus.leavesOnce_advance auction.status next
  tags := .refl _ _
  unfilled _ := rfl

/-- The token of payment of an auction may be replaced. -/
theorem becomes_payInNamed (summary : ActionSummary) (payment : Payment) :
    auction.Becomes filled (auction.payInNamed summary payment) := by
  unfold payInNamed
  split
  · exact ⟨rfl, .refl _ _, .refl _ _, fun _ => rfl⟩
  · exact .refl filled auction

/-- The bounds of its price may move. -/
theorem becomes_reprice (price decimals : Nat) :
    auction.Becomes filled (auction.reprice price decimals) := by
  unfold reprice
  dsimp only
  split <;> exact ⟨rfl, .refl _ _, .refl _ _, fun _ => rfl⟩

/-- So may its deadline, with or without the bounds. -/
theorem becomes_revise (revision : Revision) (decimals : Nat) :
    auction.Becomes filled (auction.revise revision decimals) := by
  have hdeadline : ∀ (priced : Auction) (deadline : Int),
      priced.Becomes filled { priced with endDate := deadline } :=
    fun priced deadline => ⟨rfl, .refl _ _, .refl _ _, fun _ => rfl⟩
  unfold revise
  cases revision.newPrice with
  | none =>
      cases revision.deadline with
      | none => exact .refl filled auction
      | some deadline => exact hdeadline auction deadline
  | some price =>
      have hpriced : auction.Becomes filled (auction.reprice price decimals) :=
        auction.becomes_reprice price decimals
      cases revision.deadline with
      | none => exact hpriced
      | some deadline => exact hpriced.trans (hdeadline _ deadline)

/-- A sweep is a request for a status, or nothing. -/
theorem becomes_sweep (now : Int) (standing : Bool) :
    auction.Becomes filled (auction.sweep now standing) := by
  unfold sweep
  split
  · exact auction.becomes_advance _
  · exact .refl filled auction

/-- An answer without tags is none, so tags that are filled in are some. -/
theorem ne_nil_of_tagsIn? {answers : List TokenTags} {identifier : String}
    {tags : List String} (h : tagsIn? answers identifier = some tags) :
    tags ≠ [] := by
  unfold tagsIn? at h
  obtain ⟨answer, hanswer, rfl⟩ := Option.map_eq_some_iff.1 h
  have hmem := List.mem_of_find?_eq_some hanswer
  rw [List.mem_reverse, List.mem_filter] at hmem
  simpa using hmem.2

/-- Tags are filled in where there are none, and nothing else happens. -/
theorem becomes_fillTags (answers : List TokenTags) :
    auction.Becomes True (auction.fillTags answers) := by
  unfold fillTags
  split
  next hempty =>
    split
    next tags htags =>
      refine ⟨rfl, .refl _ _, .inr ⟨?_, ne_nil_of_tagsIn? htags⟩, ?_⟩
      · exact List.isEmpty_iff.1 hempty
      · exact fun hnone => absurd trivial hnone
    next => exact .refl True auction
  next => exact .refl True auction

end Auction

namespace Order

variable {before between after : Order}

/-- An order is settled once, so two deeds are no more to it than one. -/
theorem Becomes.trans (h : before.Becomes between)
    (more : between.Becomes after) : before.Becomes after := by
  cases h with
  | same => exact more
  | settled standing moved =>
      cases more with
      | same => exact .settled standing moved
      | settled again _ => exact absurd again moved

/-- Asked for a status, a standing order is settled, and any other stays as it
is. -/
theorem becomes_advance (order : Order) (next : OrderStatus) :
    order.Becomes (order.advance next) := by
  unfold advance
  by_cases hactive : order.status = .active
  · rw [hactive, OrderStatus.advance_active]
    by_cases hnext : next = .active
    · rw [hnext, ← hactive]
      exact .same
    · exact .settled hactive hnext
  · rw [OrderStatus.advance_of_ne_active hactive]
    exact .same

end Order

namespace Offer

variable {accepts : String → Prop} {before between after : Offer}

/-- An offer is closed or accepted once, so two deeds are no more to it than
one. -/
theorem Becomes.trans (h : before.Becomes accepts between)
    (more : between.Becomes accepts after) : before.Becomes accepts after := by
  -- only an open offer moves, and it is not open afterwards
  cases h with
  | same => exact more
  | closed isOpen =>
      cases more with
      | same => exact .closed isOpen
      | closed again => cases again
      | accepted again _ => cases again
  | accepted isOpen hgranted =>
      cases more with
      | same => exact .accepted isOpen hgranted
      | closed again => cases again
      | accepted again _ => cases again

/-- An offer that some transactions may accept may be accepted by more of them.
-/
theorem Becomes.imp {others : String → Prop}
    (himp : ∀ txHash, accepts txHash → others txHash)
    (h : before.Becomes accepts after) : before.Becomes others after := by
  cases h with
  | same => exact .same
  | closed isOpen => exact .closed isOpen
  | accepted isOpen hgranted => exact .accepted isOpen (himp _ hgranted)

/-- An offer that is not open stays as it is. -/
theorem Becomes.eq_of_ne (h : before.Becomes accepts after)
    (hne : before.status ≠ .created) : after = before := by
  cases h with
  | same => rfl
  | closed isOpen => exact absurd isOpen hne
  | accepted isOpen _ => exact absurd isOpen hne

variable (offer : Offer)

/-- Closing does nothing to an offer that is not open. -/
theorem becomes_close : offer.Becomes accepts (offer.advance .closed) := by
  unfold advance
  by_cases hopen : offer.status = .created
  · rw [hopen, OfferStatus.advance_created]
    exact .closed hopen
  · rw [OfferStatus.advance_of_ne_created hopen]
    exact .same

/-- Neither does accepting; an open offer notes the transaction. -/
theorem becomes_accept {txHash : String} (hgranted : accepts txHash) :
    offer.Becomes accepts (offer.accept txHash) := by
  unfold accept
  split
  next hlegal =>
    have hopen : offer.status = .created := by
      simpa [Lifecycle.canBecome] using hlegal
    unfold advance
    rw [hopen, OfferStatus.advance_created]
    exact .accepted hopen hgranted
  next => exact .same

/-- A sweep closes an offer, or does nothing. -/
theorem becomes_sweep (now : Int) :
    offer.Becomes accepts (offer.sweep now) := by
  unfold sweep
  split
  · exact offer.becomes_close
  · exact .same

end Offer

-- ============================================================== one list

/-- Each record of the first list is at its place in the second, as what has
become of it; what is new stands behind. -/
def Continues {α : Type} (becomes : α → α → Prop) (before after : List α) :
    Prop :=
  ∀ (i : Nat) (a : α), before[i]? = some a →
    ∃ b, after[i]? = some b ∧ becomes a b

namespace Continues

variable {α : Type} {becomes : α → α → Prop} {before between after : List α}

theorem refl (h : ∀ a, becomes a a) (list : List α) :
    Continues becomes list list :=
  fun _ a ha => ⟨a, ha, h a⟩

/-- What has become of a record may become something else at the same place. -/
theorem trans (h : ∀ {a b c}, becomes a b → becomes b c → becomes a c)
    (first : Continues becomes before between)
    (second : Continues becomes between after) :
    Continues becomes before after := by
  intro i a ha
  obtain ⟨b, hb, hab⟩ := first i a ha
  obtain ⟨c, hc, hbc⟩ := second i b hb
  exact ⟨c, hc, h hab hbc⟩

theorem imp {others : α → α → Prop} (h : ∀ {a b}, becomes a b → others a b)
    (first : Continues becomes before after) :
    Continues others before after := by
  intro i a ha
  obtain ⟨b, hb, hab⟩ := first i a ha
  exact ⟨b, hb, h hab⟩

/-- A new record at the end leaves the others where they are. -/
theorem concat (h : ∀ a, becomes a a) (list : List α) (a : α) :
    Continues becomes list (list ++ [a]) := by
  intro i b hb
  obtain ⟨hlt, -⟩ := List.getElem?_eq_some_iff.1 hb
  refine ⟨b, ?_, h b⟩
  rw [List.getElem?_append_left hlt]
  exact hb

/-- Every record may change in place, each in its own way. -/
theorem of_getElem? (change : Nat → α → α)
    (hafter : ∀ i, after[i]? = before[i]?.map (change i))
    (h : ∀ i a, becomes a (change i a)) : Continues becomes before after := by
  intro i a ha
  refine ⟨change i a, ?_, h i a⟩
  rw [hafter, ha]
  rfl

/-- One record may change in place. -/
theorem modify (hrefl : ∀ a, becomes a a) {change : α → α}
    (h : ∀ a, becomes a (change a)) (list : List α) (index : Nat) :
    Continues becomes list (list.modify index change) := by
  refine of_getElem? (fun i a => if index = i then change a else a)
    (fun i => List.getElem?_modify ..) fun i a => ?_
  split
  · exact h a
  · exact hrefl a

/-- All records may change in place, in one way. -/
theorem map {change : α → α} (h : ∀ a, becomes a (change a))
    (list : List α) : Continues becomes list (list.map change) :=
  of_getElem? (fun _ => change) (fun _ => List.getElem?_map) fun _ => h

/-- All records may change in place, each by its place. -/
theorem mapIdx {change : Nat → α → α} (h : ∀ i a, becomes a (change i a))
    (list : List α) : Continues becomes list (list.mapIdx change) :=
  of_getElem? change (fun _ => List.getElem?_mapIdx) h

end Continues

namespace Book

-- ========================================================== a whole book

/-- What may become of a book, given whether tags may be filled in, and the
transactions that may accept its offers. -/
structure Becomes (filled : Prop) (accepts : String → Prop)
    (before after : Book) : Prop where
  marketplace : after.marketplace = before.marketplace
  auctions : Continues (Auction.Becomes filled) before.auctions after.auctions
  orders : Continues Order.Becomes before.orders after.orders
  offers : Continues (Offer.Becomes accepts) before.offers after.offers

variable {filled : Prop} {accepts : String → Prop}

namespace Becomes

variable {before between after : Book}

theorem refl (filled : Prop) (accepts : String → Prop) (book : Book) :
    book.Becomes filled accepts book :=
  ⟨rfl, .refl (Auction.Becomes.refl filled) _, .refl (fun _ => .same) _,
    .refl (fun _ => .same) _⟩

/-- Of two deeds in a row it can be said record by record what may become of a
book. -/
theorem trans (h : before.Becomes filled accepts between)
    (more : between.Becomes filled accepts after) :
    before.Becomes filled accepts after :=
  ⟨more.marketplace.trans h.marketplace,
    h.auctions.trans Auction.Becomes.trans more.auctions,
    h.orders.trans Order.Becomes.trans more.orders,
    h.offers.trans Offer.Becomes.trans more.offers⟩

/-- Neither leave to fill in tags nor to accept offers forbids anything. -/
theorem imp {also : Prop} {others : String → Prop} (hfilled : filled → also)
    (haccepts : ∀ txHash, accepts txHash → others txHash)
    (h : before.Becomes filled accepts after) :
    before.Becomes also others after :=
  ⟨h.marketplace, h.auctions.imp (.imp hfilled), h.orders,
    h.offers.imp (.imp haccepts)⟩

end Becomes

variable (book : Book)

theorem becomes_addAuction (auction : Auction) :
    book.Becomes filled accepts (book.addAuction auction) :=
  { Becomes.refl filled accepts book with
    marketplace := rfl
    auctions := .concat (.refl filled) _ auction }

theorem becomes_addOrder (order : Order) :
    book.Becomes filled accepts (book.addOrder order) :=
  { Becomes.refl filled accepts book with
    marketplace := rfl
    orders := .concat (fun _ => .same) _ order }

theorem becomes_addOffer (offer : Offer) :
    book.Becomes filled accepts (book.addOffer offer) :=
  { Becomes.refl filled accepts book with
    marketplace := rfl
    offers := .concat (fun _ => .same) _ offer }

/-- A change of one auction has to be one that auctions go through. -/
theorem becomes_modifyAuction (index : Nat) {change : Auction → Auction}
    (h : ∀ auction, Auction.Becomes filled auction (change auction)) :
    book.Becomes filled accepts (book.modifyAuction index change) :=
  { Becomes.refl filled accepts book with
    marketplace := rfl
    auctions := .modify (.refl filled) h _ index }

/-- So has a change of one offer. -/
theorem becomes_modifyOffer (index : Nat) {change : Offer → Offer}
    (h : ∀ offer, Offer.Becomes accepts offer (change offer)) :
    book.Becomes filled accepts (book.modifyOffer index change) :=
  { Becomes.refl filled accepts book with
    marketplace := rfl
    offers := .modify (fun _ => .same) h _ index }

theorem becomes_advanceAuction (index : Nat) (next : AuctionStatus) :
    book.Becomes filled accepts (book.advanceAuction index next) :=
  book.becomes_modifyAuction index fun auction => auction.becomes_advance next

/-- Of the orders of an auction, those that stand may be settled. -/
theorem becomes_advanceOrders (auction : Nat) (next : OrderStatus) :
    book.Becomes filled accepts (book.advanceOrders auction next) := by
  refine { Becomes.refl filled accepts book with
    marketplace := rfl
    orders := .map (fun order => ?_) _ }
  split
  · exact order.becomes_advance next
  · exact .same

/-- A sweep asks for a status here and there. -/
theorem becomes_expire (now : Int) :
    book.Becomes filled accepts (book.expire now) :=
  { Becomes.refl filled accepts book with
    marketplace := rfl
    auctions := .mapIdx (fun _ auction => auction.becomes_sweep now _) _
    offers := .map (fun offer => offer.becomes_sweep now) _ }

/-- Only this takes leave to fill in tags. -/
theorem becomes_fillTags (answers : List TokenTags) :
    book.Becomes True accepts (book.fillTags answers) :=
  { Becomes.refl True accepts book with
    marketplace := rfl
    auctions := .map (fun auction => auction.becomes_fillTags answers) _ }

-- ========================================================= the actions

variable (summary : ActionSummary) (payment : Payment)

/-- An auction is opened behind those that there are. -/
theorem becomes_openAuction :
    book.Becomes filled accepts (book.openAuction summary payment) := by
  unfold openAuction
  split
  · split
    · exact .refl filled accepts book
    · exact book.becomes_addAuction _
  · exact .refl filled accepts book

/-- The end settles the standing bid, and may name another token of payment. -/
theorem becomes_endAuction :
    book.Becomes filled accepts (book.endAuction summary payment) := by
  unfold endAuction
  split
  · split
    · refine .trans (book.becomes_modifyAuction _ fun auction => ?_)
        (becomes_advanceOrders _ _ _)
      exact (auction.becomes_advance .ended).trans
        (Auction.becomes_payInNamed _ summary payment)
    · exact .refl filled accepts book
  · exact .refl filled accepts book

theorem becomes_closeAuction :
    book.Becomes filled accepts (book.closeAuction summary) := by
  unfold closeAuction
  split
  · exact book.becomes_advanceAuction _ _
  · exact .refl filled accepts book

/-- A new price comes with its token of payment. -/
theorem becomes_repriceAuction :
    book.Becomes filled accepts (book.repriceAuction summary payment) := by
  unfold repriceAuction
  split
  · refine book.becomes_modifyAuction _ fun auction => ?_
    exact (auction.becomes_payInNamed summary payment).trans
      (Auction.becomes_reprice _ _ _)
  · exact .refl filled accepts book

theorem becomes_updateAuction :
    book.Becomes filled accepts (book.updateAuction summary payment) := by
  unfold updateAuction
  split
  · refine book.becomes_modifyAuction _ fun auction => ?_
    exact (auction.becomes_payInNamed summary payment).trans
      (Auction.becomes_revise _ _ _)
  · exact .refl filled accepts book

/-- A bid outbids the one that stands, and ends the auction if it reaches the
most that is asked. -/
theorem becomes_placeBid :
    book.Becomes filled accepts (book.placeBid summary payment) := by
  unfold placeBid
  split
  · split
    · exact .refl filled accepts book
    · dsimp only
      split
      · exact ((book.becomes_advanceOrders _ _).trans
          (becomes_addOrder _ _)).trans (becomes_advanceAuction _ _ _)
      · exact (book.becomes_advanceOrders _ _).trans (becomes_addOrder _ _)
  · exact .refl filled accepts book

/-- A purchase adds an order, and ends the auction if that was the last of the
lot. -/
theorem becomes_buyTokens :
    book.Becomes filled accepts (book.buyTokens summary payment) := by
  unfold buyTokens
  split
  · split
    · exact .refl filled accepts book
    · dsimp only
      split
      · exact ((book.becomes_addOrder _).trans
          (becomes_advanceOrders _ _ _)).trans (becomes_advanceAuction _ _ _)
      · exact book.becomes_addOrder _
  · exact .refl filled accepts book

theorem becomes_makeOffer :
    book.Becomes filled accepts (book.makeOffer summary payment) := by
  unfold makeOffer
  split
  · split
    · exact .refl filled accepts book
    · exact book.becomes_addOffer _
  · exact .refl filled accepts book

variable {summary} in
/-- An offer is taken, and the listing that goes with it is closed. -/
theorem becomes_accept_closeAuction (h : accepts summary.txHash)
    (index : Nat) :
    book.Becomes filled accepts
      ((book.modifyOffer index (·.accept summary.txHash)).closeAuction
        summary) :=
  .trans (book.becomes_modifyOffer index fun offer => offer.becomes_accept h)
    (becomes_closeAuction _ summary)

variable {summary} in
/-- An offer is accepted under the transaction of the action, or not at all. -/
theorem becomes_acceptOffer (h : accepts summary.txHash) :
    book.Becomes filled accepts (book.acceptOffer summary) := by
  unfold acceptOffer
  split
  · split
    · exact book.becomes_accept_closeAuction h _
    · exact .refl filled accepts book
  · exact .refl filled accepts book

/-- An offer that is taken back is closed. -/
theorem becomes_withdrawOffer :
    book.Becomes filled accepts (book.withdrawOffer summary) := by
  unfold withdrawOffer
  split
  · split
    · exact book.becomes_modifyOffer _ fun offer => offer.becomes_close
    · exact .refl filled accepts book
  · exact .refl filled accepts book

variable {summary} in
/-- So it is with an offer made to everyone, where there is one to accept. -/
theorem becomes_acceptGlobalOffer (h : accepts summary.txHash) :
    book.Becomes filled accepts (book.acceptGlobalOffer summary) := by
  unfold acceptGlobalOffer
  split
  · split
    · exact .refl filled accepts book
    · exact book.becomes_accept_closeAuction h _
    · exact book.becomes_closeAuction summary
  · exact .refl filled accepts book

end Book

/-- Whatever its kind, an action fills in no tags, and accepts offers under its
own transaction only. -/
theorem Handler.becomes_apply (kind : ActionKind) (book : Book)
    (summary : ActionSummary) (payment : Payment) :
    book.Becomes False (· = summary.txHash)
      ((Handler.ofKind kind).apply book summary payment) := by
  unfold Handler.ofKind
  cases kind with
  | started => exact book.becomes_openAuction summary payment
  | bid => exact book.becomes_placeBid summary payment
  | bought => exact book.becomes_buyTokens summary payment
  | ended => exact book.becomes_endAuction summary payment
  | closed => exact book.becomes_closeAuction summary
  | repriced => exact book.becomes_repriceAuction summary payment
  | updated => exact book.becomes_updateAuction summary payment
  | offerCreated => exact book.becomes_makeOffer summary payment
  | offerAccepted => exact book.becomes_acceptOffer rfl
  | offerClosed => exact book.becomes_withdrawOffer summary
  | globalOfferAccepted => exact book.becomes_acceptGlobalOffer rfl

namespace Book

-- ========================================================== a history

/-- Some of the deeds fill in tags. -/
def Deed.Fill (deeds : List Deed) : Prop :=
  ∃ answers, fill answers ∈ deeds

/-- An action of this transaction is dispatched by some of the deeds. -/
def Deed.Transact (deeds : List Deed) (txHash : String) : Prop :=
  ∃ summary payment, dispatch summary payment ∈ deeds ∧ summary.txHash = txHash

def Deed.isDispatch : Deed → Bool
  | dispatch _ _ => true
  | _ => false

variable {marketplace : Marketplace} {book next last : Book} {deed : Deed}
  {deeds : List Deed}

/-- What holds before some deeds, and is kept by each of them, holds after
them. -/
theorem performs_induction {motive : List Deed → Book → Prop}
    (nil : motive [] book)
    (concat : ∀ {past : List Deed} {reached next : Book} {deed : Deed},
      past.foldlM perform book = .ok reached → motive past reached →
        reached.perform deed = .ok next → motive (past ++ [deed]) next)
    (h : deeds.foldlM perform book = .ok last) : motive deeds last := by
  -- the deeds are done from the front, so those to come are inducted on
  have hall : ∀ (more past : List Deed) (reached : Book),
      past.foldlM perform book = .ok reached → motive past reached →
        more.foldlM perform reached = .ok last → motive (past ++ more) last := by
    intro more
    induction more with
    | nil =>
        intro past reached _ hmotive hlast
        cases hlast
        rwa [List.append_nil]
    | cons deed more ih =>
        intro past reached hpast hmotive hlast
        rw [List.foldlM_cons] at hlast
        cases hnext : reached.perform deed with
        | error error => rw [hnext] at hlast; cases hlast
        | ok next =>
            rw [hnext] at hlast
            rw [List.append_cons]
            refine ih _ next ?_ (concat hpast hmotive hnext) hlast
            rw [List.foldlM_append, hpast]
            show [deed].foldlM perform reached = .ok next
            rw [List.foldlM_cons, hnext]
            rfl
  exact hall deeds [] book rfl nil h

/-- What a deed makes of a book is what may become of it under this one deed.
-/
theorem becomes_perform (h : book.perform deed = .ok next) :
    book.Becomes (Deed.Fill [deed]) (Deed.Transact [deed]) next := by
  cases deed with
  | dispatch summary payment =>
      rw [Registry.builtIn_standard.dispatch_eq h]
      refine (Handler.becomes_apply summary.kind book summary payment).imp
        False.elim ?_
      rintro txHash rfl
      exact ⟨summary, payment, List.mem_singleton_self _, rfl⟩
  | sweep now =>
      cases h
      exact book.becomes_expire now
  | fill answers =>
      cases h
      exact (book.becomes_fillTags answers).imp
        (fun _ => ⟨answers, List.mem_singleton_self _⟩) fun _ h => h

/-- Among more deeds there is at least as much leave. -/
theorem Becomes.of_subset {part all : List Deed} (h : part ⊆ all)
    (hbook : book.Becomes (Deed.Fill part) (Deed.Transact part) next) :
    book.Becomes (Deed.Fill all) (Deed.Transact all) next :=
  hbook.imp (fun ⟨answers, hmem⟩ => ⟨answers, h hmem⟩)
    fun _ ⟨summary, payment, hmem, heq⟩ => ⟨summary, payment, h hmem, heq⟩

/-- What a history makes of a book is what may become of it under its deeds. -/
theorem becomes_performs (h : deeds.foldlM perform book = .ok last) :
    book.Becomes (Deed.Fill deeds) (Deed.Transact deeds) last := by
  refine performs_induction (motive := fun past reached =>
    book.Becomes (Deed.Fill past) (Deed.Transact past) reached)
    (.refl _ _ book) ?_ h
  intro past reached next deed _ hpast hnext
  have hlast := becomes_perform hnext
  exact (hpast.of_subset (List.subset_append_left past [deed])).trans
    (hlast.of_subset (List.subset_append_right past [deed]))

/-- How many records a book holds. -/
def size (book : Book) : Nat :=
  book.auctions.length + book.orders.length + book.offers.length

/-- The roster tells how many records there are. -/
theorem size_roster (book : Book) :
    book.size = book.roster.auctions.length + book.roster.orders.length
      + book.roster.offers.length := by
  simp [size, roster]

/-- Only a dispatch adds a record, and it adds one at most. -/
theorem size_perform_le (h : book.perform deed = .ok next) :
    next.size ≤ book.size + [deed].countP Deed.isDispatch := by
  rw [size_roster, size_roster]
  cases deed with
  | dispatch summary payment =>
      rw [Registry.builtIn_standard.roster_dispatch h]
      have hstep := book.roster.step_take book.marketplace.lookup summary
      generalize book.roster.take book.marketplace.lookup summary = after
        at hstep
      cases hstep <;>
        simp [Roster.addAuction, Roster.addOrder, Roster.addOffer,
          Deed.isDispatch]
      all_goals omega
  | sweep now =>
      cases h
      rw [roster_expire]
      exact Nat.le_add_right _ _
  | fill answers =>
      cases h
      rw [roster_fillTags]
      exact Nat.le_add_right _ _

/-- A history adds one record at most with each dispatch. -/
theorem size_performs_le (h : deeds.foldlM perform book = .ok last) :
    last.size ≤ book.size + deeds.countP Deed.isDispatch := by
  refine performs_induction (motive := fun past reached =>
    reached.size ≤ book.size + past.countP Deed.isDispatch)
    (Nat.le_add_right _ _) ?_ h
  intro past reached next deed _ hpast hnext
  have hlast := size_perform_le hnext
  rw [List.countP_append]
  omega

-- ========================================================= acceptances

/-- Only the making of an offer adds one. -/
theorem offers_take {roster : Roster} {lookup : Lookup}
    {summary : ActionSummary}
    (h : ∀ made, summary.action ≠ .offerCreated made) :
    (roster.take lookup summary).offers = roster.offers := by
  have horder : (roster.takeOrder lookup summary).offers = roster.offers := by
    unfold Roster.takeOrder
    split
    · rfl
    · split <;> rfl
  unfold Roster.take
  split
  · split <;> rfl
  · exact horder
  · exact horder
  next made haction => exact absurd haction (h made)
  · rfl

/-- Making an offer adds it behind the others, or does nothing. -/
theorem offers_makeOffer (book : Book) (summary : ActionSummary)
    (payment : Payment) :
    (book.makeOffer summary payment).offers = book.offers
      ∨ ∃ made, (book.makeOffer summary payment).offers
        = book.offers ++ [.ofMade summary made payment] := by
  unfold makeOffer
  split
  next made _ =>
    split
    · exact .inl rfl
    · exact .inr ⟨made, rfl⟩
  next => exact .inl rfl

/-- A deed leaves the number of offers alone, or makes one more. -/
theorem offers_perform (h : book.perform deed = .ok next) :
    next.offers.length = book.offers.length
      ∨ ∃ summary made payment,
        next.offers = book.offers ++ [.ofMade summary made payment] := by
  have hlength : next.roster.offers = book.roster.offers →
      next.offers.length = book.offers.length := by
    intro heq
    simpa [roster] using congrArg List.length heq
  cases deed with
  | sweep now =>
      cases h
      exact .inl (hlength (by rw [roster_expire]))
  | fill answers =>
      cases h
      exact .inl (hlength (by rw [roster_fillTags]))
  | dispatch summary payment =>
      cases haction : summary.action with
      | offerCreated made =>
          have hnext : next = book.makeOffer summary payment := by
            rw [Registry.builtIn_standard.dispatch_eq h, ActionSummary.kind,
              haction]
            rfl
          rw [hnext]
          rcases book.offers_makeOffer summary payment with hsame | ⟨made, hmade⟩
          · exact .inl (congrArg List.length hsame)
          · exact .inr ⟨summary, made, payment, hmade⟩
      | _ =>
          refine .inl (hlength ?_)
          rw [Registry.builtIn_standard.roster_dispatch h,
            offers_take (by simp [haction])]

/-- An offer is open when it is new. -/
theorem created_of_new (h : book.perform deed = .ok next) {i : Nat}
    {offer : Offer} (hnone : book.offers[i]? = none)
    (hoffer : next.offers[i]? = some offer) :
    offer.status = .created ∧ offer.acceptedTxHash = none := by
  rw [List.getElem?_eq_none_iff] at hnone
  rcases offers_perform h with hlength | ⟨summary, made, payment, hmade⟩
  · have := (List.getElem?_eq_some_iff.1 hoffer).1
    omega
  · rw [hmade, List.getElem?_append_right hnone] at hoffer
    rw [List.mem_singleton.1 (List.mem_of_getElem? hoffer)]
    exact ⟨rfl, rfl⟩

/-- One of the deeds is the dispatch of an action of this transaction that
found the offer at a place open and left it accepted. -/
def Acceptance (marketplace : Marketplace) (deeds : List Deed) (i : Nat)
    (txHash : String) : Prop :=
  ∃ (early late : List Deed) (summary : ActionSummary) (payment : Payment)
      (before next : Book) (isOpen taken : Offer),
    deeds = early ++ .dispatch summary payment :: late
      ∧ summary.txHash = txHash
      ∧ after marketplace early = .ok before
      ∧ before.offers[i]? = some isOpen ∧ isOpen.status = .created
      ∧ before.perform (.dispatch summary payment) = .ok next
      ∧ next.offers[i]? = some taken ∧ taken.status = .accepted

/-- What accepted an offer is still there after more deeds. -/
theorem Acceptance.append {i : Nat} {txHash : String}
    (h : Acceptance marketplace deeds i txHash) (more : List Deed) :
    Acceptance marketplace (deeds ++ more) i txHash := by
  obtain ⟨early, late, summary, payment, before, next, isOpen, taken, rfl,
    hrest⟩ := h
  exact ⟨early, late ++ more, summary, payment, before, next, isOpen, taken,
    by simp, hrest⟩

/-- An offer names a transaction exactly if it is accepted, and that
transaction accepted it. -/
theorem exists_acceptance (h : after marketplace deeds = .ok book) :
    ∀ (i : Nat) (offer : Offer), book.offers[i]? = some offer →
      (offer.acceptedTxHash.isSome ↔ offer.status = .accepted)
        ∧ ∀ txHash, offer.acceptedTxHash = some txHash →
          Acceptance marketplace deeds i txHash := by
  refine performs_induction (motive := fun past reached =>
    ∀ (i : Nat) (offer : Offer), reached.offers[i]? = some offer →
      (offer.acceptedTxHash.isSome ↔ offer.status = .accepted)
        ∧ ∀ txHash, offer.acceptedTxHash = some txHash →
          Acceptance marketplace past i txHash) ?_ ?_ h
  · intro i offer hoffer
    cases hoffer
  · intro past reached next deed hpast ih hnext i offer hoffer
    cases hold : reached.offers[i]? with
    | none =>
        obtain ⟨hopen, hnone⟩ := created_of_new hnext hold hoffer
        rw [hopen, hnone]
        exact ⟨by simp, nofun⟩
    | some old =>
        obtain ⟨hiff, haccepted⟩ := ih i old hold
        obtain ⟨_, hthere, hbecomes⟩ :=
          (becomes_perform hnext).offers i old hold
        rw [hoffer] at hthere
        cases hthere
        cases hbecomes with
        | same =>
            exact ⟨hiff, fun txHash htx => (haccepted txHash htx).append _⟩
        | closed isOpen =>
            -- an open offer names no transaction, so neither does a closed one
            rw [isOpen] at hiff
            refine ⟨by simpa using hiff, fun txHash htx => ?_⟩
            rw [show old.acceptedTxHash = some txHash from htx] at hiff
            simp at hiff
        | accepted isOpen granted =>
            refine ⟨by simp, fun txHash htx => ?_⟩
            cases htx
            obtain ⟨summary, payment, hmem, hsummary⟩ := granted
            obtain rfl := List.mem_singleton.1 hmem
            exact ⟨past, [], summary, payment, reached, next, old, _, rfl,
              hsummary, hpast, hold, isOpen, hnext, hoffer, rfl⟩

/-- Whatever was done to a book, and is done to it then. Every record that was
there is at its place, and is what may become of it: of an auction, only the
status, the payment, the price, the deadline and the tags change; the status
leaves `running` once, and tags come once, by a deed that fills them in. Of an
order only the status changes, and leaves `active` once. An offer stays as it
is, or is closed or accepted once. There is at most one more record for each
dispatch. An offer names a transaction exactly if it is accepted, and then an
action of that transaction accepted it. -/
theorem after_becomes (marketplace : Marketplace) (past more : List Deed) :
    ∃ book last, after marketplace past = .ok book
      ∧ after marketplace (past ++ more) = .ok last
      ∧ book.Becomes (Deed.Fill more) (Deed.Transact more) last
      ∧ last.size ≤ book.size + more.countP Deed.isDispatch
      ∧ ∀ (i : Nat) (offer : Offer), last.offers[i]? = some offer →
        (offer.acceptedTxHash.isSome ↔ offer.status = .accepted)
          ∧ ∀ txHash, offer.acceptedTxHash = some txHash →
            Acceptance marketplace (past ++ more) i txHash := by
  obtain ⟨book, hbook, hsound⟩ :=
    exists_performs (sound_empty marketplace) past
  obtain ⟨last, hmore, -⟩ := exists_performs hsound more
  have hlast : after marketplace (past ++ more) = .ok last := by
    unfold after
    rw [List.foldlM_append, hbook]
    exact hmore
  exact ⟨book, last, hbook, hlast, becomes_performs hmore,
    size_performs_le hmore, exists_acceptance hlast⟩

end Book

end MarketReplay
