/-
What an action leaves alone.

An action refers to one auction at most, which its marketplace finds by number
or by token, and an action on an offer refers to one offer, which is found by
its number or as the first that fits. `Book.Spares` compares a book with what
has become of it: of the records that were there only those of one auction,
with the orders on it, and some offers may be other than they were. Each way
to change a book spares what it is not pointed at, so an action spares all but
what it refers to (`Handler.spares_apply`), and where that is not there it
does nothing at all (`Handler.apply_of_lacks`).
-/
import MarketReplay.Proofs.Book.Locality

namespace MarketReplay

-- =========================================================== one list

/-- Each spared record of the first list is at its place in the second, as it
was. -/
def Keeps {α : Type} (spared : Nat → α → Prop) (before after : List α) :
    Prop :=
  ∀ (i : Nat) (a : α), before[i]? = some a → spared i a → after[i]? = some a

namespace Keeps

variable {α : Type} {spared : Nat → α → Prop} {before between after : List α}

theorem refl (spared : Nat → α → Prop) (list : List α) :
    Keeps spared list list :=
  fun _ _ ha _ => ha

/-- A record that two steps spare is spared by both together. -/
theorem trans (first : Keeps spared before between)
    (second : Keeps spared between after) : Keeps spared before after :=
  fun i a ha hspared => second i a (first i a ha hspared) hspared

/-- One more record at the end spares all others. -/
theorem concat (spared : Nat → α → Prop) (list : List α) (a : α) :
    Keeps spared list (list ++ [a]) := by
  intro i b hb _
  obtain ⟨hlt, -⟩ := List.getElem?_eq_some_iff.1 hb
  rwa [List.getElem?_append_left hlt]

/-- A change in place spares every other place. -/
theorem modify {index : Nat} (h : ∀ i a, spared i a → index ≠ i)
    (change : α → α) (list : List α) :
    Keeps spared list (list.modify index change) := by
  intro i a ha hspared
  rw [List.getElem?_modify, ha]
  exact congrArg some (if_neg (h i a hspared))

/-- A change of all records spares those that it does not change. -/
theorem map {change : α → α} (h : ∀ i a, spared i a → change a = a)
    (list : List α) : Keeps spared list (list.map change) := by
  intro i a ha hspared
  rw [List.getElem?_map, ha, Option.map_some, h i a hspared]

end Keeps

-- ======================================================= the whole book

namespace Book

/-- Of the records of a book only one auction, the orders on it and some
offers may be other than they were. -/
structure Spares (auction : Option Nat) (concerned : Nat → Prop)
    (before after : Book) : Prop where
  marketplace : after.marketplace = before.marketplace
  auctions :
    Keeps (fun i _ => auction ≠ some i) before.auctions after.auctions
  orders : Keeps (fun _ order => auction ≠ some order.auctionIndex)
    before.orders after.orders
  offers : Keeps (fun i _ => ¬ concerned i) before.offers after.offers

variable {auction : Option Nat} {concerned : Nat → Prop}

namespace Spares

variable {before between after : Book}

theorem refl (auction : Option Nat) (concerned : Nat → Prop)
    (book : Book) :
    book.Spares auction concerned book :=
  ⟨rfl, .refl _ _, .refl _ _, .refl _ _⟩

/-- Two steps with the same aim have this aim together. -/
theorem trans (first : before.Spares auction concerned between)
    (second : between.Spares auction concerned after) :
    before.Spares auction concerned after :=
  ⟨second.marketplace.trans first.marketplace,
    first.auctions.trans second.auctions, first.orders.trans second.orders,
    first.offers.trans second.offers⟩

end Spares

variable (book : Book)

/-- A new auction spares all records that there are; so do a new order and a
new offer. -/
theorem spares_addAuction (added : Auction) :
    book.Spares auction concerned (book.addAuction added) :=
  { Spares.refl auction concerned book with
    marketplace := rfl
    auctions := .concat _ _ added }

theorem spares_addOrder (order : Order) :
    book.Spares auction concerned (book.addOrder order) :=
  { Spares.refl auction concerned book with
    marketplace := rfl
    orders := .concat _ _ order }

theorem spares_addOffer (offer : Offer) :
    book.Spares auction concerned (book.addOffer offer) :=
  { Spares.refl auction concerned book with
    marketplace := rfl
    offers := .concat _ _ offer }

/-- A change of one auction spares the others. -/
theorem spares_modifyAuction {index : Nat} (h : auction = some index)
    (change : Auction → Auction) :
    book.Spares auction concerned (book.modifyAuction index change) :=
  { Spares.refl auction concerned book with
    marketplace := rfl
    auctions := .modify
      (fun _ _ hspared hi => hspared (h.trans (congrArg some hi))) change _ }

theorem spares_advanceAuction {index : Nat} (h : auction = some index)
    (next : AuctionStatus) :
    book.Spares auction concerned (book.advanceAuction index next) :=
  book.spares_modifyAuction h (·.advance next)

/-- The orders on the other auctions stay as they are. -/
theorem spares_advanceOrders {index : Nat} (h : auction = some index)
    (next : OrderStatus) :
    book.Spares auction concerned (book.advanceOrders index next) :=
  { Spares.refl auction concerned book with
    marketplace := rfl
    orders := by
      refine .map (fun _ order hspared => if_neg fun hindex => ?_) _
      exact hspared (h.trans (congrArg some hindex.symm)) }

/-- A change of one offer spares the others. -/
theorem spares_modifyOffer {index : Nat} (h : concerned index)
    (change : Offer → Offer) :
    book.Spares auction concerned (book.modifyOffer index change) :=
  { Spares.refl auction concerned book with
    marketplace := rfl
    offers := .modify (fun _ _ hspared hi => hspared (hi ▸ h)) change _ }

end Book

-- ============================================== what an action refers to

/-- An open offer for any token of the collection, by this owner and at this
price. -/
def Offer.Awaits (collection owner : String) (amount : Nat) (offer : Offer) :
    Prop :=
  offer.status = .created ∧ offer.nonce = 0 ∧ offer.collection = collection
    ∧ offer.owner = owner ∧ offer.priceAmount = amount

instance (collection owner : String) (amount : Nat) :
    DecidablePred (Offer.Awaits collection owner amount) :=
  fun _ => inferInstanceAs (Decidable (_ ∧ _))

/-- An offer fits what is brought if it awaits it. -/
theorem Offer.fits_iff {offer : Offer} {taken : GlobalOfferTaken} :
    offer.fits taken = true
      ↔ offer.Awaits taken.collection taken.offerOwner taken.amount := by
  unfold fits Awaits
  simp only [Bool.and_eq_true, beq_iff_eq, and_assoc]

namespace Book

/-- The offer at this position is the one that the action is about: it has the
number that the action names, or it is the first that awaits what the action
brings. -/
def Concerned (book : Book) (summary : ActionSummary) (i : Nat) : Prop :=
  match summary.action with
  | .offerAccepted taken => ∃ offer, book.offers[i]? = some offer
      ∧ offer.marketplaceOfferId = taken.offerId
  | .offerClosed withdrawn => ∃ offer, book.offers[i]? = some offer
      ∧ offer.marketplaceOfferId = withdrawn.offerId
  | .globalOfferAccepted taken =>
      (∃ offer, book.offers[i]? = some offer
        ∧ offer.Awaits taken.collection taken.offerOwner taken.amount)
      ∧ ∀ j < i, ∀ offer, book.offers[j]? = some offer →
        ¬ offer.Awaits taken.collection taken.offerOwner taken.amount
  | _ => False

/-- What the action refers to is not in the book. A creation refers to
nothing; an offer that is named has to be there itself, and the auction beside
it does not help; an offer that is not named or its auction has to be. -/
def Lacks (book : Book) (summary : ActionSummary) : Prop :=
  match summary.action with
  | .started _ | .offerCreated _ => False
  | .offerAccepted taken =>
      ∀ offer ∈ book.offers, offer.marketplaceOfferId ≠ taken.offerId
  | .offerClosed withdrawn =>
      ∀ offer ∈ book.offers, offer.marketplaceOfferId ≠ withdrawn.offerId
  | .globalOfferAccepted taken =>
      (∀ offer ∈ book.offers,
        ¬ offer.Awaits taken.collection taken.offerOwner taken.amount)
      ∧ book.auctionIndexFor? summary = none
  | _ => book.auctionIndexFor? summary = none

variable {book : Book} {summary : ActionSummary}

/-- The offer that a global acceptance finds is the first that awaits it. -/
theorem concerned_of_findIdx? {taken : GlobalOfferTaken} {i : Nat}
    (haction : summary.action = .globalOfferAccepted taken)
    (hfound : book.offers.findIdx? (·.fits taken) = some i) :
    book.Concerned summary i := by
  obtain ⟨hlt, hfits, hearlier⟩ := List.findIdx?_eq_some_iff_getElem.1 hfound
  unfold Concerned
  rw [haction]
  refine ⟨⟨_, List.getElem?_eq_getElem hlt, Offer.fits_iff.1 hfits⟩, ?_⟩
  intro j hj offer hoffer hawaits
  obtain ⟨hj', rfl⟩ := List.getElem?_eq_some_iff.1 hoffer
  exact hearlier j hj (Offer.fits_iff.2 hawaits)

/-- Where nobody awaits what is brought, no offer fits. -/
theorem findIdx?_of_lacking {taken : GlobalOfferTaken}
    (h : ∀ offer ∈ book.offers,
      ¬ offer.Awaits taken.collection taken.offerOwner taken.amount) :
    book.offers.findIdx? (·.fits taken) = none := by
  rw [List.findIdx?_eq_none_iff]
  intro offer hmem
  rw [Bool.eq_false_iff]
  exact fun hfits => h offer hmem (Offer.fits_iff.1 hfits)

/-- A number that no offer has is not in the index. -/
theorem Filed.offerIndex?_eq_none (h : book.Filed) {number : Nat}
    (hunknown : ∀ offer ∈ book.offers, offer.marketplaceOfferId ≠ number) :
    book.offerIndex? number = none := by
  rw [Option.eq_none_iff_forall_ne_some]
  intro i hi
  obtain ⟨offer, hoffer, hnumber⟩ := (h.offerIndex? number i).1 hi
  exact hunknown offer (List.mem_of_getElem? hoffer) hnumber

-- ========================================================= the actions

variable {payment : Payment}

/-- An opening changes no record that there is. -/
theorem spares_openAuction :
    book.Spares auction concerned (book.openAuction summary payment) := by
  unfold openAuction
  split
  · split
    · exact .refl _ _ _
    · exact book.spares_addAuction _
  · exact .refl _ _ _

/-- A bid is on the auction that its action finds, and nowhere else. -/
theorem spares_placeBid :
    book.Spares (book.auctionIndexFor? summary) concerned
      (book.placeBid summary payment) := by
  unfold placeBid
  split
  next bid index found _ hfound =>
    have hindex := ((auctionFor?_eq_some_iff ..).1 hfound).1
    split
    · exact .refl _ _ _
    · have houtbid : book.Spares _ concerned _ :=
        book.spares_advanceOrders hindex .outbid
      split
      · apply (houtbid.trans (spares_addOrder _ _)).trans
        exact spares_advanceAuction _ hindex .ended
      · exact houtbid.trans (spares_addOrder _ _)
  next => exact .refl _ _ _

/-- A purchase is on the auction that its action finds, and nowhere else. -/
theorem spares_buyTokens :
    book.Spares (book.auctionIndexFor? summary) concerned
      (book.buyTokens summary payment) := by
  unfold buyTokens
  split
  next purchase index found _ hfound =>
    have hindex := ((auctionFor?_eq_some_iff ..).1 hfound).1
    split
    · exact .refl _ _ _
    · dsimp only
      split
      · apply ((book.spares_addOrder _).trans
          (spares_advanceOrders _ hindex .outbid)).trans
        exact spares_advanceAuction _ hindex .ended
      · exact book.spares_addOrder _
  next => exact .refl _ _ _

/-- An end is that of the auction that its action finds. -/
theorem spares_endAuction :
    book.Spares (book.auctionIndexFor? summary) concerned
      (book.endAuction summary payment) := by
  unfold endAuction
  split
  next index found hfound =>
    have hindex := ((auctionFor?_eq_some_iff ..).1 hfound).1
    split
    · apply (book.spares_modifyAuction hindex _).trans
      exact spares_advanceOrders _ hindex .bought
    · exact .refl _ _ _
  next => exact .refl _ _ _

/-- A change of the auction found spares the others. -/
theorem spares_changeFound (change : Auction → Auction) :
    book.Spares (book.auctionIndexFor? summary) concerned
      (book.changeFound summary change) := by
  unfold changeFound
  split
  next index hindex => exact book.spares_modifyAuction hindex change
  next => exact .refl _ _ _

theorem spares_closeAuction :
    book.Spares (book.auctionIndexFor? summary) concerned
      (book.closeAuction summary) :=
  spares_changeFound (·.advance .closed)

/-- Making an offer changes no record that there is. -/
theorem spares_makeOffer :
    book.Spares auction concerned (book.makeOffer summary payment) := by
  unfold makeOffer
  split
  · split
    · exact .refl _ _ _
    · exact book.spares_addOffer _
  · exact .refl _ _ _

/-- Changing an offer does not move the auction that the action finds. -/
theorem spares_settle {index : Nat} (h : concerned index)
    (change : Offer → Offer) :
    book.Spares (book.auctionIndexFor? summary) concerned
      ((book.modifyOffer index change).closeAuction summary) := by
  let changed := book.modifyOffer index change
  have hclosed : changed.Spares (changed.auctionIndexFor? summary) concerned
      (changed.closeAuction summary) := spares_closeAuction
  exact (book.spares_modifyOffer h change).trans hclosed

/-- An acceptance touches its offer, and the listing that it closes. -/
theorem spares_acceptOffer (h : book.Filed) :
    book.Spares (book.auctionIndexFor? summary) (book.Concerned summary)
      (book.acceptOffer summary) := by
  unfold acceptOffer
  split
  next taken haction =>
    split
    next index hindex =>
      apply spares_settle
      unfold Concerned
      rw [haction]
      exact (h.offerIndex? _ index).1 hindex
    next => exact .refl _ _ _
  next => exact .refl _ _ _

/-- Taking an offer back touches that offer. -/
theorem spares_withdrawOffer (h : book.Filed) :
    book.Spares auction (book.Concerned summary)
      (book.withdrawOffer summary) := by
  unfold withdrawOffer
  split
  next withdrawn haction =>
    split
    next index hindex =>
      apply book.spares_modifyOffer
      unfold Concerned
      rw [haction]
      exact (h.offerIndex? _ index).1 hindex
    next => exact .refl _ _ _
  next => exact .refl _ _ _

/-- An acceptance of an offer to everyone touches the first that fits, and the
listing that it closes. -/
theorem spares_acceptGlobalOffer :
    book.Spares (book.auctionIndexFor? summary) (book.Concerned summary)
      (book.acceptGlobalOffer summary) := by
  unfold acceptGlobalOffer
  split
  next taken haction =>
    split
    · exact .refl _ _ _
    next index _ hfound =>
      exact spares_settle (concerned_of_findIdx? haction hfound) _
    next => exact spares_closeAuction
  next => exact .refl _ _ _

end Book

/-- An action spares every record but what it refers to. -/
theorem Handler.spares_apply {book : Book} (h : book.Filed)
    (summary : ActionSummary) (payment : Payment) :
    book.Spares (book.auctionIndexFor? summary) (book.Concerned summary)
      ((ofKind summary.kind).apply book summary payment) := by
  unfold ofKind ActionSummary.kind
  cases haction : summary.action with
  | started opening => exact Book.spares_openAuction
  | bid bid => exact Book.spares_placeBid
  | bought purchase => exact Book.spares_buyTokens
  | ended ending => exact Book.spares_endAuction
  | closed withdrawal => exact Book.spares_closeAuction
  | repriced repricing =>
      show book.Spares _ _ (book.repriceAuction summary payment)
      rw [Book.repriceAuction_eq haction]
      exact Book.spares_changeFound _
  | updated revision =>
      show book.Spares _ _ (book.updateAuction summary payment)
      rw [Book.updateAuction_eq haction]
      exact Book.spares_changeFound _
  | offerCreated made => exact Book.spares_makeOffer
  | offerAccepted taken => exact Book.spares_acceptOffer h
  | offerClosed withdrawn => exact Book.spares_withdrawOffer h
  | globalOfferAccepted taken => exact Book.spares_acceptGlobalOffer

/-- An action whose auction or offer is not there does nothing. -/
theorem Handler.apply_of_lacks {book : Book} (h : book.Filed)
    {summary : ActionSummary} (hlacks : book.Lacks summary)
    (payment : Payment) :
    (ofKind summary.kind).apply book summary payment = book := by
  unfold Book.Lacks at hlacks
  unfold ofKind ActionSummary.kind
  cases haction : summary.action <;> rw [haction] at hlacks
  case bid bid => exact Book.placeBid_of_unknown hlacks
  case bought purchase => exact Book.buyTokens_of_unknown hlacks
  case ended ending => exact Book.endAuction_of_unknown hlacks
  case closed withdrawal => exact Book.closeAuction_of_unknown hlacks
  case repriced repricing => exact Book.repriceAuction_of_unknown hlacks
  case updated revision => exact Book.updateAuction_of_unknown hlacks
  case offerAccepted taken =>
    show book.acceptOffer summary = book
    unfold Book.acceptOffer
    rw [haction]
    dsimp only
    rw [h.offerIndex?_eq_none hlacks]
  case offerClosed withdrawn =>
    show book.withdrawOffer summary = book
    unfold Book.withdrawOffer
    rw [haction]
    dsimp only
    rw [h.offerIndex?_eq_none hlacks]
  case globalOfferAccepted taken =>
    show book.acceptGlobalOffer summary = book
    unfold Book.acceptGlobalOffer
    rw [haction]
    dsimp only
    rw [Book.findIdx?_of_lacking hlacks.1]
    -- with or without a transaction of that hash, only the listing is left
    cases book.offerAcceptedBy? summary.txHash with
    | some index => rfl
    | none => exact Book.closeAuction_of_unknown hlacks.2
  all_goals exact hlacks.elim

/-- In whatever has been done to a fresh book, however its marketplace finds
its auctions, an action changes no record but those it refers to, and none at
all if what it refers to is not there. -/
theorem Book.dispatch_spares (marketplace : Marketplace) (past : List Deed)
    (summary : ActionSummary) (payment : Payment) :
    ∃ book next, after marketplace past = .ok book
      ∧ Registry.standard.dispatch book summary payment = .ok next
      ∧ book.Spares (book.auctionIndexFor? summary) (book.Concerned summary)
        next
      ∧ (book.Lacks summary → next = book) := by
  obtain ⟨book, hafter, hsound⟩ :=
    exists_performs (sound_empty marketplace) past
  have hfiled := filed_of_sound hsound
  exact ⟨book, _, hafter, Registry.dispatch_standard book summary payment,
    Handler.spares_apply hfiled summary payment,
    fun hlacks => Handler.apply_of_lacks hfiled hlacks payment⟩

end MarketReplay
