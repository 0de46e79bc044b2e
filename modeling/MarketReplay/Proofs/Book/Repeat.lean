/-
An action that is dispatched again.

Every kind of action but two leaves a mark in the book by which a second
dispatch sees that it is the second: the number of the auction or of the offer
is filed, the transaction has its order on the auction, the auction runs no
more, the offer is open no more, the transaction has accepted an offer.
`Book.Done` says for each kind which mark that is. With the mark there, a
dispatch changes nothing, whatever is paid (`apply_of_done`), and a dispatch
leaves the mark behind (`done_apply`), also one that found nothing to do.

The two kinds that change a price leave no mark. They write the same into the
same columns again (`repriceAuction_again`, `updateAuction_again`), if they are
paid in the same token.
-/
import MarketReplay.Proofs.Book.Lifecycle

namespace MarketReplay

-- ==================================================== changes in place

/-- A change in place that changes nothing there. -/
theorem modify_eq_self {α : Type} {list : List α} {index : Nat}
    {change : α → α} (h : ∀ a, list[index]? = some a → change a = a) :
    list.modify index change = list := by
  refine List.ext_getElem? fun i => ?_
  rw [List.getElem?_modify]
  cases ha : list[i]? with
  | none => rfl
  | some a =>
      by_cases hi : index = i
      · subst hi
        simp [h a ha]
      · simp [hi]

namespace Auction

/-- An auction that is moved on does not run, whether it moves or not. -/
theorem status_advance_ne (auction : Auction) {next : AuctionStatus}
    (h : next ≠ .running) : (auction.advance next).status ≠ .running := by
  unfold advance
  by_cases hrunning : auction.status = .running
  · rwa [hrunning, AuctionStatus.advance_running]
  · rwa [AuctionStatus.advance_of_ne_running hrunning]

/-- An auction that does not run is not moved on. -/
theorem advance_eq_self {auction : Auction} (h : auction.status ≠ .running)
    (next : AuctionStatus) : auction.advance next = auction := by
  unfold advance
  rw [AuctionStatus.advance_of_ne_running h]

/-- The token of payment has no say in the status. -/
@[simp] theorem status_payInNamed (auction : Auction)
    (summary : ActionSummary) (payment : Payment) :
    (auction.payInNamed summary payment).status = auction.status := by
  unfold payInNamed
  split <;> rfl

/-- The same payment and the same price once more. -/
theorem reprice_payInNamed_again (auction : Auction) (summary : ActionSummary)
    (payment : Payment) (price decimals : Nat) :
    let change (auction : Auction) :=
      (auction.payInNamed summary payment).reprice price decimals
    change (change auction) = change auction := by
  intro change
  unfold change payInNamed reprice payIn
  by_cases hnamed : summary.paymentToken.isSome <;>
    by_cases hmax : auction.maxBid = 0 <;>
    by_cases hprice : price = 0 <;> simp [hnamed, hmax, hprice]

/-- The same payment and the same terms once more. -/
theorem revise_payInNamed_again (auction : Auction) (summary : ActionSummary)
    (payment : Payment) (revision : Revision) (decimals : Nat) :
    let change (auction : Auction) :=
      (auction.payInNamed summary payment).revise revision decimals
    change (change auction) = change auction := by
  intro change
  unfold change payInNamed revise reprice payIn
  cases revision.newPrice with
  | none =>
      cases revision.deadline <;>
        by_cases hnamed : summary.paymentToken.isSome <;> simp [hnamed]
  | some price =>
      cases revision.deadline <;>
        by_cases hnamed : summary.paymentToken.isSome <;>
        by_cases hmax : auction.maxBid = 0 <;>
        by_cases hprice : price = 0 <;> simp [hnamed, hmax, hprice]

end Auction

namespace Offer

/-- An offer that is moved on is not open, whether it moves or not. -/
theorem status_advance_ne (offer : Offer) {next : OfferStatus}
    (h : next ≠ .created) : (offer.advance next).status ≠ .created := by
  unfold advance
  by_cases hopen : offer.status = .created
  · rwa [hopen, OfferStatus.advance_created]
  · rwa [OfferStatus.advance_of_ne_created hopen]

/-- An offer that is not open is not moved on. -/
theorem advance_eq_self {offer : Offer} (h : offer.status ≠ .created)
    (next : OfferStatus) : offer.advance next = offer := by
  unfold advance
  rw [OfferStatus.advance_of_ne_created h]

/-- An open offer is accepted, and notes the transaction. -/
theorem accept_of_open {offer : Offer} (h : offer.status = .created)
    (txHash : String) :
    offer.accept txHash = { offer with
      status := .accepted, acceptedTxHash := some txHash } := by
  unfold accept advance
  rw [h]
  rfl

/-- An offer that is not open is not accepted. -/
theorem accept_eq_self {offer : Offer} (h : offer.status ≠ .created)
    (txHash : String) : offer.accept txHash = offer := by
  unfold accept
  rw [if_neg]
  simp [Lifecycle.canBecome, h]

/-- After an acceptance an offer is not open, whoever accepted it. -/
theorem status_accept_ne (offer : Offer) (txHash : String) :
    (offer.accept txHash).status ≠ .created := by
  by_cases hopen : offer.status = .created
  · rw [accept_of_open hopen]
    nofun
  · rwa [accept_eq_self hopen]

/-- Only an open offer fits. -/
theorem created_of_fits {offer : Offer} {taken : GlobalOfferTaken}
    (h : offer.fits taken = true) : offer.status = .created := by
  unfold fits at h
  simp only [Bool.and_eq_true] at h
  exact eq_of_beq h.1.1.1.1

end Offer

namespace Book

variable (book : Book) (summary : ActionSummary) (payment : Payment)

/-- An action finds the auction at the position that its listing leads to. -/
theorem auctionFor?_eq_some_iff {i : Nat} {auction : Auction} :
    book.auctionFor? summary = some (i, auction)
      ↔ book.auctionIndexFor? summary = some i
        ∧ book.auctions[i]? = some auction := by
  unfold auctionFor?
  cases book.auctionIndexFor? summary with
  | none => simp
  | some index =>
      cases hauction : book.auctions[index]? with
      | none =>
          simp only [Option.bind_eq_bind, Option.bind_some, hauction]
          refine ⟨nofun, ?_⟩
          rintro ⟨⟨⟩, hi⟩
          rw [hauction] at hi
          cases hi
      | some found =>
          simp only [Option.bind_eq_bind, Option.bind_some, hauction]
          constructor
          · rintro ⟨⟩
            exact ⟨rfl, hauction⟩
          · rintro ⟨⟨⟩, hi⟩
            rw [hauction] at hi
            cases hi
            rfl

/-- Which auction an action finds does not depend on what is written into
auctions. -/
theorem auctionFor?_modifyAuction (index : Nat) (change : Auction → Auction) :
    (book.modifyAuction index change).auctionFor? summary
      = (book.auctionFor? summary).map fun (i, auction) =>
        (i, if index = i then change auction else auction) := by
  unfold auctionFor?
  rw [show (book.modifyAuction index change).auctionIndexFor? summary
    = book.auctionIndexFor? summary from rfl]
  cases book.auctionIndexFor? summary with
  | none => rfl
  | some i =>
      simp only [modifyAuction, Option.bind_eq_bind, Option.bind_some,
        List.getElem?_modify]
      cases book.auctions[i]? <;> rfl

-- ============================================================ the marks

/-- The auction that an action refers to runs no more. -/
def AuctionSettled : Prop :=
  ∀ (i : Nat) (auction : Auction),
    book.auctionFor? summary = some (i, auction) → auction.status ≠ .running

/-- The transaction has its order on the auction that its action refers to. -/
def OrderPlaced : Prop :=
  ∀ (i : Nat) (auction : Auction),
    book.auctionFor? summary = some (i, auction) →
      book.hasOrder i summary.txHash = true

/-- The offer of a number is open no more. -/
def OfferSettled (offerId : Nat) : Prop :=
  ∀ (i : Nat) (offer : Offer), book.offerIndex? offerId = some i →
    book.offers[i]? = some offer → offer.status ≠ .created

/-- The book shows that there is nothing left to do for an action. -/
def Done : Prop :=
  match summary.action with
  | .started opening => book.auctionIndex? opening.auctionId ≠ none
  | .bid _ => book.OrderPlaced summary
  | .bought _ => book.OrderPlaced summary
  | .ended _ => book.AuctionSettled summary
  | .closed _ => book.AuctionSettled summary
  | .repriced _ => False
  | .updated _ => False
  | .offerCreated made => book.offerIndex? made.offerId ≠ none
  | .offerAccepted taken => book.OfferSettled taken.offerId
      ∧ (book.offerIndex? taken.offerId = none ∨ book.AuctionSettled summary)
  | .offerClosed withdrawn => book.OfferSettled withdrawn.offerId
  | .globalOfferAccepted taken => book.offerAcceptedBy? summary.txHash ≠ none
      ∨ book.offers.findIdx? (·.fits taken) = none ∧ book.AuctionSettled summary

variable {book summary}

-- ================================================== nothing left to do

/-- An auction with this number has been opened before. -/
theorem openAuction_of_filed {opening : Opening}
    (haction : summary.action = .started opening)
    (h : book.auctionIndex? opening.auctionId ≠ none) :
    book.openAuction summary payment = book := by
  obtain ⟨i, hi⟩ := Option.ne_none_iff_exists'.1 h
  unfold openAuction
  rw [haction]
  dsimp only
  rw [hi]

/-- The transaction has bid before. -/
theorem placeBid_of_placed (h : book.OrderPlaced summary) :
    book.placeBid summary payment = book := by
  unfold placeBid
  split
  next haction hfound => rw [if_pos (h _ _ hfound)]
  next => rfl

/-- The transaction has bought before. -/
theorem buyTokens_of_placed (h : book.OrderPlaced summary) :
    book.buyTokens summary payment = book := by
  unfold buyTokens
  split
  next haction hfound => rw [if_pos (h _ _ hfound)]
  next => rfl

/-- The auction has ended before. -/
theorem endAuction_of_settled (h : book.AuctionSettled summary) :
    book.endAuction summary payment = book := by
  unfold endAuction
  split
  next hfound =>
    rw [if_neg]
    simp [Lifecycle.canBecome, h _ _ hfound]
  next => rfl

/-- The listing has been closed before, or sold. -/
theorem closeAuction_of_settled (h : book.AuctionSettled summary) :
    book.closeAuction summary = book := by
  unfold closeAuction
  split
  next i hindex =>
    have hsame : book.auctions.modify i (·.advance .closed) = book.auctions :=
      modify_eq_self fun auction hauction => Auction.advance_eq_self
        (h i auction ((book.auctionFor?_eq_some_iff summary).2
          ⟨hindex, hauction⟩)) .closed
    unfold advanceAuction modifyAuction
    rw [hsame]
  next => rfl

/-- An offer with this number has been made before. -/
theorem makeOffer_of_filed {made : OfferMade}
    (haction : summary.action = .offerCreated made)
    (h : book.offerIndex? made.offerId ≠ none) :
    book.makeOffer summary payment = book := by
  obtain ⟨i, hi⟩ := Option.ne_none_iff_exists'.1 h
  unfold makeOffer
  rw [haction]
  dsimp only
  rw [hi]

/-- An offer that is settled is not changed by what only open offers do. -/
theorem modifyOffer_of_settled {offerId i : Nat} {change : Offer → Offer}
    (h : book.OfferSettled offerId) (hi : book.offerIndex? offerId = some i)
    (hchange : ∀ offer : Offer, offer.status ≠ .created →
      change offer = offer) : book.modifyOffer i change = book := by
  unfold modifyOffer
  rw [modify_eq_self fun offer hoffer => hchange offer (h i offer hi hoffer)]

/-- The offer is not open, and its listing does not run; or there is no such
offer. -/
theorem acceptOffer_of_settled {taken : OfferTaken}
    (haction : summary.action = .offerAccepted taken)
    (hoffer : book.OfferSettled taken.offerId)
    (hauction : book.offerIndex? taken.offerId = none
      ∨ book.AuctionSettled summary) : book.acceptOffer summary = book := by
  unfold acceptOffer
  rw [haction]
  dsimp only
  split
  next i hi =>
    rw [modifyOffer_of_settled hoffer hi fun offer hne =>
      Offer.accept_eq_self hne summary.txHash]
    refine closeAuction_of_settled (hauction.resolve_left ?_)
    rw [hi]
    nofun
  next => rfl

/-- The offer is not open. -/
theorem withdrawOffer_of_settled {withdrawn : OfferWithdrawn}
    (haction : summary.action = .offerClosed withdrawn)
    (h : book.OfferSettled withdrawn.offerId) :
    book.withdrawOffer summary = book := by
  unfold withdrawOffer
  rw [haction]
  dsimp only
  split
  next i hi =>
    exact modifyOffer_of_settled h hi fun offer hne =>
      Offer.advance_eq_self hne .closed
  next => rfl

/-- The transaction has accepted an offer before, or no offer fits and no
listing runs. -/
theorem acceptGlobalOffer_of_done {taken : GlobalOfferTaken}
    (haction : summary.action = .globalOfferAccepted taken)
    (h : book.offerAcceptedBy? summary.txHash ≠ none
      ∨ book.offers.findIdx? (·.fits taken) = none
        ∧ book.AuctionSettled summary) :
    book.acceptGlobalOffer summary = book := by
  unfold acceptGlobalOffer
  rw [haction]
  dsimp only
  rcases h with haccepted | ⟨hnone, hsettled⟩
  · obtain ⟨i, hi⟩ := Option.ne_none_iff_exists'.1 haccepted
    rw [hi]
  · rw [hnone]
    cases book.offerAcceptedBy? summary.txHash with
    | some i => rfl
    | none => exact closeAuction_of_settled hsettled

/-- With nothing left to do, a dispatch changes nothing. -/
theorem apply_of_done (h : book.Done summary) :
    (Handler.ofKind summary.kind).apply book summary payment = book := by
  unfold Handler.ofKind ActionSummary.kind
  unfold Done at h
  generalize haction : summary.action = action at h ⊢
  cases action with
  | started _ => exact openAuction_of_filed payment haction h
  | bid _ => exact placeBid_of_placed payment h
  | bought _ => exact buyTokens_of_placed payment h
  | ended _ => exact endAuction_of_settled payment h
  | closed _ => exact closeAuction_of_settled h
  | repriced _ => exact h.elim
  | updated _ => exact h.elim
  | offerCreated _ => exact makeOffer_of_filed payment haction h
  | offerAccepted _ => exact acceptOffer_of_settled haction h.1 h.2
  | offerClosed _ => exact withdrawOffer_of_settled haction h
  | globalOfferAccepted _ => exact acceptGlobalOffer_of_done haction h

-- =============================================== nothing left afterwards

variable (book summary)

/-- An opening leaves its number filed. -/
theorem auctionIndex?_openAuction {opening : Opening}
    (haction : summary.action = .started opening) :
    (book.openAuction summary payment).auctionIndex? opening.auctionId
      ≠ none := by
  unfold openAuction
  rw [haction]
  dsimp only
  split
  next i hi =>
    rw [hi]
    nofun
  next =>
    unfold auctionIndex? addAuction
    rw [Index.find?_file]
    simp [Auction.ofOpening]

/-- An offer that is made leaves its number filed. -/
theorem offerIndex?_makeOffer {made : OfferMade}
    (haction : summary.action = .offerCreated made) :
    (book.makeOffer summary payment).offerIndex? made.offerId ≠ none := by
  unfold makeOffer
  rw [haction]
  dsimp only
  split
  next i hi =>
    rw [hi]
    nofun
  next =>
    unfold offerIndex? addOffer
    rw [Index.find?_file]
    simp [Offer.ofMade]

/-- An auction that an action has moved on runs no more, wherever the action
is seen again. -/
theorem auctionSettled_modifyAuction {index : Nat} {change : Auction → Auction}
    (hindex : book.auctionIndexFor? summary = some index)
    (hchange : ∀ auction, (change auction).status ≠ .running) :
    (book.modifyAuction index change).AuctionSettled summary := by
  intro i auction hfound
  rw [auctionFor?_modifyAuction] at hfound
  obtain ⟨⟨j, before⟩, hbefore, heq⟩ := Option.map_eq_some_iff.1 hfound
  have hj := ((book.auctionFor?_eq_some_iff summary).1 hbefore).1
  obtain rfl : index = j := Option.some.inj (hindex.symm.trans hj)
  dsimp only at heq
  rw [if_pos rfl] at heq
  cases heq
  exact hchange before

/-- A listing that is closed does not run. -/
theorem auctionSettled_closeAuction :
    (book.closeAuction summary).AuctionSettled summary := by
  unfold closeAuction
  split
  next index hindex =>
    exact book.auctionSettled_modifyAuction summary hindex fun auction =>
      auction.status_advance_ne nofun
  next hnone =>
    intro i auction hfound
    have hindex := ((book.auctionFor?_eq_some_iff summary).1 hfound).1
    rw [hnone] at hindex
    cases hindex

/-- An auction that has ended does not run. -/
theorem auctionSettled_endAuction :
    (book.endAuction summary payment).AuctionSettled summary := by
  unfold endAuction
  split
  next index auction hfound =>
    have hindex := ((book.auctionFor?_eq_some_iff summary).1 hfound).1
    split
    next =>
      refine book.auctionSettled_modifyAuction summary hindex fun auction => ?_
      rw [Auction.status_payInNamed]
      exact auction.status_advance_ne nofun
    next hillegal =>
      -- it does not run, so it is left as it is
      intro i other hother
      rw [hfound] at hother
      cases hother
      simpa [Lifecycle.canBecome] using hillegal
  next hnone =>
    intro i auction hfound
    rw [hnone] at hfound
    cases hfound

/-- Orders have no part in which auction is found. -/
theorem auctionFor?_takeOrder (roster : Roster) (lookup : Lookup) :
    (roster.takeOrder lookup summary).auctionFor? lookup summary
      = roster.auctionFor? lookup summary := by
  unfold Roster.takeOrder
  split
  · rfl
  · split <;> rfl

variable {book summary} in
/-- An action that orders leaves its order behind, or finds it there. -/
theorem orderPlaced_of_takeOrder {next : Book}
    (hmarketplace : next.marketplace = book.marketplace)
    (hroster : next.roster
      = book.roster.takeOrder book.marketplace.lookup summary) :
    next.OrderPlaced summary := by
  intro i auction hfound
  have hthere : book.roster.auctionFor? book.marketplace.lookup summary
      = some i := by
    rw [← auctionFor?_takeOrder, ← hroster, ← hmarketplace,
      auctionFor?_roster, hfound]
    rfl
  rw [hasOrder_iff, hroster]
  unfold Roster.takeOrder
  rw [hthere]
  dsimp only
  split
  next hplaced => exact hplaced
  next => simp [Roster.addOrder, OrderName.place]

/-- Closing a listing leaves the offers alone. -/
theorem offers_closeAuction :
    (book.closeAuction summary).offers = book.offers := by
  unfold closeAuction
  split <;> rfl

/-- Closing a listing leaves the numbers of the offers alone. -/
theorem offerIndex?_closeAuction (offerId : Nat) :
    (book.closeAuction summary).offerIndex? offerId
      = book.offerIndex? offerId := by
  unfold closeAuction
  split <;> rfl

/-- A change after which no offer is open settles the offer that it is made
to. -/
theorem offerSettled_of_modify {next : Book} {offerId index : Nat}
    {change : Offer → Offer}
    (hfile : next.offerIndex? offerId = book.offerIndex? offerId)
    (hoffers : next.offers = book.offers.modify index change)
    (hindex : book.offerIndex? offerId = some index)
    (hchange : ∀ offer, (change offer).status ≠ .created) :
    next.OfferSettled offerId := by
  intro i offer hi hoffer
  obtain rfl : index = i := Option.some.inj (hindex.symm.trans (hfile ▸ hi))
  rw [hoffers, List.getElem?_modify_eq] at hoffer
  obtain ⟨before, -, rfl⟩ := Option.map_eq_some_iff.1 hoffer
  exact hchange before

variable {book} in
/-- An offer that is not found is settled, for all that is known of it. -/
theorem offerSettled_of_none {offerId : Nat}
    (h : book.offerIndex? offerId = none) : book.OfferSettled offerId := by
  intro i offer hi
  rw [h] at hi
  cases hi

/-- After an acceptance neither the offer nor its listing is open. -/
theorem settled_acceptOffer {taken : OfferTaken}
    (haction : summary.action = .offerAccepted taken) :
    (book.acceptOffer summary).OfferSettled taken.offerId
      ∧ ((book.acceptOffer summary).offerIndex? taken.offerId = none
        ∨ (book.acceptOffer summary).AuctionSettled summary) := by
  unfold acceptOffer
  rw [haction]
  dsimp only
  split
  next index hindex =>
    refine ⟨?_, .inr (auctionSettled_closeAuction _ summary)⟩
    refine book.offerSettled_of_modify ?_ ?_ hindex fun offer =>
      offer.status_accept_ne summary.txHash
    · exact offerIndex?_closeAuction _ summary taken.offerId
    · exact offers_closeAuction _ summary
  next hnone => exact ⟨offerSettled_of_none hnone, .inl hnone⟩

/-- An offer that is taken back is not open. -/
theorem offerSettled_withdrawOffer {withdrawn : OfferWithdrawn}
    (haction : summary.action = .offerClosed withdrawn) :
    (book.withdrawOffer summary).OfferSettled withdrawn.offerId := by
  unfold withdrawOffer
  rw [haction]
  dsimp only
  split
  next index hindex =>
    exact book.offerSettled_of_modify rfl rfl hindex fun offer =>
      offer.status_advance_ne nofun
  next hnone => exact offerSettled_of_none hnone

/-- An offer that fits is open, so a transaction that takes one is found by it
afterwards. -/
theorem offerAcceptedBy?_modifyOffer {taken : GlobalOfferTaken} {index : Nat}
    (hfits : book.offers.findIdx? (·.fits taken) = some index) :
    (book.modifyOffer index (·.accept summary.txHash)).offerAcceptedBy?
      summary.txHash ≠ none := by
  obtain ⟨hlt, hfit, -⟩ := List.findIdx?_eq_some_iff_getElem.1 hfits
  have haccepted := Offer.accept_of_open (Offer.created_of_fits hfit)
    summary.txHash
  have hmem : book.offers[index].accept summary.txHash
      ∈ (book.modifyOffer index (·.accept summary.txHash)).offers := by
    refine List.mem_of_getElem? (i := index) ?_
    rw [modifyOffer, List.getElem?_modify_eq, List.getElem?_eq_getElem hlt]
    rfl
  intro habsent
  have hnot := List.findIdx?_eq_none_iff.1 habsent _ hmem
  rw [haccepted] at hnot
  simp at hnot

/-- An acceptance of an offer to everyone leaves its transaction behind, or
there was nothing to accept and nothing to close. -/
theorem done_acceptGlobalOffer {taken : GlobalOfferTaken}
    (haction : summary.action = .globalOfferAccepted taken) :
    (book.acceptGlobalOffer summary).offerAcceptedBy? summary.txHash ≠ none
      ∨ (book.acceptGlobalOffer summary).offers.findIdx? (·.fits taken) = none
        ∧ (book.acceptGlobalOffer summary).AuctionSettled summary := by
  unfold acceptGlobalOffer
  rw [haction]
  dsimp only
  split
  next i hi =>
    left
    rw [hi]
    nofun
  next index hnone hfits =>
    left
    unfold offerAcceptedBy?
    rw [offers_closeAuction]
    exact book.offerAcceptedBy?_modifyOffer summary hfits
  next hnone hfits =>
    right
    rw [offers_closeAuction]
    exact ⟨hfits, book.auctionSettled_closeAuction summary⟩

/-- A price may be changed again; whatever else an action does, it leaves
nothing to do for itself. -/
theorem done_apply (hreprices : summary.kind ≠ .repriced)
    (hupdates : summary.kind ≠ .updated) :
    ((Handler.ofKind summary.kind).apply book summary payment).Done
      summary := by
  have hmarketplace := (Handler.becomes_apply summary.kind book summary
    payment).marketplace
  unfold Handler.ofKind ActionSummary.kind at *
  unfold Done
  generalize haction : summary.action = action at *
  cases action with
  | started _ => exact book.auctionIndex?_openAuction summary payment haction
  | bid _ =>
      exact orderPlaced_of_takeOrder hmarketplace
        (book.roster_placeBid summary payment haction)
  | bought _ =>
      exact orderPlaced_of_takeOrder hmarketplace
        (book.roster_buyTokens summary payment haction)
  | ended _ => exact book.auctionSettled_endAuction summary payment
  | closed _ => exact book.auctionSettled_closeAuction summary
  | repriced _ => exact absurd rfl hreprices
  | updated _ => exact absurd rfl hupdates
  | offerCreated _ => exact book.offerIndex?_makeOffer summary payment haction
  | offerAccepted _ => exact book.settled_acceptOffer summary haction
  | offerClosed _ => exact book.offerSettled_withdrawOffer summary haction
  | globalOfferAccepted _ => exact book.done_acceptGlobalOffer summary haction

-- ================================================= prices, changed again

/-- A change that is not changed by a second one. -/
theorem modifyAuction_again (index : Nat) {change : Auction → Auction}
    (h : ∀ auction, change (change auction) = change auction) :
    (book.modifyAuction index change).modifyAuction index change
      = book.modifyAuction index change := by
  unfold modifyAuction
  dsimp only
  rw [List.modify_modify_eq, show change ∘ change = change from funext h]

/-- The same price again, paid alike. -/
theorem repriceAuction_again :
    (book.repriceAuction summary payment).repriceAuction summary payment
      = book.repriceAuction summary payment := by
  cases haction : summary.action with
  | repriced repricing =>
      cases hindex : book.auctionIndexFor? summary with
      | none => simp [repriceAuction, haction, hindex]
      | some index =>
          have hchange : ∀ other : Book,
              other.auctionIndexFor? summary = some index →
                other.repriceAuction summary payment
                  = other.modifyAuction index fun auction =>
                    (auction.payInNamed summary payment).reprice
                      repricing.newPrice payment.decimals := by
            intro other hother
            simp [repriceAuction, haction, hother]
          rw [hchange book hindex]
          refine (hchange (book.modifyAuction index _) hindex).trans ?_
          exact book.modifyAuction_again index fun auction =>
            auction.reprice_payInNamed_again ..
  | _ => simp [repriceAuction, haction]

/-- The same update again, paid alike. -/
theorem updateAuction_again :
    (book.updateAuction summary payment).updateAuction summary payment
      = book.updateAuction summary payment := by
  cases haction : summary.action with
  | updated revision =>
      cases hindex : book.auctionIndexFor? summary with
      | none => simp [updateAuction, haction, hindex]
      | some index =>
          have hchange : ∀ other : Book,
              other.auctionIndexFor? summary = some index →
                other.updateAuction summary payment
                  = other.modifyAuction index fun auction =>
                    (auction.payInNamed summary payment).revise revision
                      payment.decimals := by
            intro other hother
            simp [updateAuction, haction, hother]
          rw [hchange book hindex]
          refine (hchange (book.modifyAuction index _) hindex).trans ?_
          exact book.modifyAuction_again index fun auction =>
            auction.revise_payInNamed_again ..
  | _ => simp [updateAuction, haction]

end Book

/-- Whatever its kind, an action that is dispatched twice in a row with the
same payment does the second time nothing. -/
theorem Handler.apply_again (book : Book) (summary : ActionSummary)
    (payment : Payment) :
    (Handler.ofKind summary.kind).apply
        ((Handler.ofKind summary.kind).apply book summary payment) summary
        payment
      = (Handler.ofKind summary.kind).apply book summary payment := by
  by_cases hreprices : summary.kind = .repriced
  · rw [hreprices]
    exact book.repriceAuction_again summary payment
  · by_cases hupdates : summary.kind = .updated
    · rw [hupdates]
      exact book.updateAuction_again summary payment
    · exact Book.apply_of_done payment
        (book.done_apply summary payment hreprices hupdates)

end MarketReplay
