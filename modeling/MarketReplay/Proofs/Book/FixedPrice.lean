/-
The price of a listing, in both bounds.

A listing at a fixed price is an auction that opens with its price in both
bounds, and a new price is meant to move both. Nothing else does: an action
moves the bounds of an auction only if it refers to it and brings a price
(`Book.bounds_perform`), so the bounds are those of the opening with every
price since put on them in turn (`Book.bounds_performs`).

But a maximum is known to be set by not being zero, so a price of zero takes it
away for good, and from then on new prices move the minimum only
(`PriceBounds.foldl_reprice`). Up to there both bounds hold the last price
(`Book.after_fixedPrice`); afterwards they are together only while it is zero
(`Book.fixedPrice_parts`).
-/
import MarketReplay.Proofs.Book.Locality
import MarketReplay.Proofs.Book.Relisting

namespace MarketReplay

-- ================================================================ bounds

/-- The bounds of a price: what a bid is to bring, and what wins at once. -/
structure PriceBounds where
  minBid : Nat
  maxBid : Nat
deriving DecidableEq, Repr

namespace PriceBounds

/-- The bounds at a new price. -/
def reprice (bounds : PriceBounds) (price : Nat) : PriceBounds :=
  ⟨price, if bounds.maxBid = 0 then 0 else price⟩

/-- Without a maximum the last price is the minimum. -/
theorem foldl_reprice_of_zero (prices : List Nat) (price : Nat) :
    prices.foldl reprice ⟨price, 0⟩ = ⟨prices.getLast?.getD price, 0⟩ := by
  induction prices generalizing price with
  | nil => rfl
  | cons next prices ih =>
      rw [List.foldl_cons, List.getLast?_cons, Option.getD_some]
      exact ih next

/-- A new price on a fixed one is fixed. -/
theorem reprice_of_ne_zero {price : Nat} (h : price ≠ 0) (next : Nat) :
    reprice ⟨price, price⟩ next = ⟨next, next⟩ := by
  unfold reprice
  rw [if_neg h]

/-- Prices put on a fixed price in turn: the minimum is the last one, and so is
the maximum unless one of them was zero. -/
theorem foldl_reprice (prices : List Nat) {price : Nat} (h : price ≠ 0) :
    prices.foldl reprice ⟨price, price⟩
      = ⟨prices.getLast?.getD price,
        if 0 ∈ prices then 0 else prices.getLast?.getD price⟩ := by
  induction prices generalizing price with
  | nil => rfl
  | cons next prices ih =>
      rw [List.foldl_cons, List.getLast?_cons, Option.getD_some, reprice_of_ne_zero h]
      by_cases hzero : next = 0
      · -- from here on there is no maximum, and the minimum alone moves
        subst hzero
        rw [if_pos List.mem_cons_self]
        exact foldl_reprice_of_zero prices 0
      · have hmem : (0 ∈ next :: prices) = (0 ∈ prices) := by
          simp [Ne.symm hzero]
        rw [ih hzero]
        simp only [hmem]

end PriceBounds

namespace Auction

def bounds (auction : Auction) : PriceBounds := ⟨auction.minBid, auction.maxBid⟩

def SameBounds (before after : Auction) : Prop := after.bounds = before.bounds

theorem SameBounds.refl (auction : Auction) : auction.SameBounds auction := rfl

variable (auction : Auction)

@[simp] theorem bounds_advance (next : AuctionStatus) :
    (auction.advance next).bounds = auction.bounds := rfl

/-- The token of payment is no part of the bounds. -/
@[simp] theorem priceBounds_payInNamed (summary : ActionSummary) (payment : Payment) :
    (auction.payInNamed summary payment).bounds = auction.bounds := by
  unfold payInNamed
  split <;> rfl

/-- A price is written into the bounds of the record as into bounds alone. -/
theorem bounds_reprice (price decimals : Nat) :
    (auction.reprice price decimals).bounds = auction.bounds.reprice price := by
  unfold reprice PriceBounds.reprice bounds
  split <;> simp_all

/-- A revision reprices if it names a price, and leaves the bounds alone if it
does not. -/
theorem bounds_revise (revision : Revision) (decimals : Nat) :
    (auction.revise revision decimals).bounds
      = revision.newPrice.elim auction.bounds auction.bounds.reprice := by
  have hdeadline : ∀ (priced : Auction) (deadline : Int),
      ({ priced with endDate := deadline } : Auction).bounds = priced.bounds :=
    fun _ _ => rfl
  unfold revise
  cases revision.newPrice with
  | none => cases revision.deadline <;> rfl
  | some price =>
      rw [Option.elim_some, ← auction.bounds_reprice price decimals]
      cases revision.deadline <;> rfl

/-- The sweep changes the status only. -/
@[simp] theorem bounds_sweep (now : Int) (standing : Bool) :
    (auction.sweep now standing).bounds = auction.bounds := by
  unfold sweep
  split <;> rfl

/-- Filling tags in leaves the bounds alone. -/
@[simp] theorem bounds_fillTags (answers : List TokenTags) :
    (auction.fillTags answers).bounds = auction.bounds := by
  unfold fillTags
  split
  · split <;> rfl
  · rfl

end Auction

namespace Book

-- ========================================================= who moves them

/-- Every auction stands where it was, with its bounds. -/
def KeepsBounds (before after : Book) : Prop :=
  Continues Auction.SameBounds before.auctions after.auctions

namespace KeepsBounds

theorem refl (book : Book) : book.KeepsBounds book :=
  Continues.refl .refl _

/-- A change to one auction that leaves its bounds alone keeps those of the
book. -/
theorem modifyAuction (book : Book) (index : Nat) {change : Auction → Auction}
    (h : ∀ auction : Auction, auction.SameBounds (change auction)) :
    book.KeepsBounds (book.modifyAuction index change) :=
  Continues.modify .refl h _ index

/-- An auction that is added is not among those whose bounds are kept. -/
theorem addAuction (book : Book) (auction : Auction) :
    book.KeepsBounds (book.addAuction auction) :=
  Continues.concat .refl _ auction

variable (book : Book) (summary : ActionSummary) (payment : Payment)

theorem advanceAuction (index : Nat) (next : AuctionStatus) :
    book.KeepsBounds (book.advanceAuction index next) :=
  modifyAuction book index fun auction => auction.bounds_advance next

/-- An opening adds an auction, and at most one. -/
theorem openAuction : book.KeepsBounds (book.openAuction summary payment) := by
  unfold Book.openAuction
  split
  · split
    · exact refl book
    · exact addAuction book _
  · exact refl book

/-- A bid is an order, and ends the auction at most. -/
theorem placeBid : book.KeepsBounds (book.placeBid summary payment) := by
  unfold Book.placeBid
  split
  · split
    · exact refl book
    · dsimp only
      split
      · exact advanceAuction ((book.advanceOrders _ _).addOrder _) _ _
      · exact refl book
  · exact refl book

/-- A purchase is an order, and ends the auction at most. -/
theorem buyTokens : book.KeepsBounds (book.buyTokens summary payment) := by
  unfold Book.buyTokens
  split
  · split
    · exact refl book
    · dsimp only
      split
      · exact advanceAuction ((book.addOrder _).advanceOrders _ _) _ _
      · exact refl book
  · exact refl book

/-- An ending changes status and token of payment, but no price. -/
theorem endAuction : book.KeepsBounds (book.endAuction summary payment) := by
  unfold Book.endAuction
  split
  · split
    · exact modifyAuction book _ fun auction =>
        (auction.advance .ended).priceBounds_payInNamed summary payment
    · exact refl book
  · exact refl book

/-- A withdrawn listing is closed at the price it had. -/
theorem closeAuction : book.KeepsBounds (book.closeAuction summary) := by
  unfold Book.closeAuction
  split
  · exact advanceAuction book _ _
  · exact refl book

/-- Making an offer touches no auction. -/
theorem makeOffer : book.KeepsBounds (book.makeOffer summary payment) := by
  unfold Book.makeOffer
  split
  · split <;> exact refl book
  · exact refl book

/-- An acceptance may close the listing, at the price it had. -/
theorem acceptOffer : book.KeepsBounds (book.acceptOffer summary) := by
  unfold Book.acceptOffer
  split
  · split
    · exact closeAuction (book.modifyOffer _ _) summary
    · exact refl book
  · exact refl book

/-- Withdrawing an offer touches no auction. -/
theorem withdrawOffer : book.KeepsBounds (book.withdrawOffer summary) := by
  unfold Book.withdrawOffer
  split
  · split <;> exact refl book
  · exact refl book

/-- A global acceptance may close the listing, at the price it had. -/
theorem acceptGlobalOffer : book.KeepsBounds (book.acceptGlobalOffer summary) := by
  unfold Book.acceptGlobalOffer
  split
  · split
    · exact refl book
    · exact closeAuction (book.modifyOffer _ _) summary
    · exact closeAuction book summary
  · exact refl book

theorem expire (now : Int) : book.KeepsBounds (book.expire now) :=
  Continues.mapIdx (fun _ auction => auction.bounds_sweep now _) _

theorem fillTags (answers : List TokenTags) :
    book.KeepsBounds (book.fillTags answers) :=
  Continues.map (fun auction => auction.bounds_fillTags answers) _

end KeepsBounds

end Book

/-- Only the two kinds that change a listing move bounds. -/
theorem Handler.keepsBounds_apply {kind : ActionKind} (hrepriced : kind ≠ .repriced)
    (hupdated : kind ≠ .updated) (book : Book) (summary : ActionSummary)
    (payment : Payment) :
    book.KeepsBounds ((Handler.ofKind kind).apply book summary payment) := by
  unfold Handler.ofKind
  cases kind with
  | started => exact .openAuction book summary payment
  | bid => exact .placeBid book summary payment
  | bought => exact .buyTokens book summary payment
  | ended => exact .endAuction book summary payment
  | closed => exact .closeAuction book summary
  | repriced => exact absurd rfl hrepriced
  | updated => exact absurd rfl hupdated
  | offerCreated => exact .makeOffer book summary payment
  | offerAccepted => exact .acceptOffer book summary
  | offerClosed => exact .withdrawOffer book summary
  | globalOfferAccepted => exact .acceptGlobalOffer book summary

/-- The price that an action brings for the listing that it refers to. -/
def ActionSummary.newPrice? (summary : ActionSummary) : Option Nat :=
  match summary.action with
  | .repriced repricing => some repricing.newPrice
  | .updated revision => revision.newPrice
  | _ => none

namespace Book

/-- The price that a deed puts on the auction at a place, if it does. -/
def priceAt? (book : Book) (i : Nat) : Deed → Option Nat
  | .dispatch summary _ =>
      if book.auctionIndexFor? summary = some i then summary.newPrice? else none
  | .sweep _ => none
  | .fill _ => none

/-- A dispatch writes a price where it finds its auction, if its action names
one. -/
theorem priceAt?_dispatch (book : Book) (i : Nat) (summary : ActionSummary)
    (payment : Payment) :
    book.priceAt? i (.dispatch summary payment)
      = if book.auctionIndexFor? summary = some i then summary.newPrice? else none :=
  rfl

variable {book next last : Book} {summary : ActionSummary} {payment : Payment}
  {deed : Deed} {deeds : List Deed} {i : Nat} {auction : Auction}

/-- A change to the auction that an action finds, by a price that it may bring,
puts that price on the auction. -/
theorem bounds_changeFound {change : Auction → Auction}
    (h : ∀ auction, (change auction).bounds
      = summary.newPrice?.elim auction.bounds auction.bounds.reprice)
    (hauction : book.auctions[i]? = some auction) :
    ∃ later, (book.changeFound summary change).auctions[i]? = some later
      ∧ later.bounds = (book.priceAt? i (.dispatch summary payment)).elim
        auction.bounds auction.bounds.reprice := by
  rw [priceAt?_dispatch]
  unfold changeFound
  cases hindex : book.auctionIndexFor? summary with
  | none => exact ⟨auction, hauction, rfl⟩
  | some index =>
      refine ⟨if index = i then change auction else auction, ?_, ?_⟩
      · show (book.auctions.modify index change)[i]? = _
        rw [List.getElem?_modify, hauction]
        rfl
      · by_cases hi : index = i
        · rw [if_pos hi, if_pos (congrArg some hi)]
          exact h auction
        · rw [if_neg hi, if_neg fun hsome => hi (Option.some.inj hsome)]
          rfl

/-- Whoever keeps the bounds of the book does to an auction what a deed does
that names no price for it. -/
theorem KeepsBounds.bounds (h : book.KeepsBounds next)
    (hprice : book.priceAt? i deed = none)
    (hauction : book.auctions[i]? = some auction) :
    ∃ later, next.auctions[i]? = some later
      ∧ later.bounds
        = (book.priceAt? i deed).elim auction.bounds auction.bounds.reprice := by
  obtain ⟨later, hlater, hbounds⟩ := h i auction hauction
  rw [hprice]
  exact ⟨later, hlater, hbounds⟩

/-- The bounds of an auction after a deed are those from before, at the price
that the deed puts on it. -/
theorem bounds_perform (h : book.perform deed = .ok next)
    (hauction : book.auctions[i]? = some auction) :
    ∃ later, next.auctions[i]? = some later
      ∧ later.bounds
        = (book.priceAt? i deed).elim auction.bounds auction.bounds.reprice := by
  cases deed with
  | sweep now =>
      cases h
      exact (KeepsBounds.expire book now).bounds rfl hauction
  | fill answers =>
      cases h
      exact (KeepsBounds.fillTags book answers).bounds rfl hauction
  | dispatch summary payment =>
      have hnext := Registry.builtIn_standard.dispatch_eq h
      unfold ActionSummary.kind at hnext
      rw [hnext]
      cases haction : summary.action with
      | repriced repricing =>
          show ∃ later, (book.repriceAuction summary payment).auctions[i]? = _ ∧ _
          rw [repriceAuction_eq haction]
          refine bounds_changeFound (fun auction => ?_) hauction
          rw [Auction.bounds_reprice, Auction.priceBounds_payInNamed,
            ActionSummary.newPrice?, haction]
          rfl
      | updated revision =>
          show ∃ later, (book.updateAuction summary payment).auctions[i]? = _ ∧ _
          rw [updateAuction_eq haction]
          refine bounds_changeFound (fun auction => ?_) hauction
          rw [Auction.bounds_revise, Auction.priceBounds_payInNamed,
            ActionSummary.newPrice?, haction]
      | _ =>
          -- the other kinds bring no price
          refine (Handler.keepsBounds_apply ?_ ?_ book summary payment).bounds ?_ hauction
          · nofun
          · nofun
          · rw [priceAt?_dispatch, ActionSummary.newPrice?, haction]
            exact ite_self none

-- ================================================================ a run

/-- The prices that deeds put on the auction at a place, one after another. -/
def pricesAt (i : Nat) (book : Book) : List Deed → List Nat
  | [] => []
  | deed :: deeds =>
      match book.perform deed with
      | .ok next => (book.priceAt? i deed).toList ++ pricesAt i next deeds
      | .error _ => []

/-- The bounds of an auction after some deeds are those from before, at all the
prices that the deeds put on it, in turn. -/
theorem bounds_performs (h : deeds.foldlM perform book = .ok last)
    (hauction : book.auctions[i]? = some auction) :
    ∃ later, last.auctions[i]? = some later
      ∧ later.bounds
        = (pricesAt i book deeds).foldl PriceBounds.reprice auction.bounds := by
  induction deeds generalizing book auction with
  | nil =>
      cases h
      exact ⟨auction, hauction, rfl⟩
  | cons deed deeds ih =>
      rw [List.foldlM_cons] at h
      cases hnext : book.perform deed with
      | error error => rw [hnext] at h; cases h
      | ok next =>
          rw [hnext] at h
          obtain ⟨mid, hmid, hbounds⟩ := bounds_perform hnext hauction
          obtain ⟨later, hlater, hmore⟩ := ih h hmid
          refine ⟨later, hlater, ?_⟩
          rw [hmore, hbounds, pricesAt, hnext, List.foldl_append]
          cases book.priceAt? i deed <;> rfl

/-- A listing opens at a fixed price, in a book that came about somehow and has
no auction of its number, and any deeds follow. Its minimum is then the last
price that they put on it, and as long as none of them was zero, so is its
maximum. A price of zero takes the maximum away for good. -/
theorem after_fixedPrice {marketplace : Marketplace} {past : List Deed}
    (hbook : after marketplace past = .ok book) {opening : Opening}
    (haction : summary.action = .started opening)
    (hfree : book.auctionIndex? opening.auctionId = none)
    (hfixed : opening.minBid = opening.maxBid) (hprice : opening.maxBid ≠ 0)
    (payment : Payment) (more : List Deed) :
    ∃ opened last auction,
      book.perform (.dispatch summary payment) = .ok opened
        ∧ more.foldlM perform opened = .ok last
        ∧ last.auctions[book.auctions.length]? = some auction
        ∧ auction.minBid
          = (pricesAt book.auctions.length opened more).getLast?.getD opening.minBid
        ∧ (0 ∉ pricesAt book.auctions.length opened more →
          auction.minBid = auction.maxBid)
        ∧ (0 ∈ pricesAt book.auctions.length opened more → auction.maxBid = 0) := by
  let listed := Auction.ofOpening summary opening payment
  have hopened : book.perform (.dispatch summary payment)
      = .ok (book.addAuction listed) := by
    refine (Registry.dispatch_standard book summary payment).trans ?_
    rw [Handler.apply_started haction hfree]
  obtain ⟨last, hlast, -⟩ :=
    exists_performs (sound_perform (sound_after hbook) hopened) more
  have hlisted : (book.addAuction listed).auctions[book.auctions.length]?
      = some listed := List.getElem?_concat_length
  obtain ⟨auction, hauction, hbounds⟩ := bounds_performs hlast hlisted
  have hstart : listed.bounds = ⟨opening.maxBid, opening.maxBid⟩ :=
    congrArg (PriceBounds.mk · opening.maxBid) hfixed
  rw [hstart, PriceBounds.foldl_reprice _ hprice] at hbounds
  have hmin := congrArg PriceBounds.minBid hbounds
  have hmax := congrArg PriceBounds.maxBid hbounds
  refine ⟨_, last, auction, hopened, hlast, hauction, hfixed ▸ hmin, ?_, ?_⟩
  · intro hnone
    exact hmin.trans ((if_neg hnone).symm.trans hmax.symm)
  · intro hzero
    exact hmax.trans (if_pos hzero)

end Book

namespace Sample

/-- A listing at a fixed price. -/
def stallListing : Opening :=
  ⟨⟨7, "C", 1⟩, 1, "owner", 5, 5, 0, 0, 0, .nft⟩

/-- It opens. -/
def stallListed : ActionSummary := stallAction "listing" (.started stallListing)

/-- It gets a new price. -/
def stallRepriced (price : Nat) : Book.Deed :=
  .dispatch (stallAction "repricing" (.repriced ⟨⟨7, "C", 1⟩, price⟩)) stallPayment

/-- It is updated, and a new price comes with that. -/
def stallUpdated (price : Nat) : Book.Deed :=
  .dispatch (stallAction "update" (.updated ⟨⟨7, "C", 1⟩, some price, some 8⟩))
    stallPayment

end Sample

/-- The listing gets two new prices, and both bounds hold the second. -/
theorem Book.after_fixedPrice_sample : ∃ opened last auction,
    (Book.empty Sample.stall).perform (.dispatch Sample.stallListed Sample.stallPayment)
        = .ok opened
      ∧ [Sample.stallRepriced 9, .sweep 4, Sample.stallUpdated 6].foldlM
        Book.perform opened = .ok last
      ∧ last.auctions[0]? = some auction
      ∧ auction.minBid = 6 ∧ auction.maxBid = 6 := by
  have haction : Sample.stallListed.action = .started Sample.stallListing := rfl
  have hbook : Book.after Sample.stall [] = .ok (.empty Sample.stall) := rfl
  obtain ⟨opened, last, auction, hopened, hlast, hauction, hmin, hsame, -⟩ :=
    Book.after_fixedPrice hbook haction rfl rfl (by decide) Sample.stallPayment
      [Sample.stallRepriced 9, .sweep 4, Sample.stallUpdated 6]
  have hprices : Book.pricesAt 0 opened
      [Sample.stallRepriced 9, .sweep 4, Sample.stallUpdated 6] = [9, 6] := by
    cases hopened
    rfl
  have hsix : auction.minBid = 6 := by
    rw [hmin]
    exact congrArg (·.getLast?.getD 5) hprices
  refine ⟨opened, last, auction, hopened, hlast, hauction, hsix, ?_⟩
  rw [← hsame, hsix]
  exact hprices ▸ (by decide)

/-- The bounds of a listing at a fixed price do not always stay together: after
a price of zero the next one is put on the minimum only. -/
theorem Book.fixedPrice_parts :
    ¬ ∀ (past more : List Book.Deed) (book opened last : Book)
        (summary : ActionSummary) (payment : Payment) (opening : Opening)
        (auction : Auction),
      Book.after Sample.stall past = .ok book →
      summary.action = .started opening →
      book.auctionIndex? opening.auctionId = none →
      opening.minBid = opening.maxBid → opening.maxBid ≠ 0 →
      book.perform (.dispatch summary payment) = .ok opened →
      more.foldlM Book.perform opened = .ok last →
      last.auctions[book.auctions.length]? = some auction →
        auction.minBid = auction.maxBid := by
  intro h
  have hbounds := h [] [Sample.stallRepriced 0, Sample.stallRepriced 9] _ _ _
    Sample.stallListed Sample.stallPayment Sample.stallListing _ rfl rfl rfl rfl
    (by decide) rfl rfl rfl
  exact absurd hbounds (by decide)

end MarketReplay
