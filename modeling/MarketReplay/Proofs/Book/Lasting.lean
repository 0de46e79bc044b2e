/-
Marks that last.

The mark that an action leaves in a book is never taken away: numbers are not
filed anew, orders do not go, and no status returns to its first value. What
an action once found, it finds ever after, at the same place
(`auctionFor?_perform`, `offerIndex?_perform`), as long as auctions are found
by number; a token is found at the latest of its auctions, and that one
changes.

A mark alone is not enough. An action that found no auction has nothing to do
only until the auction opens. So what lasts is the mark together with what
the action refers to (`Found.perform`, `Done.perform`), and an action that
found everything it refers to does nothing a second time, however late.
-/
import MarketReplay.Proofs.Book.Repeat

namespace MarketReplay

/-- A key that is filed stays where it is when another one is, if that one is
free. -/
theorem Index.find?_file_of_free {κ : Type} [DecidableEq κ] {index : Index κ}
    {key other : κ} {i : Nat} (hfree : index.find? key = none)
    (hfound : index.find? other = some i) (position : Nat) :
    (index.file key position).find? other = some i := by
  have hne : other ≠ key := by
    rintro rfl
    rw [hfree] at hfound
    cases hfound
  rw [find?_file, if_neg hne]
  exact hfound

namespace Roster

variable {key : String} {before after : Roster}

/-- A number that is filed stays where it is: a new record takes a number
only if it is free. -/
theorem Step.auctionById_find? (h : Step key before after) {number i : Nat}
    (hfound : before.auctionById.find? number = some i) :
    after.auctionById.find? number = some i := by
  cases h with
  | same => exact hfound
  | auction _ free => exact Index.find?_file_of_free free hfound _
  | order _ _ _ => exact hfound
  | offer _ _ => exact hfound

/-- A number of an offer that is filed stays filed at its place. -/
theorem Step.offerById_find? (h : Step key before after) {number i : Nat}
    (hfound : before.offerById.find? number = some i) :
    after.offerById.find? number = some i := by
  cases h with
  | same => exact hfound
  | auction _ _ => exact hfound
  | order _ _ _ => exact hfound
  | offer _ free => exact Index.find?_file_of_free free hfound _

end Roster

namespace Book

variable {book next : Book} {deed : Deed} {summary : ActionSummary}

-- ====================================================== finding it again

/-- A deed is at most one step of the roster. -/
theorem step_perform (h : book.perform deed = .ok next) :
    ∃ key, book.roster.Step key next.roster := by
  cases deed with
  | dispatch summary payment =>
      refine ⟨summary.marketplaceKey, ?_⟩
      rw [Registry.builtIn_standard.roster_dispatch h]
      exact book.roster.step_take book.marketplace.lookup summary
  | sweep now =>
      cases h
      rw [roster_expire]
      exact ⟨"", .same⟩
  | fill answers =>
      cases h
      rw [roster_fillTags]
      exact ⟨"", .same⟩

/-- Whatever is done to a sound book leaves it sound. -/
theorem sound_perform (hsound : book.roster.Sound)
    (h : book.perform deed = .ok next) : next.roster.Sound := by
  obtain ⟨_, hstep⟩ := step_perform h
  exact hsound.step hstep

/-- A book with a history is sound. -/
theorem sound_after {marketplace : Marketplace} {past : List Deed}
    (h : after marketplace past = .ok book) : book.roster.Sound :=
  performs_induction (motive := fun _ reached => reached.roster.Sound)
    (sound_empty marketplace) (fun _ hsound hnext => sound_perform hsound hnext)
    h

/-- An auction that is found by its number is found there ever after. -/
theorem auctionIndex?_perform (h : book.perform deed = .ok next)
    {number i : Nat} (hfound : book.auctionIndex? number = some i) :
    next.auctionIndex? number = some i := by
  obtain ⟨_, hstep⟩ := step_perform h
  exact hstep.auctionById_find? hfound

/-- An offer that is found by its number is found there ever after. -/
theorem offerIndex?_perform (h : book.perform deed = .ok next)
    {number i : Nat} (hfound : book.offerIndex? number = some i) :
    next.offerIndex? number = some i := by
  obtain ⟨_, hstep⟩ := step_perform h
  exact hstep.offerById_find? hfound

/-- The auction of an action stays the one that it refers to. -/
theorem auctionFor?_perform (hlookup : book.marketplace.lookup = .byAuctionId)
    (h : book.perform deed = .ok next) {i : Nat} {auction : Auction}
    (hfound : book.auctionFor? summary = some (i, auction)) :
    ∃ later, next.auctionFor? summary = some (i, later)
      ∧ auction.Becomes (Deed.Fill [deed]) later := by
  obtain ⟨hindex, hauction⟩ :=
    (book.auctionFor?_eq_some_iff summary).1 hfound
  obtain ⟨listing, hlisting, hlisted⟩ := Option.bind_eq_some_iff.1 hindex
  have hbecomes := becomes_perform h
  obtain ⟨later, hlater, hauction⟩ := hbecomes.auctions i auction hauction
  refine ⟨later, (next.auctionFor?_eq_some_iff summary).2 ⟨?_, hlater⟩,
    hauction⟩
  refine Option.bind_eq_some_iff.2 ⟨listing, hlisting, ?_⟩
  unfold listingIndex? at hlisted ⊢
  rw [hlookup] at hlisted
  rw [hbecomes.marketplace, hlookup]
  exact auctionIndex?_perform h hlisted

/-- So what it refers to later is what has become of that auction. -/
theorem becomes_of_auctionFor?
    (hlookup : book.marketplace.lookup = .byAuctionId)
    (h : book.perform deed = .ok next) {i j : Nat} {auction later : Auction}
    (hfound : book.auctionFor? summary = some (i, auction))
    (hlater : next.auctionFor? summary = some (j, later)) :
    i = j ∧ auction.Becomes (Deed.Fill [deed]) later := by
  obtain ⟨other, hother, hbecomes⟩ := auctionFor?_perform hlookup h hfound
  obtain ⟨hindex, rfl⟩ : i = j ∧ other = later := by
    simpa using hother.symm.trans hlater
  exact ⟨hindex, hbecomes⟩

/-- Orders do not go. -/
theorem hasOrder_perform (h : book.perform deed = .ok next) {i : Nat}
    {txHash : String} (hplaced : book.hasOrder i txHash = true) :
    next.hasOrder i txHash = true := by
  obtain ⟨_, hstep⟩ := step_perform h
  rw [hasOrder_iff] at hplaced ⊢
  exact (hstep.begins.orders.map OrderName.place).subset hplaced

/-- An offer that is open no more stays as it is. -/
theorem offer_perform (h : book.perform deed = .ok next) {i : Nat}
    {offer : Offer} (hoffer : book.offers[i]? = some offer)
    (hsettled : offer.status ≠ .created) : next.offers[i]? = some offer := by
  obtain ⟨later, hlater, hbecomes⟩ := (becomes_perform h).offers i offer hoffer
  rw [hlater, hbecomes.eq_of_ne hsettled]

-- ====================================================== a mark that lasts

/-- The auction that an action refers to is there. -/
def AuctionFound (book : Book) (summary : ActionSummary) : Prop :=
  ∃ i auction, book.auctionFor? summary = some (i, auction)

/-- The offer of a number is there. -/
def OfferFound (book : Book) (offerId : Nat) : Prop :=
  ∃ i offer, book.offerIndex? offerId = some i
    ∧ book.offers[i]? = some offer

/-- The transaction has accepted an offer. -/
def OfferTakenBy (book : Book) (txHash : String) : Prop :=
  ∃ (i : Nat) (offer : Offer), book.offers[i]? = some offer
    ∧ offer.acceptedTxHash = some txHash ∧ offer.status ≠ .created

/-- The book has whatever an action refers to that its mark is about. -/
def Found (book : Book) (summary : ActionSummary) : Prop :=
  match summary.action with
  | .bid _ => book.AuctionFound summary
  | .bought _ => book.AuctionFound summary
  | .ended _ => book.AuctionFound summary
  | .closed _ => book.AuctionFound summary
  | .offerAccepted taken => book.OfferFound taken.offerId
      ∧ (summary.listing? = none ∨ book.AuctionFound summary)
  | .offerClosed withdrawn => book.OfferFound withdrawn.offerId
  | .globalOfferAccepted _ => book.OfferTakenBy summary.txHash
  | _ => True

/-- An auction that is found stays found, if auctions are found by number. -/
theorem AuctionFound.perform (hfound : book.AuctionFound summary)
    (hlookup : book.marketplace.lookup = .byAuctionId)
    (h : book.perform deed = .ok next) : next.AuctionFound summary := by
  obtain ⟨i, auction, hauction⟩ := hfound
  obtain ⟨later, hlater, -⟩ := auctionFor?_perform hlookup h hauction
  exact ⟨i, later, hlater⟩

/-- An offer that is found stays found. -/
theorem OfferFound.perform {offerId : Nat} (hfound : book.OfferFound offerId)
    (h : book.perform deed = .ok next) : next.OfferFound offerId := by
  obtain ⟨i, offer, hi, hoffer⟩ := hfound
  obtain ⟨later, hlater, -⟩ := (becomes_perform h).offers i offer hoffer
  exact ⟨i, later, offerIndex?_perform h hi, hlater⟩

/-- An offer that a transaction has accepted stays accepted by it. -/
theorem OfferTakenBy.perform {txHash : String}
    (htaken : book.OfferTakenBy txHash) (h : book.perform deed = .ok next) :
    next.OfferTakenBy txHash := by
  obtain ⟨i, offer, hoffer, htx, hsettled⟩ := htaken
  exact ⟨i, offer, offer_perform h hoffer hsettled, htx, hsettled⟩

/-- What an action refers to stays found, if auctions are found by number. -/
theorem Found.perform (hfound : book.Found summary)
    (hlookup : book.marketplace.lookup = .byAuctionId)
    (h : book.perform deed = .ok next) : next.Found summary := by
  unfold Found at hfound ⊢
  generalize summary.action = action at hfound ⊢
  cases action with
  | started _ => trivial
  | repriced _ => trivial
  | updated _ => trivial
  | offerCreated _ => trivial
  | bid _ => exact AuctionFound.perform hfound hlookup h
  | bought _ => exact AuctionFound.perform hfound hlookup h
  | ended _ => exact AuctionFound.perform hfound hlookup h
  | closed _ => exact AuctionFound.perform hfound hlookup h
  | offerAccepted _ =>
      obtain ⟨hoffer, hauction⟩ := hfound
      exact ⟨hoffer.perform h,
        hauction.imp_right fun hauction => hauction.perform hlookup h⟩
  | offerClosed _ => exact OfferFound.perform hfound h
  | globalOfferAccepted _ => exact OfferTakenBy.perform hfound h

/-- A listing that runs no more does not run again. It must be found, since
otherwise an opening could still bring it. -/
theorem AuctionSettled.perform (hsettled : book.AuctionSettled summary)
    (hfound : book.AuctionFound summary)
    (hlookup : book.marketplace.lookup = .byAuctionId)
    (h : book.perform deed = .ok next) : next.AuctionSettled summary := by
  obtain ⟨i, auction, hauction⟩ := hfound
  intro j later hlater
  obtain ⟨-, hbecomes⟩ := becomes_of_auctionFor? hlookup h hauction hlater
  exact hbecomes.status.ne_of_ne (hsettled i auction hauction)

/-- An order that a transaction has placed on its auction stays there. -/
theorem OrderPlaced.perform (hplaced : book.OrderPlaced summary)
    (hfound : book.AuctionFound summary)
    (hlookup : book.marketplace.lookup = .byAuctionId)
    (h : book.perform deed = .ok next) : next.OrderPlaced summary := by
  obtain ⟨i, auction, hauction⟩ := hfound
  intro j later hlater
  obtain ⟨rfl, -⟩ := becomes_of_auctionFor? hlookup h hauction hlater
  exact hasOrder_perform h (hplaced i auction hauction)

/-- An offer that is not open does not open again. -/
theorem OfferSettled.perform {offerId : Nat}
    (hsettled : book.OfferSettled offerId) (hfound : book.OfferFound offerId)
    (h : book.perform deed = .ok next) : next.OfferSettled offerId := by
  obtain ⟨i, offer, hi, hoffer⟩ := hfound
  have hopen := hsettled i offer hi hoffer
  intro j other hj hother
  obtain rfl : i = j :=
    Option.some.inj ((offerIndex?_perform h hi).symm.trans hj)
  rw [offer_perform h hoffer hopen] at hother
  cases hother
  exact hopen

/-- The auction of an action that names none is settled. -/
theorem auctionSettled_of_listing?_eq_none (h : summary.listing? = none) :
    book.AuctionSettled summary := by
  intro i auction hfound
  have hindex := ((book.auctionFor?_eq_some_iff summary).1 hfound).1
  unfold auctionIndexFor? at hindex
  rw [h] at hindex
  cases hindex

/-- A transaction that has accepted an offer is found by it. -/
theorem OfferTakenBy.offerAcceptedBy?_ne_none {txHash : String}
    (h : book.OfferTakenBy txHash) : book.offerAcceptedBy? txHash ≠ none := by
  obtain ⟨i, offer, hoffer, htx, -⟩ := h
  intro hnone
  have hnot := List.findIdx?_eq_none_iff.1 hnone offer
    (List.mem_of_getElem? hoffer)
  rw [htx] at hnot
  simp at hnot

/-- What is filed is never unfiled. -/
theorem auctionIndex?_ne_none_perform (h : book.perform deed = .ok next)
    {number : Nat} (hfiled : book.auctionIndex? number ≠ none) :
    next.auctionIndex? number ≠ none := by
  obtain ⟨i, hi⟩ := Option.ne_none_iff_exists'.1 hfiled
  exact Option.ne_none_iff_exists'.2 ⟨i, auctionIndex?_perform h hi⟩

/-- A number of an offer that is filed is never free again. -/
theorem offerIndex?_ne_none_perform (h : book.perform deed = .ok next)
    {number : Nat} (hfiled : book.offerIndex? number ≠ none) :
    next.offerIndex? number ≠ none := by
  obtain ⟨i, hi⟩ := Option.ne_none_iff_exists'.1 hfiled
  exact Option.ne_none_iff_exists'.2 ⟨i, offerIndex?_perform h hi⟩

/-- An action that has left its mark, and finds what it refers to, has left it
ever after. -/
theorem Done.perform (hdone : book.Done summary) (hfound : book.Found summary)
    (hlookup : book.marketplace.lookup = .byAuctionId)
    (h : book.perform deed = .ok next) : next.Done summary := by
  unfold Done at hdone ⊢
  unfold Found at hfound
  generalize summary.action = action at hdone hfound ⊢
  cases action with
  | started _ => exact auctionIndex?_ne_none_perform h hdone
  | bid _ => exact OrderPlaced.perform hdone hfound hlookup h
  | bought _ => exact OrderPlaced.perform hdone hfound hlookup h
  | ended _ => exact AuctionSettled.perform hdone hfound hlookup h
  | closed _ => exact AuctionSettled.perform hdone hfound hlookup h
  | repriced _ => exact hdone
  | updated _ => exact hdone
  | offerCreated _ => exact offerIndex?_ne_none_perform h hdone
  | offerAccepted _ =>
      obtain ⟨hoffer, hauction⟩ := hfound
      obtain ⟨hsettled, hclosed⟩ := hdone
      refine ⟨hsettled.perform hoffer h, .inr ?_⟩
      rcases hauction with hnone | hauction
      · exact auctionSettled_of_listing?_eq_none hnone
      · obtain ⟨i, offer, hi, -⟩ := hoffer
        have hclosed := hclosed.resolve_left (by rw [hi]; nofun)
        exact hclosed.perform hauction hlookup h
  | offerClosed _ => exact OfferSettled.perform hdone hfound h
  | globalOfferAccepted _ =>
      have hnext := OfferTakenBy.perform hfound h
      exact .inl hnext.offerAcceptedBy?_ne_none

/-- Along any deeds, the mark stays with what it is about. -/
theorem done_performs (hlookup : book.marketplace.lookup = .byAuctionId)
    (hfound : book.Found summary) (hdone : book.Done summary)
    {deeds : List Deed} (h : deeds.foldlM perform book = .ok next) :
    next.Done summary := by
  have hlast : next.marketplace.lookup = .byAuctionId
      ∧ next.Found summary ∧ next.Done summary := by
    refine performs_induction (motive := fun _ reached =>
      reached.marketplace.lookup = .byAuctionId
        ∧ reached.Found summary ∧ reached.Done summary)
      ⟨hlookup, hfound, hdone⟩ ?_ h
    rintro _ reached later deed - ⟨hkept, hstill, hmark⟩ hlater
    refine ⟨?_, hstill.perform hkept hlater, hmark.perform hstill hkept hlater⟩
    rwa [(becomes_perform hlater).marketplace]
  exact hlast.2.2

-- ======================================================= a late duplicate

/-- The book has an auction of this number. -/
def HasAuction (book : Book) (number : Nat) : Prop :=
  ∃ auction ∈ book.auctions, auction.marketplaceAuctionId = number

/-- The book has an offer of this number. -/
def HasOffer (book : Book) (number : Nat) : Prop :=
  ∃ offer ∈ book.offers, offer.marketplaceOfferId = number

/-- An action finds in a book whatever it refers to. An offer for any token is
not referred to by its number, so it is found if the dispatch, which makes the
second book of the first, accepts one. The two kinds that change a price are
left out. -/
def Meets (book : Book) (summary : ActionSummary) (next : Book) : Prop :=
  match summary.action with
  | .started _ => True
  | .bid bid => book.HasAuction bid.auctionId
  | .bought purchase => book.HasAuction purchase.auctionId
  | .ended ending => book.HasAuction ending.auctionId
  | .closed withdrawal => book.HasAuction withdrawal.auctionId
  | .repriced _ => False
  | .updated _ => False
  | .offerCreated _ => True
  | .offerAccepted taken => book.HasOffer taken.offerId
      ∧ (taken.auctionId ≠ 0 → book.HasAuction taken.auctionId)
  | .offerClosed withdrawn => book.HasOffer withdrawn.offerId
  | .globalOfferAccepted _ => ∃ (i : Nat) (isOpen taken : Offer),
      book.offers[i]? = some isOpen ∧ isOpen.status = .created
        ∧ next.offers[i]? = some taken ∧ taken.status = .accepted

/-- Where auctions are found by number, the auction of a number is found. -/
theorem Filed.auctionFound (h : book.Filed)
    (hlookup : book.marketplace.lookup = .byAuctionId) {listing : Listing}
    (hlisting : summary.listing? = some listing)
    (hhas : book.HasAuction listing.auctionId) : book.AuctionFound summary := by
  obtain ⟨auction, hmem, hnumber⟩ := hhas
  obtain ⟨i, hauction⟩ := List.getElem?_of_mem hmem
  have hi := (h.auctionIndex? listing.auctionId i).2 ⟨auction, hauction, hnumber⟩
  refine ⟨i, auction, (book.auctionFor?_eq_some_iff summary).2 ⟨?_, hauction⟩⟩
  refine Option.bind_eq_some_iff.2 ⟨listing, hlisting, ?_⟩
  unfold listingIndex?
  rw [hlookup]
  exact hi

/-- In a filed book, an offer that is there is found by its number. -/
theorem Filed.offerFound (h : book.Filed) {offerId : Nat}
    (hhas : book.HasOffer offerId) : book.OfferFound offerId := by
  obtain ⟨offer, hmem, hnumber⟩ := hhas
  obtain ⟨i, hoffer⟩ := List.getElem?_of_mem hmem
  exact ⟨i, offer, (h.offerIndex? offerId i).2 ⟨offer, hoffer, hnumber⟩,
    hoffer⟩

/-- An offer that is open before a dispatch and accepted after it is taken by
the transaction of the action. -/
theorem offerTakenBy_of_accepted {payment : Payment}
    (h : book.perform (.dispatch summary payment) = .ok next) {i : Nat}
    {isOpen taken : Offer} (hbefore : book.offers[i]? = some isOpen)
    (hopen : isOpen.status = .created) (hafter : next.offers[i]? = some taken)
    (haccepted : taken.status = .accepted) :
    next.OfferTakenBy summary.txHash := by
  obtain ⟨later, hlater, hbecomes⟩ :=
    (becomes_perform h).offers i isOpen hbefore
  obtain rfl : later = taken := Option.some.inj (hlater.symm.trans hafter)
  cases hbecomes with
  | same =>
      rw [hopen] at haccepted
      cases haccepted
  | closed _ => cases haccepted
  | accepted _ granted =>
      obtain ⟨other, _, hmem, hother⟩ := granted
      obtain ⟨rfl, -⟩ : other = summary ∧ _ := by
        simpa using List.mem_singleton.1 hmem
      refine ⟨i, _, hlater, ?_, ?_⟩
      · rw [hother]
      · rw [haccepted]
        nofun

/-- What a dispatch finds is there after it. -/
theorem Meets.found (hmeets : book.Meets summary next) (hfiled : book.Filed)
    (hlookup : book.marketplace.lookup = .byAuctionId) {payment : Payment}
    (h : book.perform (.dispatch summary payment) = .ok next) :
    next.Found summary := by
  have hauction : ∀ listing, summary.listing? = some listing →
      book.HasAuction listing.auctionId → next.AuctionFound summary :=
    fun listing hlisting hhas =>
      (hfiled.auctionFound hlookup hlisting hhas).perform hlookup h
  have hoffer : ∀ offerId, book.HasOffer offerId → next.OfferFound offerId :=
    fun offerId hhas => (hfiled.offerFound hhas).perform h
  unfold ActionSummary.listing? at hauction
  unfold Meets at hmeets
  unfold Found ActionSummary.listing?
  generalize summary.action = action at hauction hmeets ⊢
  cases action with
  | started _ => trivial
  | repriced _ => trivial
  | updated _ => trivial
  | offerCreated _ => trivial
  | bid bid => exact hauction bid.toListing rfl hmeets
  | bought purchase => exact hauction purchase.toListing rfl hmeets
  | ended ending => exact hauction ending.toListing rfl hmeets
  | closed withdrawal => exact hauction withdrawal.toListing rfl hmeets
  | offerAccepted taken =>
      refine ⟨hoffer taken.offerId hmeets.1, ?_⟩
      by_cases hzero : taken.auctionId = 0
      · exact .inl (if_pos hzero)
      · exact .inr (hauction ⟨taken.auctionId, taken.collection, taken.nonce⟩
          (if_neg hzero) (hmeets.2 hzero))
  | offerClosed withdrawn => exact hoffer withdrawn.offerId hmeets
  | globalOfferAccepted _ =>
      obtain ⟨i, isOpen, taken, hbefore, hopen, hafter, haccepted⟩ := hmeets
      exact offerTakenBy_of_accepted h hbefore hopen hafter haccepted

/-- Changes of price and updates leave no mark, and never count as met. -/
theorem Meets.kind_ne (h : book.Meets summary next) :
    summary.kind ≠ .repriced ∧ summary.kind ≠ .updated := by
  unfold Meets at h
  unfold ActionSummary.kind
  generalize summary.action = action at h ⊢
  cases action with
  | repriced _ => exact h.elim
  | updated _ => exact h.elim
  | _ => exact ⟨nofun, nofun⟩

/-- An action that found everything it refers to changes nothing when it is
dispatched again, whatever was done to the book in between and whatever is
paid. -/
theorem late_duplicate {marketplace : Marketplace} {past : List Deed}
    {first : Book} {payment : Payment}
    (hlookup : marketplace.lookup = .byAuctionId)
    (hbook : after marketplace past = .ok book)
    (hfirst : book.perform (.dispatch summary payment) = .ok first)
    (hmeets : book.Meets summary first) (more : List Deed) :
    ∃ later, more.foldlM perform first = .ok later
      ∧ ∀ again, later.perform (.dispatch summary again) = .ok later := by
  have hsound : book.roster.Sound := sound_after hbook
  have hbooklookup : book.marketplace.lookup = .byAuctionId := by
    rw [(becomes_performs hbook).marketplace]
    exact hlookup
  have hfirstlookup : first.marketplace.lookup = .byAuctionId := by
    rwa [(becomes_perform hfirst).marketplace]
  have hfound : first.Found summary :=
    hmeets.found (filed_of_sound hsound) hbooklookup hfirst
  have hdone : first.Done summary := by
    rw [Registry.builtIn_standard.dispatch_eq hfirst]
    exact book.done_apply summary payment hmeets.kind_ne.1 hmeets.kind_ne.2
  obtain ⟨later, hlater, -⟩ :=
    exists_performs (sound_perform hsound hfirst) more
  refine ⟨later, hlater, fun again => ?_⟩
  have hstill := done_performs hfirstlookup hfound hdone hlater
  refine (Registry.dispatch_standard later summary again).trans ?_
  rw [apply_of_done again hstill]

end Book

namespace Sample

/-- A marketplace that calls its auctions by number. -/
def stall : Marketplace := ⟨"stall", "booth", .external, .byAuctionId⟩

/-- An action there, by a transaction of its own. -/
def stallAction (txHash : String) (action : Action) : ActionSummary :=
  ⟨txHash, 3, stall.key, none, none, action⟩

/-- What is paid there. -/
def stallPayment : Payment := ⟨"EGLD", 18, 0⟩

/-- Auction 7 opens. -/
def stallOpening : ActionSummary :=
  stallAction "opening" (.started
    ⟨⟨7, "C", 1⟩, 1, "owner", 5, 0, 0, 0, 0, .nft⟩)

/-- Offer 4 is made for its token. -/
def stallOffer : ActionSummary :=
  stallAction "offer" (.offerCreated ⟨4, "C", 1, "buyer", 6, 1, 8⟩)

/-- The offer is accepted, which takes the token off the market. -/
def stallAcceptance : ActionSummary :=
  stallAction "acceptance" (.offerAccepted ⟨4, "C", 1, "owner", 7⟩)

/-- What is done to the stall before the offer is accepted. -/
def stallPast : List Book.Deed :=
  [.dispatch stallOpening stallPayment, .dispatch stallOffer stallPayment]

end Sample

/-- An offer is accepted; then everything is swept, and the auction opens
again. -/
theorem Book.late_duplicate_sample :
    ∃ book first later,
      Book.after Sample.stall Sample.stallPast = .ok book
        ∧ book.perform (.dispatch Sample.stallAcceptance Sample.stallPayment)
          = .ok first
        ∧ first.auctions.map (·.status) = [.closed]
        ∧ first.offers.map (·.status) = [.accepted]
        ∧ [.sweep 9, .dispatch Sample.stallOpening Sample.stallPayment].foldlM
          Book.perform first = .ok later
        ∧ ∀ again, later.perform (.dispatch Sample.stallAcceptance again)
          = .ok later := by
  let auction := Auction.ofOpening Sample.stallOpening
    ⟨⟨7, "C", 1⟩, 1, "owner", 5, 0, 0, 0, 0, .nft⟩ Sample.stallPayment
  let offer := Offer.ofMade Sample.stallOffer ⟨4, "C", 1, "buyer", 6, 1, 8⟩
    Sample.stallPayment
  let book := ((Book.empty Sample.stall).addAuction auction).addOffer offer
  have hbook : Book.after Sample.stall Sample.stallPast = .ok book := rfl
  have hfirst : book.perform
      (.dispatch Sample.stallAcceptance Sample.stallPayment)
        = .ok (book.acceptOffer Sample.stallAcceptance) := rfl
  have hmeets : book.Meets Sample.stallAcceptance
      (book.acceptOffer Sample.stallAcceptance) :=
    ⟨⟨offer, List.mem_singleton_self _, rfl⟩,
      fun _ => ⟨auction, List.mem_singleton_self _, rfl⟩⟩
  obtain ⟨later, hlater, hagain⟩ := Book.late_duplicate rfl hbook hfirst hmeets
    [.sweep 9, .dispatch Sample.stallOpening Sample.stallPayment]
  exact ⟨book, _, later, hbook, hfirst, rfl, rfl, hlater, hagain⟩

end MarketReplay
