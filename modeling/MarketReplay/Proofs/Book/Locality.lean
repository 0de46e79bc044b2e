/-
What an action does to one auction.

Where a marketplace calls its auctions by number, an action finds an auction in
the part of the book that the auction sees where it finds it in the whole book,
and otherwise it finds something elsewhere or nothing (`Book.Sight`). So an
action on the auction does in the part what it does in the whole
(`Handler.only_apply`), and it is quoted alike there (`Config.quote_only`). An
action on another auction does nothing to the part
(`Handler.only_apply_of_elsewhere`). Offers are in every part, so what becomes
of an offer is seen by all; but of the auctions an accepted offer closes one at
most.
-/
import MarketReplay.Proofs.Book.Excerpt
import MarketReplay.Proofs.Run.Redispatch

namespace MarketReplay

namespace Book

variable {book : Book} {number : Nat}

-- ====================================================== the auction seen

/-- The part of one auction knows its number, and no other. -/
theorem auctionIndex?_only (h : book.roster.Sound) (other : Nat) :
    (book.only number).auctionIndex? other
      = if other = number then (book.auctionIndex? number).map fun _ => 0
        else none := by
  show List.lookup other ((book.auctionThere? number).toList.map _) = _
  cases hthere : book.auctionThere? number with
  | none =>
      have hnone : book.auctionIndex? number = none := by
        rw [Option.eq_none_iff_forall_ne_some]
        intro i hi
        obtain ⟨auction, hauction, -⟩ := (auctionIndex?_eq_some_iff h).1 hi
        simp [auctionThere?, hi, hauction] at hthere
      simp [hnone]
  | some auction =>
      obtain ⟨hmem, hnumber⟩ := (auctionThere?_eq_some_iff h).1 hthere
      obtain ⟨i, hi, -⟩ := Option.bind_eq_some_iff.1 hthere
      by_cases hother : other = number
      · simp [hi, hnumber, hother]
      · have hne : (other == number) = false := beq_eq_false_iff_ne.2 hother
        simp [hnumber, hother, hne]

/-- How an action finds its auction in the whole book and in the part. -/
inductive Sight (book : Book) (number : Nat) (summary : ActionSummary) : Prop
  | here {i : Nat} {auction : Auction}
      (whole : book.auctionFor? summary = some (i, auction))
      (part : (book.only number).auctionFor? summary = some (0, auction))
      (placed : book.auctionIndex? number = some i)
  | apart (unseen : (book.only number).auctionIndexFor? summary = none)
      (elsewhere : ∀ i, book.auctionIndexFor? summary = some i →
        book.auctionIndex? number ≠ some i)

variable {summary : ActionSummary}

/-- By number, an action finds the auction that its listing names. -/
theorem auctionIndexFor?_byAuctionId
    (hlookup : book.marketplace.lookup = .byAuctionId) :
    book.auctionIndexFor? summary
      = summary.listing?.bind fun listing =>
        book.auctionIndex? listing.auctionId := by
  unfold auctionIndexFor? listingIndex?
  rw [hlookup]

/-- A sound book in which actions find their auctions by number. -/
structure Numbered (book : Book) : Prop where
  sound : book.roster.Sound
  lookup : book.marketplace.lookup = .byAuctionId

/-- The empty book of such a marketplace is one. -/
theorem numbered_empty {marketplace : Marketplace}
    (h : marketplace.lookup = .byAuctionId) : (empty marketplace).Numbered :=
  ⟨sound_empty marketplace, h⟩

/-- Deeds keep it one. -/
theorem Numbered.perform (h : book.Numbered) {deed : Deed} {next : Book}
    (hnext : book.perform deed = .ok next) : next.Numbered where
  sound := sound_perform h.sound hnext
  lookup := by
    rw [(becomes_perform hnext).marketplace]
    exact h.lookup

/-- In the part of an auction an action on another one finds nothing. -/
theorem unseen_of_listing (h : book.Numbered) {listing : Listing}
    (hlisting : summary.listing? = some listing)
    (hne : listing.auctionId ≠ number) :
    (book.only number).auctionIndexFor? summary = none := by
  have hlookup : (book.only number).marketplace.lookup = .byAuctionId :=
    h.lookup
  rw [auctionIndexFor?_byAuctionId hlookup, hlisting, Option.bind_some,
    auctionIndex?_only h.sound, if_neg hne]

/-- Two numbers have no place in common. -/
theorem Numbered.sight (h : book.Numbered) (number : Nat)
    (summary : ActionSummary) : book.Sight number summary := by
  have hwhole : book.auctionIndexFor? summary
      = summary.listing?.bind fun listing =>
        book.auctionIndex? listing.auctionId :=
    auctionIndexFor?_byAuctionId h.lookup
  have hpart : (book.only number).auctionIndexFor? summary
      = summary.listing?.bind fun listing =>
        (book.only number).auctionIndex? listing.auctionId :=
    auctionIndexFor?_byAuctionId h.lookup
  cases hlisting : summary.listing? with
  | none =>
      rw [hlisting] at hwhole hpart
      refine .apart hpart fun i hi => ?_
      rw [hwhole] at hi
      cases hi
  | some listing =>
      rw [hlisting, Option.bind_some] at hwhole hpart
      by_cases hsame : listing.auctionId = number
      · -- the action is on this auction: found in both books, or in neither
        rw [auctionIndex?_only h.sound, if_pos hsame] at hpart
        rw [hsame] at hwhole
        cases hi : book.auctionIndex? number with
        | none =>
            rw [hi] at hwhole hpart
            refine .apart hpart fun i hfound => ?_
            rw [hwhole] at hfound
            cases hfound
        | some i =>
            rw [hi] at hwhole hpart
            obtain ⟨auction, hauction, -⟩ :=
              (auctionIndex?_eq_some_iff h.sound).1 hi
            refine .here ((auctionFor?_eq_some_iff ..).2 ⟨hwhole, hauction⟩)
              ((auctionFor?_eq_some_iff ..).2 ⟨hpart, ?_⟩) hi
            simp [only, auctionThere?, hi, hauction]
      · -- a place that both numbers are filed at would have both of them
        refine .apart (unseen_of_listing h hlisting hsame) ?_
        intro i hfound hi
        rw [hwhole] at hfound
        obtain ⟨found, hauction, hnumber⟩ :=
          (auctionIndex?_eq_some_iff h.sound).1 hfound
        obtain ⟨same, hself, hself'⟩ := (auctionIndex?_eq_some_iff h.sound).1 hi
        rw [hauction] at hself
        cases hself
        exact hsame (hnumber.symm.trans hself')

-- ========================================================= the actions

variable {payment : Payment}

/-- Where there is no position there is no auction. -/
theorem auctionFor?_eq_none (h : book.auctionIndexFor? summary = none) :
    book.auctionFor? summary = none := by
  unfold auctionFor?
  rw [h]
  rfl

/-- What an action finds elsewhere has not the number of the part. -/
theorem ne_of_auctionFor? {i : Nat} {auction : Auction}
    (elsewhere : ∀ i, book.auctionIndexFor? summary = some i →
      book.auctionIndex? number ≠ some i)
    (h : book.auctionFor? summary = some (i, auction)) :
    book.auctionIndex? number ≠ some i :=
  elsewhere i ((auctionFor?_eq_some_iff ..).1 h).1

/-- The part of an auction holds its orders. -/
theorem hasOrder_only {i : Nat} (placed : book.auctionIndex? number = some i)
    (txHash : String) :
    (book.only number).hasOrder 0 txHash = book.hasOrder i txHash := by
  unfold hasOrder only Order.onlyAt
  rw [List.any_map, List.any_filter, placed]
  refine congrArg (List.any _) (funext fun order => ?_)
  exact congrArg (· && _) Bool.beq_comm

/-- So the units bought are the same there. -/
theorem boughtTokens_only {i : Nat}
    (placed : book.auctionIndex? number = some i) :
    (book.only number).boughtTokens 0 = book.boughtTokens i := by
  unfold boughtTokens only Order.onlyAt
  rw [List.filter_map, List.foldl_map, List.filter_filter, placed]
  refine congrArg (List.foldl _ 0) (List.filter_congr fun order _ => ?_)
  show (true && order.status == .bought && (i == order.auctionIndex)) = _
  rw [Bool.true_and, Bool.and_comm, Bool.beq_comm]

/-- A bid does in the part what it does in the whole. -/
theorem only_placeBid (sight : book.Sight number summary) :
    (book.placeBid summary payment).only number
      = (book.only number).placeBid summary payment := by
  unfold placeBid
  cases summary.action with
  | bid bid =>
      cases sight with
      | @here i auction whole part placed =>
          rw [whole, part]
          dsimp only
          rw [hasOrder_only placed]
          split
          · rfl
          · split
            · rw [only_advanceAuction, only_addOrder, only_advanceOrders placed]
              · rfl
              · exact placed
              · exact placed
            · rw [only_addOrder, only_advanceOrders placed]
              · rfl
              · exact placed
      | apart unseen elsewhere =>
          rw [auctionFor?_eq_none unseen]
          split
          next hfound =>
            have hne := ne_of_auctionFor? elsewhere hfound
            split
            · rfl
            · split
              · rw [only_advanceAuction_of_ne, only_addOrder_of_ne,
                  only_advanceOrders_of_ne hne]
                · exact hne
                · exact hne
              · rw [only_addOrder_of_ne, only_advanceOrders_of_ne hne]
                exact hne
          next => rfl
  | _ => rfl

/-- So does a purchase. -/
theorem only_buyTokens (sight : book.Sight number summary) :
    (book.buyTokens summary payment).only number
      = (book.only number).buyTokens summary payment := by
  unfold buyTokens
  cases summary.action with
  | bought purchase =>
      cases sight with
      | @here i auction whole part placed =>
          rw [whole, part]
          dsimp only
          rw [hasOrder_only placed]
          split
          · rfl
          · generalize hwhole : book.addOrder (.ofAction i summary payment
              purchase.buyer purchase.price purchase.quantity .bought) = bought
            have hbought : bought.only number = (book.only number).addOrder
                (.ofAction 0 summary payment purchase.buyer purchase.price
                  purchase.quantity .bought) :=
              hwhole ▸ only_addOrder placed
            have hplaced : bought.auctionIndex? number = some i :=
              hwhole ▸ placed
            rw [← hbought, boughtTokens_only hplaced]
            split
            · rw [only_advanceAuction, only_advanceOrders hplaced]
              exact hplaced
            · rfl
      | apart unseen elsewhere =>
          rw [auctionFor?_eq_none unseen]
          split
          next hfound =>
            have hne := ne_of_auctionFor? elsewhere hfound
            split
            · rfl
            · dsimp only
              split
              · rw [only_advanceAuction_of_ne, only_advanceOrders_of_ne,
                  only_addOrder_of_ne]
                · exact hne
                · exact hne
                · exact hne
              · exact only_addOrder_of_ne hne
          next => rfl
  | _ => rfl

/-- So does an end. -/
theorem only_endAuction (sight : book.Sight number summary) :
    (book.endAuction summary payment).only number
      = (book.only number).endAuction summary payment := by
  unfold endAuction
  cases sight with
  | @here i auction whole part placed =>
      rw [whole, part]
      dsimp only
      split
      · rw [only_advanceOrders, only_modifyAuction placed]
        · exact fun auction => by simp
        · exact placed
      · rfl
  | apart unseen elsewhere =>
      rw [auctionFor?_eq_none unseen]
      split
      next hfound =>
        have hne := ne_of_auctionFor? elsewhere hfound
        split
        · rw [only_advanceOrders_of_ne, only_modifyAuction_of_ne hne]
          exact hne
        · rfl
      next => rfl

/-- The book with a change in place to the auction that an action finds. -/
def changeFound (book : Book) (summary : ActionSummary)
    (change : Auction → Auction) : Book :=
  match book.auctionIndexFor? summary with
  | some index => book.modifyAuction index change
  | none => book

/-- A new price is a change of the auction found. -/
theorem repriceAuction_eq {repricing : Repricing}
    (h : summary.action = .repriced repricing) (book : Book) :
    book.repriceAuction summary payment
      = book.changeFound summary fun auction =>
        (auction.payInNamed summary payment).reprice repricing.newPrice
          payment.decimals := by
  unfold repriceAuction changeFound
  rw [h]
  cases book.auctionIndexFor? summary <;> rfl

/-- So are new terms. -/
theorem updateAuction_eq {revision : Revision}
    (h : summary.action = .updated revision) (book : Book) :
    book.updateAuction summary payment
      = book.changeFound summary fun auction =>
        (auction.payInNamed summary payment).revise revision
          payment.decimals := by
  unfold updateAuction changeFound
  rw [h]
  cases book.auctionIndexFor? summary <;> rfl

/-- A change of the auction found is one in the part, or changes another
auction than that. -/
theorem only_changeFound (sight : book.Sight number summary)
    {change : Auction → Auction}
    (hname : ∀ auction, (change auction).name = auction.name) :
    (book.changeFound summary change).only number
      = (book.only number).changeFound summary change := by
  unfold changeFound
  cases sight with
  | here whole part placed =>
      rw [((auctionFor?_eq_some_iff ..).1 whole).1,
        ((auctionFor?_eq_some_iff ..).1 part).1]
      exact only_modifyAuction placed hname
  | apart unseen elsewhere =>
      rw [unseen]
      split
      next index hfound =>
        exact only_modifyAuction_of_ne (elsewhere index hfound) change
      next => rfl

/-- So a listing is closed in the part as in the whole. -/
theorem only_closeAuction (sight : book.Sight number summary) :
    (book.closeAuction summary).only number
      = (book.only number).closeAuction summary :=
  only_changeFound sight fun auction => auction.name_advance .closed

/-- A price is changed in the part as in the whole. -/
theorem only_repriceAuction (sight : book.Sight number summary)
    {repricing : Repricing} (h : summary.action = .repriced repricing) :
    (book.repriceAuction summary payment).only number
      = (book.only number).repriceAuction summary payment := by
  rw [repriceAuction_eq h, repriceAuction_eq h]
  exact only_changeFound sight fun auction => by simp

/-- Terms are changed in the part as in the whole. -/
theorem only_updateAuction (sight : book.Sight number summary)
    {revision : Revision} (h : summary.action = .updated revision) :
    (book.updateAuction summary payment).only number
      = (book.only number).updateAuction summary payment := by
  rw [updateAuction_eq h, updateAuction_eq h]
  exact only_changeFound sight fun auction => by simp

/-- An opening under the number of the part is one there. -/
theorem only_openAuction (h : book.roster.Sound) {opening : Opening}
    (haction : summary.action = .started opening)
    (hnumber : opening.auctionId = number) :
    (book.openAuction summary payment).only number
      = (book.only number).openAuction summary payment := by
  unfold openAuction
  rw [haction]
  dsimp only
  rw [hnumber, auctionIndex?_only h, if_pos rfl]
  cases hfree : book.auctionIndex? number with
  | some index => rfl
  | none => exact only_addAuction h hnumber hfree

/-- An opening under another number does not show in the part. -/
theorem only_openAuction_of_ne (h : book.roster.Sound) {opening : Opening}
    (haction : summary.action = .started opening)
    (hnumber : opening.auctionId ≠ number) :
    (book.openAuction summary payment).only number = book.only number := by
  unfold openAuction
  rw [haction]
  dsimp only
  split
  · rfl
  · exact only_addAuction_of_ne h hnumber

/-- Offers are in every part, so one that is made is made in each. -/
theorem only_makeOffer :
    (book.makeOffer summary payment).only number
      = (book.only number).makeOffer summary payment := by
  unfold makeOffer
  split
  next made _ =>
    rw [show (book.only number).offerIndex? made.offerId
      = book.offerIndex? made.offerId from rfl]
    split <;> rfl
  next => rfl

/-- One that is taken back is taken back in each. -/
theorem only_withdrawOffer :
    (book.withdrawOffer summary).only number
      = (book.only number).withdrawOffer summary := by
  unfold withdrawOffer
  split
  next withdrawn _ =>
    rw [show (book.only number).offerIndex? withdrawn.offerId
      = book.offerIndex? withdrawn.offerId from rfl]
    split <;> rfl
  next => rfl

/-- Changing an offer moves no auction. -/
theorem Sight.modifyOffer (sight : book.Sight number summary) (index : Nat)
    (change : Offer → Offer) :
    (book.modifyOffer index change).Sight number summary := by
  cases sight with
  | here whole part placed => exact .here whole part placed
  | apart unseen elsewhere => exact .apart unseen elsewhere

/-- An acceptance takes the offer in every part, and closes a listing in the
part that sees it. -/
theorem only_acceptOffer (sight : book.Sight number summary) :
    (book.acceptOffer summary).only number
      = (book.only number).acceptOffer summary := by
  unfold acceptOffer
  split
  next taken _ =>
    rw [show (book.only number).offerIndex? taken.offerId
      = book.offerIndex? taken.offerId from rfl]
    split
    · exact only_closeAuction (sight.modifyOffer _ _)
    · rfl
  next => rfl

/-- So does the acceptance of an offer to everyone. -/
theorem only_acceptGlobalOffer (sight : book.Sight number summary) :
    (book.acceptGlobalOffer summary).only number
      = (book.only number).acceptGlobalOffer summary := by
  unfold acceptGlobalOffer
  split
  next taken _ =>
    rw [show (book.only number).offerAcceptedBy? summary.txHash
      = book.offerAcceptedBy? summary.txHash from rfl, offers_only]
    split
    · rfl
    · exact only_closeAuction (sight.modifyOffer _ _)
    · exact only_closeAuction sight
  next => rfl

/-- Without its auction an action does nothing. -/
theorem placeBid_of_unknown (h : book.auctionIndexFor? summary = none) :
    book.placeBid summary payment = book := by
  unfold placeBid
  rw [auctionFor?_eq_none h]
  cases summary.action <;> rfl

/-- A purchase in an auction that is not there does nothing. -/
theorem buyTokens_of_unknown (h : book.auctionIndexFor? summary = none) :
    book.buyTokens summary payment = book := by
  unfold buyTokens
  rw [auctionFor?_eq_none h]
  cases summary.action <;> rfl

/-- An end of an auction that is not there does nothing. -/
theorem endAuction_of_unknown (h : book.auctionIndexFor? summary = none) :
    book.endAuction summary payment = book := by
  unfold endAuction
  rw [auctionFor?_eq_none h]

/-- Closing a listing that is not there does nothing. -/
theorem closeAuction_of_unknown (h : book.auctionIndexFor? summary = none) :
    book.closeAuction summary = book := by
  unfold closeAuction
  rw [h]

/-- A price for a listing that is not there does nothing. -/
theorem repriceAuction_of_unknown (h : book.auctionIndexFor? summary = none) :
    book.repriceAuction summary payment = book := by
  unfold repriceAuction
  rw [h]
  cases summary.action <;> rfl

/-- Terms for a listing that is not there do nothing. -/
theorem updateAuction_of_unknown (h : book.auctionIndexFor? summary = none) :
    book.updateAuction summary payment = book := by
  unfold updateAuction
  rw [h]
  cases summary.action <;> rfl

end Book

-- ======================================================= whose action it is

/-- The action is one on an auction, and not on the auction of this number. -/
def ActionSummary.Elsewhere (number : Nat) (summary : ActionSummary) : Prop :=
  match summary.action with
  | .started opening => opening.auctionId ≠ number
  | .bid bid => bid.auctionId ≠ number
  | .bought purchase => purchase.auctionId ≠ number
  | .ended ending => ending.auctionId ≠ number
  | .closed withdrawal => withdrawal.auctionId ≠ number
  | .repriced repricing => repricing.auctionId ≠ number
  | .updated revision => revision.auctionId ≠ number
  | _ => False

/-- What an action does to the part, it does there by itself. -/
theorem Handler.only_apply {book : Book} {number : Nat}
    {summary : ActionSummary} (h : book.Numbered)
    (hhere : ¬ summary.Elsewhere number) (payment : Payment) :
    ((ofKind summary.kind).apply book summary payment).only number
      = (ofKind summary.kind).apply (book.only number) summary payment := by
  have sight := h.sight number summary
  unfold ofKind ActionSummary.kind
  unfold ActionSummary.Elsewhere at hhere
  cases haction : summary.action with
  | started opening =>
      rw [haction] at hhere
      exact Book.only_openAuction h.sound haction (Decidable.not_not.1 hhere)
  | bid bid => exact Book.only_placeBid sight
  | bought purchase => exact Book.only_buyTokens sight
  | ended ending => exact Book.only_endAuction sight
  | closed withdrawal => exact Book.only_closeAuction sight
  | repriced repricing => exact Book.only_repriceAuction sight haction
  | updated revision => exact Book.only_updateAuction sight haction
  | offerCreated made => exact Book.only_makeOffer
  | offerAccepted taken => exact Book.only_acceptOffer sight
  | offerClosed withdrawn => exact Book.only_withdrawOffer
  | globalOfferAccepted taken => exact Book.only_acceptGlobalOffer sight

/-- An action elsewhere names the listing that it is on. -/
theorem ActionSummary.Elsewhere.exists_listing {number : Nat}
    {summary : ActionSummary} (h : summary.Elsewhere number) :
    ∃ listing, summary.listing? = some listing
      ∧ listing.auctionId ≠ number := by
  unfold ActionSummary.Elsewhere at h
  unfold ActionSummary.listing?
  cases haction : summary.action <;> rw [haction] at h
  all_goals first | exact h.elim | exact ⟨_, rfl, h⟩

/-- What an action does elsewhere, the part does not see. -/
theorem Handler.only_apply_of_elsewhere {book : Book} {number : Nat}
    {summary : ActionSummary} (h : book.Numbered)
    (helsewhere : summary.Elsewhere number) (payment : Payment) :
    ((ofKind summary.kind).apply book summary payment).only number
      = book.only number := by
  have sight := h.sight number summary
  have unseen : (book.only number).auctionIndexFor? summary = none := by
    obtain ⟨listing, hlisting, hne⟩ := helsewhere.exists_listing
    exact Book.unseen_of_listing h hlisting hne
  unfold ofKind ActionSummary.kind
  unfold ActionSummary.Elsewhere at helsewhere
  cases haction : summary.action <;> rw [haction] at helsewhere
  case started opening =>
    exact Book.only_openAuction_of_ne h.sound haction helsewhere
  case bid bid =>
    exact (Book.only_placeBid sight).trans (Book.placeBid_of_unknown unseen)
  case bought purchase =>
    exact (Book.only_buyTokens sight).trans (Book.buyTokens_of_unknown unseen)
  case ended ending =>
    exact (Book.only_endAuction sight).trans (Book.endAuction_of_unknown unseen)
  case closed withdrawal =>
    exact (Book.only_closeAuction sight).trans
      (Book.closeAuction_of_unknown unseen)
  case repriced repricing =>
    exact (Book.only_repriceAuction sight haction).trans
      (Book.repriceAuction_of_unknown unseen)
  case updated revision =>
    exact (Book.only_updateAuction sight haction).trans
      (Book.updateAuction_of_unknown unseen)
  all_goals exact helsewhere.elim

/-- A priced action that is not elsewhere has no other auction. -/
theorem ActionSummary.auctionId_of_isPriced {number : Nat}
    {summary : ActionSummary} (hhere : ¬ summary.Elsewhere number)
    (hpriced : summary.kind.isPriced = true) {listing : Listing}
    (hlisting : summary.listing? = some listing) :
    listing.auctionId = number := by
  unfold Elsewhere at hhere
  unfold listing? at hlisting
  unfold kind at hpriced
  cases haction : summary.action <;> rw [haction] at hhere hpriced hlisting
  -- an offer that is made has no listing, and the other offers have no price
  case offerCreated => cases hlisting
  all_goals first
    | cases hpriced; done
    | cases hlisting; exact Decidable.not_not.1 hhere

/-- An action is quoted in the part as in the whole book. -/
theorem Config.quote_only (config : Config) {book : Book} {number : Nat}
    {summary : ActionSummary} (h : book.Numbered)
    (hhere : ¬ summary.Elsewhere number) :
    config.quote (book.only number) summary = config.quote book summary := by
  by_cases hpriced : summary.kind.isPriced = true
  · suffices hterms : (book.only number).terms? summary = book.terms? summary by
      rw [quote_eq, quote_eq, hterms]
    unfold Book.terms?
    cases h.sight number summary with
    | here whole part placed =>
        rw [whole, part]
        rfl
    | apart unseen elsewhere =>
        have hunknown : book.auctionIndexFor? summary = none := by
          rw [Option.eq_none_iff_forall_ne_some]
          intro i hfound
          refine elsewhere i hfound ?_
          rw [Book.auctionIndexFor?_byAuctionId h.lookup] at hfound
          obtain ⟨listing, hlisting, hindex⟩ :=
            Option.bind_eq_some_iff.1 hfound
          rwa [summary.auctionId_of_isPriced hhere hpriced hlisting] at hindex
        rw [Book.auctionFor?_eq_none unseen, Book.auctionFor?_eq_none hunknown]
  · unfold quote
    simp [hpriced]

end MarketReplay
