/-
An action that is priced anew and dispatched again.

What a book says of a payment is the token and the nonce that the auction of
the action is paid in, its terms. The first dispatch may have opened that
auction, or written the payment into it, so the second one may be priced by
what the first one wrote. It comes to the same: whoever asks for the terms of
an auction, an action leaves the answer alone, or makes it the terms of its
own payment (`Handler.termsKept_apply`), and by either the action is quoted as
before (`Config.quote_apply`). The second dispatch is therefore paid like the
first one, by the same answer of the token service, and changes nothing.
-/
import MarketReplay.Proofs.Book.Repeat
import MarketReplay.Proofs.Run.Contract
import MarketReplay.Run

namespace MarketReplay

-- ============================================================= the terms

/-- What an auction says of the payments for it: token and nonce. -/
def Auction.terms (auction : Auction) : String × Nat :=
  (auction.paymentToken, auction.paymentNonce)

def Payment.terms (payment : Payment) : String × Nat :=
  (payment.identifier, payment.nonce)

namespace Auction

variable (auction : Auction)

@[simp] theorem terms_advance (next : AuctionStatus) :
    (auction.advance next).terms = auction.terms := rfl

/-- The price is no part of the terms: they are token and nonce. -/
@[simp] theorem terms_reprice (price decimals : Nat) :
    (auction.reprice price decimals).terms = auction.terms := by
  unfold reprice
  dsimp only
  split <;> rfl

/-- A revision names price and deadline, and neither is part of the terms. -/
@[simp] theorem terms_revise (revision : Revision) (decimals : Nat) :
    (auction.revise revision decimals).terms = auction.terms := by
  unfold revise
  cases revision.newPrice <;> cases revision.deadline
  case none.none => rfl
  case none.some deadline => rfl
  case some.none price => exact auction.terms_reprice price decimals
  case some.some price deadline => exact auction.terms_reprice price decimals

/-- Paying an auction in what the action names leaves the terms alone, or makes
them those of the payment. -/
theorem terms_payInNamed (summary : ActionSummary) (payment : Payment) :
    (auction.payInNamed summary payment).terms = auction.terms
      ∨ (auction.payInNamed summary payment).terms = payment.terms := by
  unfold payInNamed
  split
  · exact .inr rfl
  · exact .inl rfl

end Auction

namespace Book

/-- The terms of the auction that an action refers to. -/
def terms? (book : Book) (summary : ActionSummary) : Option (String × Nat) :=
  (book.auctionFor? summary).map (·.2.terms)

/-- The terms for an action are as before, or those of its payment. -/
def TermsKept (summary : ActionSummary) (payment : Payment)
    (before after : Book) : Prop :=
  after.terms? summary = before.terms? summary
    ∨ after.terms? summary = some payment.terms

variable (book : Book) (summary : ActionSummary) (payment : Payment)
  (asked : ActionSummary)

/-- A change in place keeps the terms if it does so for every auction. -/
theorem termsKept_modifyAuction (index : Nat) {change : Auction → Auction}
    (h : ∀ auction, (change auction).terms = auction.terms
      ∨ (change auction).terms = payment.terms) :
    TermsKept asked payment book (book.modifyAuction index change) := by
  unfold TermsKept terms?
  rw [auctionFor?_modifyAuction, Option.map_map]
  rcases book.auctionFor? asked with _ | ⟨i, auction⟩
  · exact .inl rfl
  · by_cases hindex : index = i
    · simpa [hindex] using h auction
    · simp [hindex]

/-- Moving an auction on keeps all terms. -/
theorem termsKept_advanceAuction (index : Nat) (next : AuctionStatus) :
    TermsKept asked payment book (book.advanceAuction index next) :=
  book.termsKept_modifyAuction payment asked index fun auction =>
    .inl (auction.terms_advance next)

/-- An auction that has just opened is found, or what was found before. -/
theorem auctionIndexFor?_addAuction (auction : Auction) :
    (book.addAuction auction).auctionIndexFor? asked
        = some book.auctions.length
      ∨ (book.addAuction auction).auctionIndexFor? asked
        = book.auctionIndexFor? asked := by
  have hfile : ∀ {κ : Type} [DecidableEq κ] (index : Index κ) (key other : κ),
      (index.file key book.auctions.length).find? other
          = some book.auctions.length
        ∨ (index.file key book.auctions.length).find? other
          = index.find? other := by
    intro κ _ index key other
    rw [Index.find?_file]
    split
    · exact .inl rfl
    · exact .inr rfl
  unfold auctionIndexFor?
  cases asked.listing? with
  | none => exact .inr rfl
  | some listing =>
      rw [Option.bind_some, Option.bind_some]
      unfold listingIndex? addAuction
      cases book.marketplace.lookup with
      | byAuctionId => exact hfile book.auctionById _ listing.auctionId
      | byIdentifier =>
          exact hfile book.auctionByIdentifier _ listing.identifier

/-- An auction that is added in the terms of the payment answers whoever finds
it by these terms. -/
theorem termsKept_addAuction {auction : Auction}
    (h : auction.terms = payment.terms) :
    TermsKept asked payment book (book.addAuction auction) := by
  have hauctions : (book.addAuction auction).auctions
      = book.auctions ++ [auction] := rfl
  unfold TermsKept terms? auctionFor?
  rcases book.auctionIndexFor?_addAuction asked auction with hnew | hsame
  · right
    rw [hnew, hauctions]
    simp [h]
  · rw [hsame, hauctions]
    cases book.auctionIndexFor? asked with
    | none => exact .inl rfl
    | some i =>
        -- whatever the indices said, behind the old auctions is the new one
        rcases Nat.lt_trichotomy i book.auctions.length with hlt | rfl | hgt
        · left
          simp [List.getElem?_append_left hlt]
        · right
          simp [h]
        · left
          have hlen : (book.auctions ++ [auction]).length ≤ i := by simpa
          simp [List.getElem?_eq_none hlen,
            List.getElem?_eq_none (Nat.le_of_lt hgt)]

/-- An opening adds an auction in the terms of its payment, or nothing. -/
theorem termsKept_openAuction :
    TermsKept asked payment book (book.openAuction summary payment) := by
  unfold openAuction
  split
  · split
    · exact .inl rfl
    · exact book.termsKept_addAuction payment asked rfl
  · exact .inl rfl

/-- A bid keeps all terms. -/
theorem termsKept_placeBid :
    TermsKept asked payment book (book.placeBid summary payment) := by
  unfold placeBid
  split
  · split
    · exact .inl rfl
    · dsimp only
      split
      · exact termsKept_advanceAuction _ payment asked _ _
      · exact .inl rfl
  · exact .inl rfl

/-- A purchase keeps all terms. -/
theorem termsKept_buyTokens :
    TermsKept asked payment book (book.buyTokens summary payment) := by
  unfold buyTokens
  split
  · split
    · exact .inl rfl
    · dsimp only
      split
      · exact termsKept_advanceAuction _ payment asked _ _
      · exact .inl rfl
  · exact .inl rfl

/-- An ending may write its payment into the auction. -/
theorem termsKept_endAuction :
    TermsKept asked payment book (book.endAuction summary payment) := by
  unfold endAuction
  split
  · split
    · refine book.termsKept_modifyAuction payment asked _ fun auction => ?_
      exact (auction.advance .ended).terms_payInNamed summary payment
    · exact .inl rfl
  · exact .inl rfl

/-- Closing a listing keeps all terms. -/
theorem termsKept_closeAuction :
    TermsKept asked payment book (book.closeAuction summary) := by
  unfold closeAuction
  split
  · exact book.termsKept_advanceAuction payment asked _ _
  · exact .inl rfl

/-- A change of price may write its payment into the auction. -/
theorem termsKept_repriceAuction :
    TermsKept asked payment book (book.repriceAuction summary payment) := by
  unfold repriceAuction
  split
  · refine book.termsKept_modifyAuction payment asked _ fun auction => ?_
    rw [Auction.terms_reprice]
    exact auction.terms_payInNamed summary payment
  · exact .inl rfl

/-- An update may write its payment into the auction. -/
theorem termsKept_updateAuction :
    TermsKept asked payment book (book.updateAuction summary payment) := by
  unfold updateAuction
  split
  · refine book.termsKept_modifyAuction payment asked _ fun auction => ?_
    rw [Auction.terms_revise]
    exact auction.terms_payInNamed summary payment
  · exact .inl rfl

/-- Making an offer keeps all terms. -/
theorem termsKept_makeOffer :
    TermsKept asked payment book (book.makeOffer summary payment) := by
  unfold makeOffer
  split
  · split <;> exact .inl rfl
  · exact .inl rfl

/-- An acceptance keeps all terms, if it closes a listing or not. -/
theorem termsKept_acceptOffer :
    TermsKept asked payment book (book.acceptOffer summary) := by
  unfold acceptOffer
  split
  · split
    · exact termsKept_closeAuction (book.modifyOffer _ _) summary payment asked
    · exact .inl rfl
  · exact .inl rfl

/-- Withdrawing an offer keeps all terms. -/
theorem termsKept_withdrawOffer :
    TermsKept asked payment book (book.withdrawOffer summary) := by
  unfold withdrawOffer
  split
  · split <;> exact .inl rfl
  · exact .inl rfl

/-- A global acceptance keeps all terms, if it closes a listing or not. -/
theorem termsKept_acceptGlobalOffer :
    TermsKept asked payment book (book.acceptGlobalOffer summary) := by
  unfold acceptGlobalOffer
  split
  · split
    · exact .inl rfl
    · exact termsKept_closeAuction (book.modifyOffer _ _) summary payment asked
    · exact book.termsKept_closeAuction summary payment asked
  · exact .inl rfl

end Book

/-- Whatever its kind, an action keeps the terms for every action. -/
theorem Handler.termsKept_apply (kind : ActionKind) (book : Book)
    (summary : ActionSummary) (payment : Payment) (asked : ActionSummary) :
    Book.TermsKept asked payment book
      ((Handler.ofKind kind).apply book summary payment) := by
  unfold Handler.ofKind
  cases kind with
  | started => exact book.termsKept_openAuction summary payment asked
  | bid => exact book.termsKept_placeBid summary payment asked
  | bought => exact book.termsKept_buyTokens summary payment asked
  | ended => exact book.termsKept_endAuction summary payment asked
  | closed => exact book.termsKept_closeAuction summary payment asked
  | repriced => exact book.termsKept_repriceAuction summary payment asked
  | updated => exact book.termsKept_updateAuction summary payment asked
  | offerCreated => exact book.termsKept_makeOffer summary payment asked
  | offerAccepted => exact book.termsKept_acceptOffer summary payment asked
  | offerClosed => exact book.termsKept_withdrawOffer summary payment asked
  | globalOfferAccepted =>
      exact book.termsKept_acceptGlobalOffer summary payment asked

-- ============================================================= the quote

/-- The quote may come to this payment. -/
def Quote.Covers (payment : Payment) : Quote → Prop
  | settled native => payment = native
  | inToken identifier nonce => payment.terms = (identifier, nonce)

namespace Config

variable (config : Config) {book next : Book} {summary : ActionSummary}
  {payment : Payment}

/-- The payment that a quote comes to, given what is known of tokens. -/
def price (answer : String → Except RunError (Option Token)) :
    Quote → Except RunError Payment
  | .settled payment => .ok payment
  | .inToken identifier nonce =>
      (answer identifier).map (config.settle identifier nonce)

/-- A payment has the token and the nonce of the quote that it was priced by.
-/
theorem covers_of_price {answer : String → Except RunError (Option Token)}
    {quote : Quote} (h : config.price answer quote = .ok payment) :
    quote.Covers payment := by
  cases quote with
  | settled native =>
      cases h
      rfl
  | inToken identifier nonce =>
      cases hanswer : answer identifier with
      | error error => simp [price, hanswer, Except.map] at h
      | ok token =>
          simp only [price, hanswer, Except.map, Except.ok.injEq] at h
          rw [← h]
          rfl

/-- Pricing fails only where the token service does. -/
theorem error_of_price {answer : String → Except RunError (Option Token)}
    {quote : Quote} {error : RunError}
    (h : config.price answer quote = .error error) :
    ∃ identifier, answer identifier = .error error := by
  cases quote with
  | settled native => cases h
  | inToken identifier nonce =>
      refine ⟨identifier, ?_⟩
      cases hanswer : answer identifier with
      | ok token => simp [price, hanswer, Except.map] at h
      | error other =>
          simp only [price, hanswer, Except.map, Except.error.injEq] at h
          rw [h]

/-- How an action is quoted on some terms. -/
def quoteOn (terms : Option (String × Nat)) (summary : ActionSummary) : Quote :=
  if !summary.kind.isPriced then .settled config.native
  else
    let identifier :=
      (summary.paymentToken <|> terms.map (·.1)).getD config.nativeToken
    let nonce := (summary.paymentNonce <|> terms.map (·.2)).getD 0
    if identifier = config.nativeToken then .settled config.native
    else .inToken identifier nonce

/-- Of a book, only the terms for an action decide how it is quoted. -/
theorem quote_eq (book : Book) (summary : ActionSummary) :
    config.quote book summary
      = config.quoteOn (book.terms? summary) summary := by
  unfold quote quoteOn Book.terms?
  cases book.auctionFor? summary <;> rfl

/-- On the terms of a payment that it may come to, a quote is the same. -/
theorem quoteOn_terms {terms : Option (String × Nat)}
    (h : (config.quoteOn terms summary).Covers payment) :
    config.quoteOn (some payment.terms) summary
      = config.quoteOn terms summary := by
  unfold quoteOn at h ⊢
  by_cases hpriced : summary.kind.isPriced = true
  · simp only [hpriced, Bool.not_true, Bool.false_eq_true, if_false,
      Option.map_some] at h ⊢
    generalize hidentifier : (summary.paymentToken <|> terms.map (·.1)).getD
      config.nativeToken = identifier at h ⊢
    generalize hnonce : (summary.paymentNonce <|> terms.map (·.2)).getD 0
      = nonce at h ⊢
    by_cases hnative : identifier = config.nativeToken
    · -- the payment is in the own token, whichever way that came about
      rw [if_pos hnative] at h ⊢
      rw [show payment = config.native from h, if_pos]
      cases htoken : summary.paymentToken with
      | none => rfl
      | some token =>
          rw [htoken] at hidentifier
          exact hidentifier.trans hnative
    · rw [if_neg hnative] at h ⊢
      have hterms : payment.terms = (identifier, nonce) := h
      -- a token that is named is the payment's; if none is, the terms now say
      -- what the quote came to
      have hsame : (summary.paymentToken <|> some payment.terms.1).getD
          config.nativeToken = identifier := by
        rw [hterms]
        cases htoken : summary.paymentToken with
        | none => rfl
        | some token =>
            rw [htoken] at hidentifier
            exact hidentifier
      have hagain : (summary.paymentNonce <|> some payment.terms.2).getD 0
          = nonce := by
        rw [hterms]
        cases hnamed : summary.paymentNonce with
        | none => rfl
        | some number =>
            rw [hnamed] at hnonce
            exact hnonce
      rw [hsame, hagain, if_neg hnative]
  · simp [hpriced]

/-- An action that was dispatched is quoted as before. -/
theorem quote_apply
    (h : (config.quote book summary).Covers payment) (kind : ActionKind) :
    config.quote ((Handler.ofKind kind).apply book summary payment) summary
      = config.quote book summary := by
  rw [quote_eq] at h
  rw [quote_eq, quote_eq]
  rcases Handler.termsKept_apply kind book summary payment summary with
    hsame | hpaid
  · rw [hsame]
  · rw [hpaid]
    exact config.quoteOn_terms h

/-- A payment is priced by what the token service answers, wherever that leaves
the world. -/
theorem run_resolve {σ : Type} {token : String → Call σ (Option Token)}
    {answer : String → Except RunError (Option Token)}
    (htoken : ∀ identifier world,
      ((token identifier).run world).1 = answer identifier)
    (book : Book) (summary : ActionSummary) (world : σ) :
    ∃ later, (config.resolve token book summary).run world
      = (config.price answer (config.quote book summary), later) := by
  unfold resolve
  cases config.quote book summary with
  | settled payment => exact ⟨world, rfl⟩
  | inToken identifier nonce =>
      have hanswer := htoken identifier world
      cases hrun : (token identifier).run world with
      | mk result later =>
          rw [hrun] at hanswer
          refine ⟨later, ?_⟩
          unfold price
          dsimp only
          rw [← hanswer]
          cases result with
          | error error => rw [Call.run_bind_error hrun]; rfl
          | ok known => rw [Call.run_bind_ok hrun]; rfl

end Config

-- ======================================================== the dispatches

variable {σ : Type} {replayer : Replayer σ}
  {answer : String → Except RunError (Option Token)}

/-- The built-in handlers take every action that can be paid. -/
theorem Replayer.run_dispatch (hhandlers : replayer.handlers = .standard)
    (htoken : ∀ identifier world,
      ((replayer.services.token identifier).run world).1 = answer identifier)
    (book : Book) (summary : ActionSummary) (world : σ) :
    ∃ later, (replayer.dispatch book summary).run world
      = ((replayer.config.price answer
          (replayer.config.quote book summary)).map
            ((Handler.ofKind summary.kind).apply book summary), later) := by
  obtain ⟨later, hresolve⟩ :=
    replayer.config.run_resolve htoken book summary world
  refine ⟨later, ?_⟩
  unfold dispatch
  cases hprice : replayer.config.price answer
      (replayer.config.quote book summary) with
  | error error =>
      rw [hprice] at hresolve
      rw [Call.run_bind_error hresolve]
      rfl
  | ok payment =>
      rw [hprice] at hresolve
      rw [Call.run_bind_ok hresolve, hhandlers, Registry.dispatch_standard,
        Call.run_liftM]
      rfl

/-- An action is priced and dispatched, in whatever state the book is, and the
token service answers by a function. Either it fails, as the token service
fails for some token; or it leaves a book that is the same after the action is
priced by this book and dispatched to it again. -/
theorem Replayer.dispatch_again (hhandlers : replayer.handlers = .standard)
    (htoken : ∀ identifier world,
      ((replayer.services.token identifier).run world).1 = answer identifier)
    (book : Book) (summary : ActionSummary) (world : σ) :
    (∃ identifier error later, answer identifier = .error error
        ∧ (replayer.dispatch book summary).run world = (.error error, later))
      ∨ ∃ next later,
        (replayer.dispatch book summary).run world = (.ok next, later)
          ∧ ∀ other, ∃ last,
            (replayer.dispatch next summary).run other = (.ok next, last) := by
  obtain ⟨later, hrun⟩ := run_dispatch hhandlers htoken book summary world
  cases hprice : replayer.config.price answer
      (replayer.config.quote book summary) with
  | error error =>
      left
      obtain ⟨identifier, hanswer⟩ := replayer.config.error_of_price hprice
      rw [hprice] at hrun
      exact ⟨identifier, error, later, hanswer, hrun⟩
  | ok payment =>
      right
      rw [hprice] at hrun
      refine ⟨_, later, hrun, fun other => ?_⟩
      obtain ⟨last, hlast⟩ := run_dispatch hhandlers htoken
        ((Handler.ofKind summary.kind).apply book summary payment) summary other
      rw [replayer.config.quote_apply (Config.covers_of_price _ hprice),
        hprice] at hlast
      refine ⟨last, hlast.trans ?_⟩
      rw [Except.map, Handler.apply_again]

namespace Sample

/-- A token service that knows one token, and fails for none but "down". -/
def tellToken (identifier : String) : Except RunError (Option Token) :=
  if identifier = "down" then .error (.token "down")
  else if identifier = "USDC" then .ok (some ⟨"USDC", 6⟩)
  else .ok none

/-- Replays with this service. -/
def teller : Replayer Memory :=
  ⟨.standard, Memory.servicesBy (fun _ => tellToken) fun _ _ _ => .ok [],
    .standard⟩

/-- A listing in the chain's own token. -/
def shelfBook : Book :=
  (Book.empty ⟨"shelf", "shop", .internal, .byAuctionId⟩).openAuction
    ⟨"opening", 3, "shelf", none, none,
      .started ⟨⟨7, "C", 1⟩, 1, "owner", 5, 5, 0, 0, 0, .nft⟩⟩ ⟨"EGLD", 18, 0⟩

/-- It gets a price in another token. -/
def shelfRepricing : ActionSummary :=
  ⟨"repricing", 4, "shelf", some "USDC", none, .repriced ⟨⟨7, "C", 1⟩, 9⟩⟩

end Sample

/-- A listing is priced in another token, and once more. -/
theorem Replayer.dispatch_again_sample :
    ∃ next later,
      (Sample.teller.dispatch Sample.shelfBook Sample.shelfRepricing).run
          Memory.empty = (.ok next, later)
        ∧ next.auctions.map (fun auction =>
          (auction.minBid, auction.maxBid, auction.paymentToken))
            = [(9, 9, "USDC")]
        ∧ ∀ other, ∃ last,
          (Sample.teller.dispatch next Sample.shelfRepricing).run other
            = (.ok next, last) := by
  have htoken : ∀ identifier world,
      ((Sample.teller.services.token identifier).run world).1
        = Sample.tellToken identifier := fun identifier world =>
    congrArg Prod.fst (Memory.run_token (fun _ => Sample.tellToken)
      (fun _ _ _ => .ok []) identifier world)
  obtain ⟨later, hfirst⟩ := Replayer.run_dispatch rfl htoken
    Sample.shelfBook Sample.shelfRepricing Memory.empty
  rcases Replayer.dispatch_again rfl htoken Sample.shelfBook
    Sample.shelfRepricing Memory.empty with
    ⟨_, _, _, -, hfailed⟩ | ⟨next, _, hnext, hagain⟩
  · rw [hfirst] at hfailed
    cases hfailed
  · refine ⟨next, _, hnext, ?_, hagain⟩
    rw [hfirst] at hnext
    cases hnext
    rfl

end MarketReplay
