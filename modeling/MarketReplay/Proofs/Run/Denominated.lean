/-
Prices in whole units, and the token they are in.

An auction keeps its bounds beside their value in whole units of the token it
is paid in. Opening and repricing write both, by the decimals that the payment
was settled with, and these are the decimals of the payment's token
(`Config.decimals_of_price`), which is the one that the action names, or else
that of its auction (`Config.identifier_of_price`). So bounds and values agree
as long as an action that leaves the price alone does not take its auction to a
token of other decimals (`Book.KeepsUnits`).

Two actions may do that: an ending, and an update without a price. Then the
values are still in units of the token from before, and agree with the bounds
no more (`dispatched_not_denominated`). A maximum of zero is none, and
repricing leaves its value alone; that matters only among tokens in which zero
comes out differently.
-/
import MarketReplay.Proofs.Run.Redispatch

namespace MarketReplay

-- ================================================================ payments

namespace Config

variable {config : Config} {answer : String → Except RunError (Option Token)}
  {book : Book} {summary : ActionSummary} {payment : Payment}

/-- The decimals of a token: those of the chain's own token for this one and
for one that nobody knows, and else what the token service says. -/
def decimalsOf (config : Config) (answer : String → Except RunError (Option Token))
    (identifier : String) : Nat :=
  if identifier = config.nativeToken then config.nativeDecimals
  else match answer identifier with
    | .ok (some token) => token.decimals
    | _ => config.nativeDecimals

/-- An action is paid in the chain's own token, or in one that is another. -/
theorem quote_cases (config : Config) (book : Book) (summary : ActionSummary) :
    config.quote book summary = .settled config.native
      ∨ ∃ identifier nonce, identifier ≠ config.nativeToken
        ∧ config.quote book summary = .inToken identifier nonce := by
  unfold quote
  split
  · exact .inl rfl
  dsimp only
  split
  · exact .inl rfl
  · next hother => exact .inr ⟨_, _, hother, rfl⟩

/-- What was settled, was settled with the decimals of its token. -/
theorem decimals_of_price
    (h : config.price answer (config.quote book summary) = .ok payment) :
    payment.decimals = config.decimalsOf answer payment.identifier := by
  unfold decimalsOf
  rcases config.quote_cases book summary with hown | ⟨identifier, nonce, hother, hquote⟩
  · rw [hown] at h
    cases h
    exact (if_pos rfl).symm
  · rw [hquote] at h
    change (answer identifier).map (config.settle identifier nonce) = .ok payment at h
    cases hanswer : answer identifier with
    | error error =>
      rw [hanswer] at h
      cases h
    | ok token =>
      rw [hanswer] at h
      cases h
      unfold settle
      dsimp only
      rw [if_neg hother, hanswer]
      cases token <;> rfl

/-- An action is paid in the token that it names, or else in that of its
auction. -/
theorem identifier_of_price {index : Nat} {auction : Auction}
    (h : config.price answer (config.quote book summary) = .ok payment)
    (hpriced : summary.kind.isPriced = true)
    (hauction : book.auctionFor? summary = some (index, auction)) :
    payment.identifier = summary.paymentToken.getD auction.paymentToken := by
  have hcovers := config.covers_of_price h
  have hquote : config.quote book summary
      = if summary.paymentToken.getD auction.paymentToken = config.nativeToken
        then .settled config.native
        else .inToken (summary.paymentToken.getD auction.paymentToken)
          ((summary.paymentNonce <|> some auction.paymentNonce).getD 0) := by
    unfold quote
    rw [hpriced, hauction]
    cases summary.paymentToken <;> rfl
  rw [hquote] at hcovers
  split at hcovers
  · next hown =>
    rw [show payment = config.native from hcovers]
    exact hown.symm
  · exact congrArg Prod.fst (show payment.terms = _ from hcovers)

end Config

-- ============================================================= one auction

/-- Zero is the same in whole units of every token. -/
def ZeroAlike (decimals : String → Nat) : Prop :=
  ∀ token other, denominate 0 (decimals token) = denominate 0 (decimals other)

-- A count of decimals beyond the signed range counts as a negative power of
-- ten; far enough beyond, the power vanishes and the quotient is no number.
example : denominate 0 (twoTo 32 - 400) ≠ denominate 0 18 := by decide +kernel

/-- The bounds of an auction agree with their values in whole units of the
token that it is paid in. -/
structure Auction.Denominated (decimals : String → Nat) (auction : Auction) :
    Prop where
  minBid : auction.minBidDenominated
    = denominate auction.minBid (decimals auction.paymentToken)
  maxBid : auction.maxBid ≠ 0 ∨ ZeroAlike decimals →
    auction.maxBidDenominated
      = denominate auction.maxBid (decimals auction.paymentToken)

/-- The action may change the token of its auction without a price. -/
def ActionSummary.LeavesPrice (summary : ActionSummary) : Prop :=
  match summary.action with
  | .ended _ => True
  | .updated revision => revision.newPrice = none
  | _ => False

theorem ActionSummary.isPriced_of_action {summary : ActionSummary}
    {action : Action} (haction : summary.action = action)
    (h : action.kind.isPriced = true) : summary.kind.isPriced = true := by
  rwa [kind, haction]

/-- The payment has the decimals of its token, and this is the token that the
action names, or else that of the auction. -/
structure Payment.Suits (decimals : String → Nat) (payment : Payment)
    (summary : ActionSummary) (auction : Auction) : Prop where
  decimals_eq : payment.decimals = decimals payment.identifier
  identifier_eq :
    payment.identifier = summary.paymentToken.getD auction.paymentToken

namespace Auction

variable {decimals : String → Nat} {auction : Auction} {summary : ActionSummary}
  {payment : Payment}

/-- An auction opens with bounds and values of one payment. -/
theorem denominated_ofOpening (opening : Opening)
    (h : payment.decimals = decimals payment.identifier) :
    (ofOpening summary opening payment).Denominated decimals := by
  constructor
  · show denominate opening.minBid payment.decimals = _
    rw [h]
    rfl
  · intro _
    show denominate opening.maxBid payment.decimals = _
    rw [h]
    rfl

theorem Denominated.advance (h : auction.Denominated decimals)
    (next : AuctionStatus) : (auction.advance next).Denominated decimals :=
  ⟨h.minBid, h.maxBid⟩

/-- The auction is then paid in the token of the payment. -/
theorem paymentToken_payInNamed (h : payment.Suits decimals summary auction) :
    (auction.payInNamed summary payment).paymentToken = payment.identifier := by
  have hidentifier := h.identifier_eq
  unfold payInNamed
  cases hnamed : summary.paymentToken with
  | none =>
    rw [hnamed] at hidentifier
    exact hidentifier.symm
  | some token => rfl

/-- Bounds and values are as before. -/
theorem bounds_payInNamed (auction : Auction) (summary : ActionSummary)
    (payment : Payment) :
    (auction.payInNamed summary payment).minBid = auction.minBid
      ∧ (auction.payInNamed summary payment).minBidDenominated
          = auction.minBidDenominated
      ∧ (auction.payInNamed summary payment).maxBid = auction.maxBid
      ∧ (auction.payInNamed summary payment).maxBidDenominated
          = auction.maxBidDenominated := by
  unfold payInNamed
  split <;> exact ⟨rfl, rfl, rfl, rfl⟩

/-- A token of the same decimals may take the place of the token. -/
theorem Denominated.payInNamed (h : auction.Denominated decimals)
    (hsuits : payment.Suits decimals summary auction)
    (hunits : decimals payment.identifier = decimals auction.paymentToken) :
    (auction.payInNamed summary payment).Denominated decimals := by
  have htoken := paymentToken_payInNamed hsuits
  obtain ⟨hmin, hminValue, hmax, hmaxValue⟩ :=
    auction.bounds_payInNamed summary payment
  constructor
  · rw [hminValue, hmin, htoken, hunits]
    exact h.minBid
  · rw [hmaxValue, hmax, htoken, hunits]
    exact h.maxBid

/-- A new price is written in whole units of the token that is paid in. -/
theorem Denominated.reprice (h : auction.Denominated decimals)
    (hsuits : payment.Suits decimals summary auction) (price : Nat) :
    ((auction.payInNamed summary payment).reprice price
      payment.decimals).Denominated decimals := by
  have htoken := paymentToken_payInNamed hsuits
  obtain ⟨-, -, hmax, hvalue⟩ := auction.bounds_payInNamed summary payment
  generalize auction.payInNamed summary payment = paid at htoken hmax hvalue ⊢
  unfold Auction.reprice
  dsimp only
  split
  case isTrue hzero =>
    constructor
    · dsimp only
      rw [htoken, hsuits.decimals_eq]
    · -- a maximum of zero keeps the value that it had in the token before
      intro halike
      have halike := halike.resolve_left (not_not_intro hzero)
      dsimp only
      rw [hvalue, h.maxBid (.inr halike), ← hmax, hzero]
      exact halike _ _
  case isFalse =>
    constructor
    · dsimp only
      rw [htoken, hsuits.decimals_eq]
    · intro _
      dsimp only
      rw [htoken, hsuits.decimals_eq]

/-- So is the price of an update, and without one the decimals stay. -/
theorem Denominated.revise (h : auction.Denominated decimals)
    (hsuits : payment.Suits decimals summary auction) {revision : Revision}
    (hunits : revision.newPrice = none →
      decimals payment.identifier = decimals auction.paymentToken) :
    ((auction.payInNamed summary payment).revise revision
      payment.decimals).Denominated decimals := by
  unfold Auction.revise
  cases hnew : revision.newPrice with
  | some price =>
    have hpriced := h.reprice hsuits price
    cases revision.deadline <;> exact ⟨hpriced.minBid, hpriced.maxBid⟩
  | none =>
    have hpaid := h.payInNamed hsuits (hunits hnew)
    cases revision.deadline <;> exact ⟨hpaid.minBid, hpaid.maxBid⟩

end Auction

-- ================================================================ the book

namespace Book

variable {decimals : String → Nat} {book : Book} {summary : ActionSummary}
  {payment : Payment}

/-- The bounds of all auctions agree with their values. -/
def Denominated (decimals : String → Nat) (book : Book) : Prop :=
  ∀ auction ∈ book.auctions, auction.Denominated decimals

/-- A change in place keeps that if it does so for the auction in that
place. -/
theorem Denominated.modifyAuction (h : book.Denominated decimals) {index : Nat}
    {change : Auction → Auction}
    (hchange : ∀ auction, book.auctions[index]? = some auction →
      auction.Denominated decimals → (change auction).Denominated decimals) :
    (book.modifyAuction index change).Denominated decimals := by
  intro auction hmem
  obtain ⟨i, hi⟩ := List.getElem?_of_mem hmem
  unfold Book.modifyAuction at hi
  rw [List.getElem?_modify] at hi
  obtain ⟨old, hold, rfl⟩ := Option.map_eq_some_iff.1 hi
  have hbefore := h old (List.mem_of_getElem? hold)
  split
  · next hindex => exact hchange old (hindex ▸ hold) hbefore
  · exact hbefore

theorem Denominated.advanceAuction (h : book.Denominated decimals) (index : Nat)
    (next : AuctionStatus) :
    (book.advanceAuction index next).Denominated decimals :=
  h.modifyAuction fun _ _ hauction => hauction.advance next

/-- A book stays in agreement with an auction that is in agreement behind the
others. -/
theorem Denominated.addAuction (h : book.Denominated decimals) {auction : Auction}
    (hauction : auction.Denominated decimals) :
    (book.addAuction auction).Denominated decimals := by
  intro other hmem
  rcases List.mem_append.1 hmem with hold | hnew
  · exact h other hold
  · rwa [List.mem_singleton.1 hnew]

/-- An opening is paid in the decimals of its token, and so is what it writes.
-/
theorem Denominated.openAuction (h : book.Denominated decimals)
    (hpayment : payment.decimals = decimals payment.identifier) :
    (book.openAuction summary payment).Denominated decimals := by
  unfold Book.openAuction
  split
  · split
    · exact h
    · exact h.addAuction (Auction.denominated_ofOpening _ hpayment)
  · exact h

/-- A bid writes no price into its auction. -/
theorem Denominated.placeBid (h : book.Denominated decimals) :
    (book.placeBid summary payment).Denominated decimals := by
  unfold Book.placeBid
  split
  · split
    · exact h
    · dsimp only
      split
      · exact Denominated.advanceAuction h _ _
      · exact h
  · exact h

/-- A purchase writes no price into its auction. -/
theorem Denominated.buyTokens (h : book.Denominated decimals) :
    (book.buyTokens summary payment).Denominated decimals := by
  unfold Book.buyTokens
  split
  · split
    · exact h
    · dsimp only
      split
      · exact Denominated.advanceAuction h _ _
      · exact h
  · exact h

/-- Closing a listing writes no price. -/
theorem Denominated.closeAuction (h : book.Denominated decimals) :
    (book.closeAuction summary).Denominated decimals := by
  unfold Book.closeAuction
  split
  · exact h.advanceAuction _ _
  · exact h

/-- The payment is what the book prices the action in. -/
structure Pays (decimals : String → Nat) (book : Book) (summary : ActionSummary)
    (payment : Payment) : Prop where
  decimals_eq : payment.decimals = decimals payment.identifier
  identifier_eq : ∀ index auction, summary.kind.isPriced = true →
    book.auctionFor? summary = some (index, auction) →
      payment.identifier = summary.paymentToken.getD auction.paymentToken

/-- An action that leaves the price alone names a token with the decimals of
that of its auction, if any. -/
def KeepsUnits (decimals : String → Nat) (book : Book) (summary : ActionSummary) :
    Prop :=
  ∀ index auction, book.auctionFor? summary = some (index, auction) →
    summary.LeavesPrice → ∀ token ∈ summary.paymentToken,
      decimals token = decimals auction.paymentToken

/-- The payment of a priced action suits the auction that the action finds. -/
theorem Pays.suits (h : book.Pays decimals summary payment)
    (hpriced : summary.kind.isPriced = true) {index : Nat} {auction : Auction}
    (hauction : book.auctionFor? summary = some (index, auction)) :
    payment.Suits decimals summary auction :=
  ⟨h.decimals_eq, h.identifier_eq index auction hpriced hauction⟩

/-- An action that leaves the price alone is paid in units of the same size as
its auction, if the book keeps its units. -/
theorem KeepsUnits.decimals_eq (h : book.KeepsUnits decimals summary)
    {index : Nat} {auction : Auction}
    (hauction : book.auctionFor? summary = some (index, auction))
    (hleaves : summary.LeavesPrice)
    (hsuits : payment.Suits decimals summary auction) :
    decimals payment.identifier = decimals auction.paymentToken := by
  rw [hsuits.identifier_eq]
  cases hnamed : summary.paymentToken with
  | none => rfl
  | some token => exact h index auction hauction hleaves token hnamed

/-- An ending may take the auction to its own token. The values stay right only
because that token has the same decimals. -/
theorem Denominated.endAuction (h : book.Denominated decimals)
    (hpays : book.Pays decimals summary payment)
    (hunits : book.KeepsUnits decimals summary)
    {ending : Ending} (haction : summary.action = .ended ending) :
    (book.endAuction summary payment).Denominated decimals := by
  have hpriced := ActionSummary.isPriced_of_action haction rfl
  have hleaves : summary.LeavesPrice := by
    unfold ActionSummary.LeavesPrice
    rw [haction]
    trivial
  unfold Book.endAuction
  split
  · next index found hfound =>
    split
    · refine h.modifyAuction fun auction hauction hbefore => ?_
      have hindex := ((book.auctionFor?_eq_some_iff summary).1 hfound).1
      have hfor := (book.auctionFor?_eq_some_iff summary).2 ⟨hindex, hauction⟩
      have hsuits := hpays.suits hpriced hfor
      have hsame := hunits.decimals_eq hfor hleaves hsuits
      exact (hbefore.advance .ended).payInNamed
        ⟨hsuits.decimals_eq, hsuits.identifier_eq⟩ hsame
    · exact h
  · exact h

/-- A change of price writes bounds and values anew, so that units from before
do not matter. -/
theorem Denominated.repriceAuction (h : book.Denominated decimals)
    (hpays : book.Pays decimals summary payment) :
    (book.repriceAuction summary payment).Denominated decimals := by
  unfold Book.repriceAuction
  split
  · next repricing index haction hindex =>
    have hpriced := ActionSummary.isPriced_of_action haction rfl
    refine h.modifyAuction fun auction hauction hbefore => ?_
    have hfor := (book.auctionFor?_eq_some_iff summary).2 ⟨hindex, hauction⟩
    exact hbefore.reprice (hpays.suits hpriced hfor) _
  · exact h

/-- An update either writes bounds and values anew, or names no price and keeps
the units. -/
theorem Denominated.updateAuction (h : book.Denominated decimals)
    (hpays : book.Pays decimals summary payment)
    (hunits : book.KeepsUnits decimals summary) :
    (book.updateAuction summary payment).Denominated decimals := by
  unfold Book.updateAuction
  split
  · next revision index haction hindex =>
    have hpriced := ActionSummary.isPriced_of_action haction rfl
    refine h.modifyAuction fun auction hauction hbefore => ?_
    have hfor := (book.auctionFor?_eq_some_iff summary).2 ⟨hindex, hauction⟩
    have hsuits := hpays.suits hpriced hfor
    refine hbefore.revise hsuits fun hnew => hunits.decimals_eq hfor ?_ hsuits
    unfold ActionSummary.LeavesPrice
    rw [haction]
    exact hnew
  · exact h

/-- Making an offer touches no auction. -/
theorem Denominated.makeOffer (h : book.Denominated decimals) :
    (book.makeOffer summary payment).Denominated decimals := by
  unfold Book.makeOffer
  split
  · split <;> exact h
  · exact h

/-- An acceptance may close the listing, and writes no price. -/
theorem Denominated.acceptOffer (h : book.Denominated decimals) :
    (book.acceptOffer summary).Denominated decimals := by
  unfold Book.acceptOffer
  split
  · split
    · exact Denominated.closeAuction h
    · exact h
  · exact h

/-- Withdrawing an offer touches no auction. -/
theorem Denominated.withdrawOffer (h : book.Denominated decimals) :
    (book.withdrawOffer summary).Denominated decimals := by
  unfold Book.withdrawOffer
  split
  · split <;> exact h
  · exact h

/-- A global acceptance may close the listing, and writes no price. -/
theorem Denominated.acceptGlobalOffer (h : book.Denominated decimals) :
    (book.acceptGlobalOffer summary).Denominated decimals := by
  unfold Book.acceptGlobalOffer
  split
  · split
    · exact h
    · exact Denominated.closeAuction h
    · exact h.closeAuction
  · exact h

/-- Every action keeps bounds and values in agreement, unless it leaves the
price alone and takes the auction to a token of other decimals. -/
theorem Denominated.apply (h : book.Denominated decimals)
    (hpays : book.Pays decimals summary payment)
    (hunits : book.KeepsUnits decimals summary) :
    ((Handler.ofKind summary.kind).apply book summary payment).Denominated
      decimals := by
  unfold ActionSummary.kind
  cases haction : summary.action with
  | started => exact h.openAuction hpays.decimals_eq
  | bid => exact h.placeBid
  | bought => exact h.buyTokens
  | ended => exact h.endAuction hpays hunits haction
  | closed => exact h.closeAuction
  | repriced => exact h.repriceAuction hpays
  | updated => exact h.updateAuction hpays hunits
  | offerCreated => exact h.makeOffer
  | offerAccepted => exact h.acceptOffer
  | offerClosed => exact h.withdrawOffer
  | globalOfferAccepted => exact h.acceptGlobalOffer

end Book

/-- What the book says of the payment and what the token service answers make a
payment that suits its auction. -/
theorem Config.pays_of_price {config : Config}
    {answer : String → Except RunError (Option Token)} {book : Book}
    {summary : ActionSummary} {payment : Payment}
    (h : config.price answer (config.quote book summary) = .ok payment) :
    book.Pays (config.decimalsOf answer) summary payment :=
  ⟨config.decimals_of_price h,
    fun _ _ hpriced hauction => config.identifier_of_price h hpriced hauction⟩

-- ========================================================== many dispatches

namespace Replayer

variable {σ : Type} {replayer : Replayer σ}
  {answer : String → Except RunError (Option Token)}

/-- Each action keeps the units of its auction when its turn comes. -/
def KeepsUnits (replayer : Replayer σ) (decimals : String → Nat) (book : Book)
    (world : σ) (all : List ActionSummary) : Prop :=
  ∀ before summary after, all = before ++ summary :: after →
    ∀ mid reached,
      (before.foldlM replayer.dispatch book).run world = (.ok mid, reached) →
        mid.KeepsUnits decimals summary

/-- Units that are kept all along are kept by the first dispatch, and by the
others in the book it leaves. -/
theorem KeepsUnits.cons {decimals : String → Nat} {book mid : Book}
    {world reached : σ} {first : ActionSummary} {all : List ActionSummary}
    (h : replayer.KeepsUnits decimals book world (first :: all))
    (hfirst : (replayer.dispatch book first).run world = (.ok mid, reached)) :
    book.KeepsUnits decimals first
      ∧ replayer.KeepsUnits decimals mid reached all := by
  refine ⟨h [] first all rfl book world rfl, ?_⟩
  rintro before summary after rfl next later hrun
  refine h (first :: before) summary after rfl next later ?_
  rwa [List.foldlM_cons, Call.run_bind_ok hfirst]

/-- They all do if every action that names a token carries a price, too. -/
theorem keepsUnits_of_unnamed {all : List ActionSummary}
    (h : ∀ summary ∈ all, summary.LeavesPrice → summary.paymentToken = none)
    (replayer : Replayer σ) (decimals : String → Nat) (book : Book) (world : σ) :
    replayer.KeepsUnits decimals book world all := by
  rintro before summary after rfl mid reached - index auction - hleaves token hnamed
  have hunnamed := h summary
    (List.mem_append_right before List.mem_cons_self) hleaves
  rw [hunnamed] at hnamed
  cases hnamed

/-- One dispatch after another keeps bounds and values in agreement. -/
theorem denominated_dispatches (hhandlers : replayer.handlers = .standard)
    (htoken : ∀ identifier world,
      ((replayer.services.token identifier).run world).1 = answer identifier)
    {all : List ActionSummary} {book next : Book} {world later : σ}
    (hunits : replayer.KeepsUnits (replayer.config.decimalsOf answer) book world all)
    (hbook : book.Denominated (replayer.config.decimalsOf answer))
    (hrun : (all.foldlM replayer.dispatch book).run world = (.ok next, later)) :
    next.Denominated (replayer.config.decimalsOf answer) := by
  induction all generalizing book world with
  | nil =>
    cases hrun
    exact hbook
  | cons summary all ih =>
    rw [List.foldlM_cons] at hrun
    obtain ⟨mid, reached, hdispatch, hrun⟩ := Call.of_run_bind hrun
    obtain ⟨hfirst, hrest⟩ := hunits.cons hdispatch
    refine ih hrest ?_ hrun
    obtain ⟨_, hpriced⟩ := run_dispatch hhandlers htoken book summary world
    rw [hpriced] at hdispatch
    cases hprice : replayer.config.price answer
        (replayer.config.quote book summary) with
    | error error =>
      rw [hprice] at hdispatch
      cases hdispatch
    | ok payment =>
      rw [hprice] at hdispatch
      cases hdispatch
      exact hbook.apply (Config.pays_of_price hprice) hfirst

/-- Actions are priced and dispatched, one after another, to a fresh book, the
token service answers by a function, and no action that leaves the price alone
takes its auction to a token of other decimals. Then the bounds of every auction
agree with their values in whole units of the token that it is paid in. -/
theorem dispatched_denominated (hhandlers : replayer.handlers = .standard)
    (htoken : ∀ identifier world,
      ((replayer.services.token identifier).run world).1 = answer identifier)
    (marketplace : Marketplace) {all : List ActionSummary}
    {book : Book} {world later : σ}
    (hunits : replayer.KeepsUnits (replayer.config.decimalsOf answer)
      (.empty marketplace) world all)
    (hrun : (all.foldlM replayer.dispatch (.empty marketplace)).run world
      = (.ok book, later)) :
    ∀ auction ∈ book.auctions,
      auction.Denominated (replayer.config.decimalsOf answer) :=
  denominated_dispatches hhandlers htoken hunits
    (fun _ hmem => absurd hmem List.not_mem_nil) hrun

end Replayer

namespace Sample

/-- A listing opens in the chain's own token. -/
def priceOpening : ActionSummary :=
  ⟨"opening", 3, "shelf", none, none,
    .started ⟨⟨7, "C", 1⟩, 1, "owner", 5, 5, 0, 0, 0, .nft⟩⟩

/-- It ends, and the action names no token. -/
def priceEnding : ActionSummary :=
  ⟨"ending", 5, "shelf", none, none, .ended ⟨⟨7, "C", 1⟩, some "winner", 9⟩⟩

/-- It is paid in another token from now on; its price is left alone. -/
def tokenUpdate : ActionSummary :=
  ⟨"update", 4, "shelf", some "USDC", none, .updated ⟨⟨7, "C", 1⟩, none, some 8⟩⟩

/-- The marketplace of these actions. -/
def shelf : Marketplace := ⟨"shelf", "shop", .internal, .byAuctionId⟩

end Sample

/-- A listing that takes another token together with a price, and ends. -/
theorem Replayer.dispatched_denominated_sample :
    ∃ book later,
      ([Sample.priceOpening, Sample.shelfRepricing, Sample.priceEnding].foldlM
          Sample.teller.dispatch (.empty Sample.shelf)).run Memory.empty
          = (.ok book, later)
        ∧ book.auctions.map (fun auction =>
          (auction.minBid, auction.paymentToken, auction.status))
            = [(9, "USDC", .ended)]
        ∧ ∀ auction ∈ book.auctions, auction.Denominated
          (Sample.teller.config.decimalsOf Sample.tellToken) := by
  have htoken : ∀ identifier world,
      ((Sample.teller.services.token identifier).run world).1
        = Sample.tellToken identifier := fun identifier world =>
    congrArg Prod.fst (Memory.run_token (fun _ => Sample.tellToken)
      (fun _ _ _ => .ok []) identifier world)
  have hnamed : ∀ summary ∈
      [Sample.priceOpening, Sample.shelfRepricing, Sample.priceEnding],
      summary.LeavesPrice → summary.paymentToken = none := by
    rintro _ (_ | ⟨_, _ | ⟨_, _ | ⟨_, ⟨⟩⟩⟩⟩) hleaves
    · cases hleaves
    · cases hleaves
    · rfl
  have hunits := Replayer.keepsUnits_of_unnamed hnamed Sample.teller
    (Sample.teller.config.decimalsOf Sample.tellToken) (.empty Sample.shelf)
    Memory.empty
  exact ⟨_, _, rfl, rfl,
    Replayer.dispatched_denominated rfl htoken Sample.shelf hunits rfl⟩

/-- The values of a listing do not always agree with its bounds in the token
that it is paid in: one may be given another token and no price. -/
theorem Replayer.dispatched_not_denominated :
    ¬ ∀ (all : List ActionSummary) (book : Book) (later : Memory),
      (all.foldlM Sample.teller.dispatch (.empty Sample.shelf)).run Memory.empty
          = (.ok book, later) →
        ∀ auction ∈ book.auctions,
          auction.minBidDenominated = denominate auction.minBid
              (Sample.teller.config.decimalsOf Sample.tellToken
                auction.paymentToken)
            ∧ auction.maxBidDenominated = denominate auction.maxBid
              (Sample.teller.config.decimalsOf Sample.tellToken
                auction.paymentToken) := by
  intro h
  have hvalue := (h [Sample.priceOpening, Sample.tokenUpdate] _ _ rfl _
    (List.mem_singleton_self _)).1
  have : denominate 5 18 = denominate 5 6 := hvalue
  exact absurd this (by decide +kernel)

end MarketReplay
