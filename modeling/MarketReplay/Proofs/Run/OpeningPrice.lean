/-
What a new listing is priced in.

An opening should be priced by its own transaction, and mostly is: the auction
that it refers to is the one that it opens, and while that is not there, no
auction's terms are asked (`Book.terms?_of_absent`). Where auctions are found
by token, though, an earlier auction of the same token is found in its place.
What the opening leaves open is then taken from the latest of these, as if the
action had named it (`Book.terms?_of_isLatest`, `Config.price_quoteOn_some`),
and a token that was once listed in one token of payment is listed in it again,
in bounds and values, when nothing says so (`opened_at_terms_of_another`).
-/
import MarketReplay.Proofs.Book.Relisting
import MarketReplay.Proofs.Run.Redispatch

namespace MarketReplay

-- ====================================================== one's own payment

/-- The action with the given terms for what it leaves open. -/
def ActionSummary.onTerms (summary : ActionSummary) (terms : String × Nat) :
    ActionSummary :=
  { summary with
    paymentToken := summary.paymentToken <|> some terms.1
    paymentNonce := summary.paymentNonce <|> some terms.2 }

namespace Config

variable (config : Config) (answer : String → Except RunError (Option Token))
  {summary : ActionSummary}

/-- The payment that an action names by itself: in the chain's own token unless
it names another, under nonce zero unless it names one. -/
def ownPayment (summary : ActionSummary) : Except RunError Payment :=
  match summary.paymentToken with
  | none => .ok config.native
  | some token =>
      if token = config.nativeToken then .ok config.native
      else (answer token).map (config.settle token (summary.paymentNonce.getD 0))

/-- The action leaves open in which token it is paid, or under which nonce; the
chain's own token has but one. -/
def LeavesOpen (summary : ActionSummary) : Prop :=
  summary.paymentToken = none
    ∨ summary.paymentToken ≠ some config.nativeToken ∧ summary.paymentNonce = none

/-- Without terms from elsewhere an action is paid as it says. -/
theorem price_quoteOn_none (hpriced : summary.kind.isPriced = true) :
    config.price answer (config.quoteOn none summary)
      = config.ownPayment answer summary := by
  unfold quoteOn ownPayment
  rw [hpriced]
  cases summary.paymentToken with
  | none => simp [price]
  | some token =>
      by_cases hnative : token = config.nativeToken
      · simp [hnative, price]
      · cases summary.paymentNonce <;> simp [hnative, price]

/-- With terms from elsewhere it is paid as if it had named them, where it
leaves them open. -/
theorem price_quoteOn_some (hpriced : summary.kind.isPriced = true)
    (terms : String × Nat) :
    config.price answer (config.quoteOn (some terms) summary)
      = config.ownPayment answer (summary.onTerms terms) := by
  have hsame : config.quoteOn (some terms) summary
      = config.quoteOn none (summary.onTerms terms) := by
    unfold quoteOn ActionSummary.onTerms ActionSummary.kind
    cases summary.paymentToken <;> cases summary.paymentNonce <;> rfl
  have hkind : (summary.onTerms terms).kind = summary.kind := rfl
  rw [hsame]
  exact config.price_quoteOn_none answer (hkind ▸ hpriced)

/-- An action that leaves nothing open is paid as it says, on any terms. -/
theorem ownPayment_onTerms (h : ¬ config.LeavesOpen summary)
    (terms : String × Nat) :
    config.ownPayment answer (summary.onTerms terms)
      = config.ownPayment answer summary := by
  unfold LeavesOpen at h
  unfold ownPayment ActionSummary.onTerms
  cases htoken : summary.paymentToken with
  | none => exact absurd (.inl htoken) h
  | some token =>
      by_cases hnative : token = config.nativeToken
      · simp [hnative]
      · cases hnonce : summary.paymentNonce with
        | none =>
            exact absurd (.inr ⟨by simp [htoken, hnative], hnonce⟩) h
        | some nonce => rfl

end Config

-- ============================================================= whose terms

theorem ActionSummary.listing?_of_started {summary : ActionSummary}
    {opening : Opening} (haction : summary.action = .started opening) :
    summary.listing? = some opening.toListing := by
  unfold listing?
  rw [haction]
  rfl

namespace Book

variable {marketplace : Marketplace} {past : List Deed} {book : Book}
  {summary : ActionSummary} {opening : Opening}

/-- The token of an opening was listed before, and it is by their tokens that
auctions are found. -/
def Relists (book : Book) (opening : Opening) : Prop :=
  book.marketplace.lookup = .byIdentifier
    ∧ ∃ earlier ∈ book.auctions, earlier.Sells opening.collection opening.nonce

/-- An opening whose number is free, and whose token was not listed before if
that matters, finds no terms. -/
theorem terms?_of_absent (hbook : after marketplace past = .ok book)
    (haction : summary.action = .started opening)
    (hfree : book.auctionIndex? opening.auctionId = none)
    (hfirst : ¬ book.Relists opening) : book.terms? summary = none := by
  have hlisting := ActionSummary.listing?_of_started haction
  have hindex : book.auctionIndexFor? summary = none := by
    cases hlookup : book.marketplace.lookup with
    | byAuctionId =>
        -- the number that it refers to is the one that is free
        unfold auctionIndexFor? listingIndex?
        rw [hlisting, hlookup]
        exact hfree
    | byIdentifier =>
        rw [auctionIndexFor?_byIdentifier hlookup hlisting,
          auctionIndexByIdentifier?_eq_none_iff hbook]
        exact fun earlier hmem hsells => hfirst ⟨hlookup, earlier, hmem, hsells⟩
  unfold terms? auctionFor?
  rw [hindex]
  rfl

/-- Where auctions are found by token, an opening finds the terms of the latest
auction of its own. -/
theorem terms?_of_isLatest (hbook : after marketplace past = .ok book)
    (haction : summary.action = .started opening)
    (hlookup : book.marketplace.lookup = .byIdentifier) {i : Nat}
    {earlier : Auction}
    (hlatest : book.IsLatest opening.collection opening.nonce i)
    (hearlier : book.auctions[i]? = some earlier) :
    book.terms? summary = some earlier.terms := by
  have hlisting := ActionSummary.listing?_of_started haction
  have hindex : book.auctionIndexFor? summary = some i := by
    rw [auctionIndexFor?_byIdentifier hlookup hlisting]
    exact (auctionIndexByIdentifier?_eq_some_iff hbook _ _ i).2 hlatest
  unfold terms?
  rw [(book.auctionFor?_eq_some_iff summary).2 ⟨hindex, hearlier⟩]
  rfl

/-- A token that was listed before has a latest auction. -/
theorem Relists.exists_isLatest (hbook : after marketplace past = .ok book)
    (h : book.Relists opening) : ∃ i earlier,
      book.IsLatest opening.collection opening.nonce i
        ∧ book.auctions[i]? = some earlier := by
  obtain ⟨-, first, hmem, hsells⟩ := h
  have hnone := auctionIndexByIdentifier?_eq_none_iff hbook opening.collection
    opening.nonce
  cases hindex : book.auctionIndexByIdentifier?
      (tokenIdentifier opening.collection opening.nonce) with
  | none => exact absurd hsells (hnone.1 hindex first hmem)
  | some i =>
      have hlatest := (auctionIndexByIdentifier?_eq_some_iff hbook _ _ i).1 hindex
      obtain ⟨earlier, hearlier, -⟩ := hlatest.1
      exact ⟨i, earlier, hlatest, hearlier⟩

end Book

-- =========================================================== the dispatch

section
variable {σ : Type} {replayer : Replayer σ}
  {answer : String → Except RunError (Option Token)}

/-- An opening of a free number is dispatched as it is quoted. -/
theorem Replayer.run_opening (hhandlers : replayer.handlers = .standard)
    (htoken : ∀ identifier world,
      ((replayer.services.token identifier).run world).1 = answer identifier)
    {book : Book} {summary : ActionSummary} {opening : Opening}
    (haction : summary.action = .started opening)
    (hfree : book.auctionIndex? opening.auctionId = none) (world : σ) :
    ∃ later, (replayer.dispatch book summary).run world
      = ((replayer.config.price answer
          (replayer.config.quoteOn (book.terms? summary) summary)).map fun payment =>
            book.addAuction (.ofOpening summary opening payment), later) := by
  obtain ⟨later, hrun⟩ := run_dispatch hhandlers htoken book summary world
  rw [replayer.config.quote_eq, funext (Handler.apply_started haction hfree)] at hrun
  exact ⟨later, hrun⟩

/-- An opening is priced and dispatched to a book that came about somehow and
has no auction of its number; the token service answers by a function. If the
payment can be settled, an auction is added, and all that it says is what the
action says and that payment. It is the action's own, unless auctions are found
by token, the token was listed before, and the action leaves something open:
then that is taken from the latest auction of the token. -/
theorem Replayer.opened_at_own_price (hhandlers : replayer.handlers = .standard)
    (htoken : ∀ identifier world,
      ((replayer.services.token identifier).run world).1 = answer identifier)
    {marketplace : Marketplace} {past : List Book.Deed} {book : Book}
    (hbook : Book.after marketplace past = .ok book)
    {summary : ActionSummary} {opening : Opening}
    (haction : summary.action = .started opening)
    (hfree : book.auctionIndex? opening.auctionId = none) (world : σ) :
    ∃ paid later,
      (replayer.dispatch book summary).run world
          = (paid.map fun payment =>
            book.addAuction (.ofOpening summary opening payment), later)
        ∧ (¬ (book.Relists opening ∧ replayer.config.LeavesOpen summary) →
          paid = replayer.config.ownPayment answer summary)
        ∧ (book.Relists opening →
          ∃ i earlier, book.IsLatest opening.collection opening.nonce i
            ∧ book.auctions[i]? = some earlier
            ∧ paid = replayer.config.ownPayment answer
              (summary.onTerms earlier.terms)) := by
  have hpriced : summary.kind.isPriced = true := by
    rw [ActionSummary.kind, haction]
    rfl
  obtain ⟨later, hrun⟩ := run_opening hhandlers htoken haction hfree world
  refine ⟨_, later, hrun, ?_⟩
  by_cases hrelists : book.Relists opening
  · obtain ⟨i, earlier, hlatest, hearlier⟩ := hrelists.exists_isLatest hbook
    rw [Book.terms?_of_isLatest hbook haction hrelists.1 hlatest hearlier,
      replayer.config.price_quoteOn_some answer hpriced]
    refine ⟨fun hown => ?_, fun _ => ⟨i, earlier, hlatest, hearlier, rfl⟩⟩
    exact replayer.config.ownPayment_onTerms answer
      (fun hopen => hown ⟨hrelists, hopen⟩) earlier.terms
  · rw [Book.terms?_of_absent hbook haction hfree hrelists]
    exact ⟨fun _ => replayer.config.price_quoteOn_none answer hpriced,
      fun h => absurd h hrelists⟩

end

namespace Sample

theorem tells (identifier : String) (world : Memory) :
    ((teller.services.token identifier).run world).1 = tellToken identifier :=
  congrArg Prod.fst
    (Memory.run_token (fun _ => tellToken) (fun _ _ _ => .ok []) identifier world)

/-- The token that is listed twice is put up a third time, in another token of
payment. -/
def swapRelisting : ActionSummary :=
  { swapAction (.started (swapOpening 10 "C-01" 2)) with
    paymentToken := some "USDC"
    paymentNonce := some 0 }

/-- It is put up in none that is named. -/
def swapUnnamed : ActionSummary :=
  swapAction (.started (swapOpening 11 "C-01" 2))

/-- The book in which it was put up in the other token only. -/
def swapInUsdc : Book :=
  (Book.empty swap).addAuction
    (.ofOpening swapRelisting (swapOpening 10 "C-01" 2) ⟨"USDC", 6, 0⟩)

theorem after_swapRelisting :
    Book.after swap [.dispatch swapRelisting ⟨"USDC", 6, 0⟩] = .ok swapInUsdc := rfl

end Sample

/-- An opening that names what it is paid in is listed in that, whatever the
token was listed in before. -/
theorem Replayer.opened_at_own_price_sample : ∃ book next later,
    Book.after Sample.swap Sample.swapDeeds = .ok book
      ∧ (Sample.teller.dispatch book Sample.swapRelisting).run Memory.empty
        = (.ok next, later)
      ∧ next.auctions.map (·.paymentToken) = ["EGLD", "EGLD", "EGLD", "USDC"] := by
  have haction : Sample.swapRelisting.action
    = .started (Sample.swapOpening 10 "C-01" 2) := rfl
  have hnamed : ¬ Sample.teller.config.LeavesOpen Sample.swapRelisting := by
    rintro (hnone | ⟨-, hnone⟩) <;> cases hnone
  obtain ⟨paid, later, hrun, hown, -⟩ := Replayer.opened_at_own_price rfl
    Sample.tells Sample.after_swapDeeds haction rfl Memory.empty
  rw [hown fun h => hnamed h.2] at hrun
  exact ⟨_, _, later, Sample.after_swapDeeds, hrun, rfl⟩

/-- What a new listing is priced in does not depend on its own transaction
alone: of two books that both lack its number, one may add another record than
the other does. -/
theorem Replayer.opened_at_terms_of_another :
    ¬ ∀ (past other : List Book.Deed) (book another next later : Book)
        (summary : ActionSummary) (opening : Opening) (reached left : Memory),
      Book.after Sample.swap past = .ok book →
      Book.after Sample.swap other = .ok another →
      summary.action = .started opening →
      book.auctionIndex? opening.auctionId = none →
      another.auctionIndex? opening.auctionId = none →
      (Sample.teller.dispatch book summary).run .empty = (.ok next, reached) →
      (Sample.teller.dispatch another summary).run .empty = (.ok later, left) →
        next.auctions.getLast? = later.auctions.getLast? := by
  intro h
  have haction : Sample.swapUnnamed.action
    = .started (Sample.swapOpening 11 "C-01" 2) := rfl
  have hlatest : Sample.swapInUsdc.IsLatest "C-01" 2 0 :=
    ⟨⟨_, rfl, rfl, rfl⟩, fun j auction hauction _ =>
      Nat.le_of_lt_succ (List.getElem?_eq_some_iff.1 hauction).1⟩
  obtain ⟨earlier, hearlier, -⟩ := hlatest.1
  have hterms := Book.terms?_of_isLatest Sample.after_swapRelisting haction rfl
    hlatest hearlier
  cases hearlier
  have hfree : (Book.empty Sample.swap).auctionIndex? 11 = none := rfl
  have hagain : Sample.swapInUsdc.auctionIndex? 11 = none := rfl
  obtain ⟨reached, hfirst⟩ := Replayer.run_opening rfl Sample.tells haction hfree .empty
  obtain ⟨left, hsecond⟩ := Replayer.run_opening rfl Sample.tells haction hagain .empty
  rw [hterms] at hsecond
  have hsame := h [] _ _ _ _ _ Sample.swapUnnamed _ reached left rfl
    Sample.after_swapRelisting haction hfree hagain hfirst hsecond
  have htoken := congrArg (Option.map Auction.paymentToken) hsame
  exact absurd htoken (by decide)

end MarketReplay
