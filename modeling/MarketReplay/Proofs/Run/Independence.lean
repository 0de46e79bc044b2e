/-
Auctions that know nothing of each other.

A replay prices and dispatches some actions, and another one does the same
without some of those on other auctions (`Spares`). The books of the two differ
in more than these auctions: the others stand in other places, and what
identifies an order changes with them. But the part of the book that one
auction sees is the same all along. An action that only the first replay
dispatches does not change it. An action that both dispatch does in the part
what it does, and if it concerns the auction, the part decides how it is
quoted, so both pay the same.

An action on another auction may be quoted otherwise in the second replay, in
a token that the first one did not look up for it. The second replay does not
fail there either: the tokens that a book names are such that something was
paid in them before (`Book.Payable`).
-/
import MarketReplay.Proofs.Book.Locality

namespace MarketReplay

/-- Some actions are kept of all, and what is left out are actions on other
auctions than the one with this number. -/
inductive Spares (number : Nat) :
    (kept all : List ActionSummary) → Prop
  | nil : Spares number [] []
  | keep (summary : ActionSummary) {kept all : List ActionSummary}
      (rest : Spares number kept all) :
      Spares number (summary :: kept) (summary :: all)
  | drop {summary : ActionSummary} (elsewhere : summary.Elsewhere number)
      {kept all : List ActionSummary} (rest : Spares number kept all) :
      Spares number kept (summary :: all)

-- ====================================================== tokens to pay in

/-- One can pay in this token: it is the chain's own, or the token service does
not fail for it. -/
def Config.Payable (config : Config)
    (answer : String → Except RunError (Option Token)) (identifier : String) :
    Prop :=
  identifier = config.nativeToken ∨ ∃ token, answer identifier = .ok token

/-- Whoever asks the book for the terms of an auction is told a token that one
can pay in. -/
def Book.Payable (config : Config)
    (answer : String → Except RunError (Option Token)) (book : Book) : Prop :=
  ∀ asked terms, book.terms? asked = some terms → config.Payable answer terms.1

namespace Config

variable {config : Config} {answer : String → Except RunError (Option Token)}
  {book rest : Book} {summary : ActionSummary} {payment : Payment}

theorem exists_price_iff (config : Config)
    (answer : String → Except RunError (Option Token)) (identifier : String)
    (nonce : Nat) :
    (∃ payment, config.price answer
        (if identifier = config.nativeToken then .settled config.native
          else .inToken identifier nonce) = .ok payment)
      ↔ config.Payable answer identifier := by
  unfold Payable
  by_cases hnative : identifier = config.nativeToken
  · rw [if_pos hnative]
    exact ⟨fun _ => .inl hnative, fun _ => ⟨config.native, rfl⟩⟩
  · rw [if_neg hnative]
    show (∃ payment, (answer identifier).map (config.settle identifier nonce)
      = .ok payment) ↔ _
    cases answer identifier with
    | error error => simp [hnative, Except.map]
    | ok token => simp [Except.map]

/-- What was paid, was paid in a token that one can pay in. -/
theorem payable_of_price
    (h : config.price answer (config.quote book summary) = .ok payment) :
    config.Payable answer payment.identifier := by
  unfold quote at h
  split at h
  next hfree =>
    cases h
    exact .inl rfl
  next hpriced =>
    dsimp only at h
    have hpayable := (config.exists_price_iff answer _ _).1 ⟨payment, h⟩
    split at h
    next hnative =>
      cases h
      exact .inl rfl
    next hother =>
      have hterms : payment.terms = (_, _) := config.covers_of_price h
      rwa [show payment.identifier = _ from congrArg Prod.fst hterms]

/-- An action that was paid can be paid by every book that names payable
tokens. -/
theorem exists_price (hrest : rest.Payable config answer)
    (h : config.price answer (config.quote book summary) = .ok payment) :
    ∃ paid, config.price answer (config.quote rest summary) = .ok paid := by
  rw [quote_eq] at h ⊢
  unfold quoteOn at h ⊢
  split at h
  next hfree =>
    rw [if_pos hfree]
    exact ⟨config.native, rfl⟩
  next hpriced =>
    rw [if_neg hpriced]
    have hpayable := (config.exists_price_iff answer _ _).1 ⟨payment, h⟩
    refine (config.exists_price_iff answer _ _).2 ?_
    -- a token that the action names is the same by both books
    cases hnamed : summary.paymentToken with
    | some identifier =>
        rw [hnamed] at hpayable
        exact hpayable
    | none =>
        cases hterms : rest.terms? summary with
        | none => exact .inl rfl
        | some terms => exact hrest summary terms hterms

end Config

namespace Book

variable {config : Config} {answer : String → Except RunError (Option Token)}
  {book next : Book} {summary : ActionSummary} {payment : Payment}

theorem payable_empty (marketplace : Marketplace) :
    (empty marketplace).Payable config answer := by
  intro asked terms hterms
  have hnone : (empty marketplace).auctionFor? asked = none := by
    simp [auctionFor?, empty]
  rw [terms?, hnone] at hterms
  cases hterms

theorem Payable.perform (h : book.Payable config answer)
    (hpayment : config.Payable answer payment.identifier)
    (hnext : book.perform (.dispatch summary payment) = .ok next) :
    next.Payable config answer := by
  intro asked terms hterms
  rw [Registry.builtIn_standard.dispatch_eq hnext] at hterms
  rcases Handler.termsKept_apply summary.kind book summary payment asked with
    hsame | hpaid
  · exact h asked terms (hsame ▸ hterms)
  · rw [hpaid] at hterms
    cases hterms
    exact hpayment

end Book

-- ======================================================= the two replays

namespace Replayer

variable {σ : Type} {replayer : Replayer σ}
  {answer : String → Except RunError (Option Token)} {number : Nat}

/-- An action that is paid is dispatched. -/
theorem exists_dispatch (hhandlers : replayer.handlers = .standard)
    (htoken : ∀ identifier world,
      ((replayer.services.token identifier).run world).1 = answer identifier)
    {book : Book} {summary : ActionSummary} {payment : Payment}
    (hprice : replayer.config.price answer
      (replayer.config.quote book summary) = .ok payment) (world : σ) :
    ∃ next later, book.perform (.dispatch summary payment) = .ok next
      ∧ (replayer.dispatch book summary).run world = (.ok next, later) := by
  obtain ⟨later, hrun⟩ := run_dispatch hhandlers htoken book summary world
  rw [hprice] at hrun
  exact ⟨_, later, Registry.dispatch_standard book summary payment, hrun⟩

/-- One that is not paid fails as the token service does for some token. -/
theorem exists_failed_dispatch (hhandlers : replayer.handlers = .standard)
    (htoken : ∀ identifier world,
      ((replayer.services.token identifier).run world).1 = answer identifier)
    {book : Book} {summary : ActionSummary} {error : RunError}
    (hprice : replayer.config.price answer
      (replayer.config.quote book summary) = .error error) (world : σ) :
    ∃ identifier later, answer identifier = .error error
      ∧ (replayer.dispatch book summary).run world = (.error error, later) := by
  obtain ⟨identifier, hanswer⟩ := replayer.config.error_of_price hprice
  obtain ⟨later, hrun⟩ := run_dispatch hhandlers htoken book summary world
  rw [hprice] at hrun
  exact ⟨identifier, later, hanswer, hrun⟩

/-- An action on another auction leaves the part alone. -/
theorem only_perform_of_elsewhere {book next : Book} {summary : ActionSummary}
    {payment : Payment} (hbook : book.Numbered)
    (hnext : book.perform (.dispatch summary payment) = .ok next)
    (helsewhere : summary.Elsewhere number) :
    next.only number = book.only number := by
  rw [Registry.builtIn_standard.dispatch_eq hnext]
  exact Handler.only_apply_of_elsewhere hbook helsewhere payment

/-- One action, priced by two books that have the part in common, leaves two
books that have it in common. -/
theorem only_perform {book rest next last : Book} {summary : ActionSummary}
    {payment paid : Payment} (hbook : book.Numbered) (hrest : rest.Numbered)
    (honly : book.only number = rest.only number)
    {price : Quote → Except RunError Payment} {config : Config}
    (hprice : price (config.quote book summary) = .ok payment)
    (hpaid : price (config.quote rest summary) = .ok paid)
    (hnext : book.perform (.dispatch summary payment) = .ok next)
    (hlast : rest.perform (.dispatch summary paid) = .ok last) :
    next.only number = last.only number := by
  by_cases helsewhere : summary.Elsewhere number
  · rw [only_perform_of_elsewhere hbook hnext helsewhere,
      only_perform_of_elsewhere hrest hlast helsewhere, honly]
  · have hquote : config.quote book summary = config.quote rest summary := by
      rw [← config.quote_only hbook helsewhere, honly,
        config.quote_only hrest helsewhere]
    have hsame : payment = paid := by
      rw [hquote, hpaid] at hprice
      exact (Except.ok.inj hprice).symm
    rw [Registry.builtIn_standard.dispatch_eq hnext,
      Registry.builtIn_standard.dispatch_eq hlast,
      Handler.only_apply hbook helsewhere, Handler.only_apply hrest helsewhere,
      honly, hsame]

/-- Either all of the actions cannot be dispatched, because the token service
fails; or they can, and so can those that are kept. -/
theorem only_dispatches (hhandlers : replayer.handlers = .standard)
    (htoken : ∀ identifier world,
      ((replayer.services.token identifier).run world).1 = answer identifier)
    {kept all : List ActionSummary} (hspares : Spares number kept all)
    {book rest : Book} (hbook : book.Numbered) (hrest : rest.Numbered)
    (hpayable : rest.Payable replayer.config answer)
    (honly : book.only number = rest.only number) (world other : σ) :
    (∃ identifier error later, answer identifier = .error error
        ∧ (all.foldlM replayer.dispatch book).run world = (.error error, later))
      ∨ ∃ next last later final,
        (all.foldlM replayer.dispatch book).run world = (.ok next, later)
          ∧ (kept.foldlM replayer.dispatch rest).run other = (.ok last, final)
          ∧ next.Numbered ∧ last.Numbered
          ∧ next.only number = last.only number := by
  induction hspares generalizing book rest world other with
  | nil =>
      right
      exact ⟨book, rest, world, other, rfl, rfl, hbook, hrest, honly⟩
  | @drop summary elsewhere kept all _ ih =>
      rw [List.foldlM_cons]
      cases hprice : replayer.config.price answer
          (replayer.config.quote book summary) with
      | error error =>
          left
          obtain ⟨identifier, later, hanswer, hrun⟩ :=
            exists_failed_dispatch hhandlers htoken hprice world
          exact ⟨identifier, error, later, hanswer, Call.run_bind_error hrun _⟩
      | ok payment =>
          obtain ⟨next, later, hnext, hrun⟩ :=
            exists_dispatch hhandlers htoken hprice world
          rw [Call.run_bind_ok hrun]
          -- what is dropped is done elsewhere, and the part does not see it
          refine ih (hbook.perform hnext) hrest hpayable ?_ later other
          rw [only_perform_of_elsewhere hbook hnext elsewhere, honly]
  | @keep summary kept all _ ih =>
      rw [List.foldlM_cons, List.foldlM_cons]
      cases hprice : replayer.config.price answer
          (replayer.config.quote book summary) with
      | error error =>
          left
          obtain ⟨identifier, later, hanswer, hrun⟩ :=
            exists_failed_dispatch hhandlers htoken hprice world
          exact ⟨identifier, error, later, hanswer, Call.run_bind_error hrun _⟩
      | ok payment =>
          -- what is kept is priced in both books, by what they have in common
          obtain ⟨paid, hpaid⟩ := Config.exists_price hpayable hprice
          obtain ⟨next, later, hnext, hrun⟩ :=
            exists_dispatch hhandlers htoken hprice world
          obtain ⟨last, final, hlast, hagain⟩ :=
            exists_dispatch hhandlers htoken hpaid other
          rw [Call.run_bind_ok hrun, Call.run_bind_ok hagain]
          exact ih (hbook.perform hnext) (hrest.perform hlast)
            (hpayable.perform (Config.payable_of_price hpaid) hlast)
            (only_perform hbook hrest honly hprice hpaid hnext hlast) later
            final

/-- Actions are priced and dispatched, one after another, to a fresh book of a
marketplace that calls its auctions by number, and the token service answers by
a function. Either this fails, as the token service fails for some token; or it
succeeds, and then it does so without some of the actions on other auctions,
and the record of an auction, the orders on it and the offers come out the
same. -/
theorem auctions_independent (hhandlers : replayer.handlers = .standard)
    (htoken : ∀ identifier world,
      ((replayer.services.token identifier).run world).1 = answer identifier)
    {marketplace : Marketplace} (hlookup : marketplace.lookup = .byAuctionId)
    {kept all : List ActionSummary} (hspares : Spares number kept all)
    (world other : σ) :
    (∃ identifier error later, answer identifier = .error error
        ∧ (all.foldlM replayer.dispatch (.empty marketplace)).run world
          = (.error error, later))
      ∨ ∃ book rest later last,
        (all.foldlM replayer.dispatch (.empty marketplace)).run world
            = (.ok book, later)
          ∧ (kept.foldlM replayer.dispatch (.empty marketplace)).run other
            = (.ok rest, last)
          ∧ book.auctionNumbered? number = rest.auctionNumbered? number
          ∧ book.ordersNumbered number = rest.ordersNumbered number
          ∧ book.offers = rest.offers := by
  have hempty := Book.numbered_empty hlookup
  refine (only_dispatches hhandlers htoken hspares hempty hempty
    (Book.payable_empty marketplace) rfl world other).imp_right ?_
  rintro ⟨book, rest, later, last, hall, hkept, hbook, hrest, honly⟩
  refine ⟨book, rest, later, last, hall, hkept, ?_, ?_, ?_⟩
  · have hauctions := congrArg (·.auctions.head?) honly
    simpa [Book.auctions_only hbook.sound, Book.auctions_only hrest.sound]
      using hauctions
  · rw [← Book.orders_only hbook.sound, honly, Book.orders_only hrest.sound]
  · rw [← book.offers_only, honly, rest.offers_only]

end Replayer

namespace Sample

/-- An auction opens at the stall, priced in the token. -/
def pricedOpening (number : Nat) : ActionSummary :=
  { stallAction "opening" (.started
      ⟨⟨number, "C", number⟩, 1, "owner", 5, 5, 0, 0, 0, .nft⟩) with
    paymentToken := some "USDC" }

/-- One transaction buys at many auctions. -/
def bulkPurchase (number : Nat) : ActionSummary :=
  stallAction "bulk" (.bought ⟨⟨number, "C", number⟩, 1, "buyer", 5⟩)

end Sample

/-- Two auctions open and are sold by one transaction; for the second one it
makes no difference whether the first one was ever there. -/
theorem Replayer.auctions_independent_sample :
    Spares 8 [Sample.pricedOpening 8, Sample.bulkPurchase 8]
        [Sample.pricedOpening 7, Sample.pricedOpening 8, Sample.bulkPurchase 7,
          Sample.bulkPurchase 8]
      ∧ ∃ book rest later last,
        ([Sample.pricedOpening 7, Sample.pricedOpening 8, Sample.bulkPurchase 7,
          Sample.bulkPurchase 8].foldlM Sample.teller.dispatch
            (.empty Sample.stall)).run .empty = (.ok book, later)
          ∧ ([Sample.pricedOpening 8, Sample.bulkPurchase 8].foldlM
            Sample.teller.dispatch (.empty Sample.stall)).run .empty
              = (.ok rest, last)
          ∧ book.orders.map (·.auctionIndex) = [0, 1]
          ∧ rest.orders.map (·.auctionIndex) = [0]
          ∧ book.auctionNumbered? 8 = rest.auctionNumbered? 8
          ∧ book.ordersNumbered 8 = rest.ordersNumbered 8
          ∧ (rest.ordersNumbered 8).map (·.priceToken) = ["USDC"] := by
  have hopening : (Sample.pricedOpening 7).Elsewhere 8 := by
    show 7 ≠ 8
    decide
  have hpurchase : (Sample.bulkPurchase 7).Elsewhere 8 := by
    show 7 ≠ 8
    decide
  have hspares : Spares 8 [Sample.pricedOpening 8, Sample.bulkPurchase 8]
      [Sample.pricedOpening 7, Sample.pricedOpening 8, Sample.bulkPurchase 7,
        Sample.bulkPurchase 8] :=
    .drop hopening (.keep _ (.drop hpurchase (.keep _ .nil)))
  have htoken : ∀ identifier world,
      ((Sample.teller.services.token identifier).run world).1
        = Sample.tellToken identifier := fun identifier world =>
    congrArg Prod.fst (Memory.run_token (fun _ => Sample.tellToken)
      (fun _ _ _ => .ok []) identifier world)
  have hlookup : Sample.stall.lookup = .byAuctionId := rfl
  rcases Replayer.auctions_independent rfl htoken hlookup hspares .empty .empty
    with ⟨_, _, _, -, hfailed⟩
      | ⟨book, rest, later, last, hall, hkept, hrecord, horders, -⟩
  · cases hfailed
  refine ⟨hspares, book, rest, later, last, hall, hkept, ?_, ?_, hrecord,
    horders, ?_⟩
  · cases hall
    rfl
  · cases hkept
    rfl
  · cases hkept
    rfl

end MarketReplay
