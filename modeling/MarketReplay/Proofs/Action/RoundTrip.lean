/-
Reading undoes writing, for the logs of every kind of action.

`Layout.write` lays a reading out as topics, in the order in which contracts
emit them; what `Layout.read` takes from these topics is the reading. Older
contracts leave arguments out at the end of a log. A log that still has every
argument that must be present (`ActionKind.required`) is read as well, and
differs by the arguments that are gone: these are zero or absent
(`Reading.cut`). Both are one statement, since a log that is cut behind its
last topic is the whole log. It is proved kind by kind, each argument by the
lemma of its reader, and carried over to the event set of that one log.
-/
import MarketReplay.EventSet
import MarketReplay.Proofs.Action.Topics

namespace MarketReplay

-- ========================================================= what logs carry

/-- Quantities are counted from one. -/
def IsQuantity (quantity : Nat) : Prop := 1 ≤ quantity ∧ IsWord quantity

/-- The numbers of a listing are words. -/
structure Listing.Fits (a : Listing) : Prop where
  auctionId : IsWord a.auctionId
  nonce : IsWord a.nonce

structure Opening.Fits (a : Opening) : Prop where
  listing : a.toListing.Fits
  quantity : IsQuantity a.quantity
  owner : IsAddress a.owner
  minBid : IsAmount a.minBid
  maxBid : IsAmount a.maxBid
  minBidDiff : IsAmount a.minBidDiff
  startTime : IsTime a.startTime
  deadline : IsTime a.deadline

structure Bid.Fits (a : Bid) : Prop where
  listing : a.toListing.Fits
  quantity : IsQuantity a.quantity
  bidder : IsAddress a.bidder
  amount : IsAmount a.amount

structure Purchase.Fits (a : Purchase) : Prop where
  listing : a.toListing.Fits
  quantity : IsQuantity a.quantity
  buyer : IsAddress a.buyer
  price : IsAmount a.price

structure Ending.Fits (a : Ending) : Prop where
  listing : a.toListing.Fits
  winner : ∀ winner ∈ a.winner, IsAddress winner
  amount : IsAmount a.amount

structure Repricing.Fits (a : Repricing) : Prop where
  listing : a.toListing.Fits
  newPrice : IsAmount a.newPrice

/-- A price or deadline of zero is none. -/
structure Revision.Fits (a : Revision) : Prop where
  listing : a.toListing.Fits
  newPrice : ∀ price ∈ a.newPrice, IsAmount price ∧ price ≠ 0
  deadline : ∀ deadline ∈ a.deadline, IsTime deadline ∧ deadline ≠ 0

structure OfferMade.Fits (a : OfferMade) : Prop where
  offerId : IsWord a.offerId
  nonce : IsWord a.nonce
  owner : IsAddress a.owner
  amount : IsAmount a.amount
  quantity : IsQuantity a.quantity
  deadline : IsTime a.deadline

structure OfferTaken.Fits (a : OfferTaken) : Prop where
  offerId : IsWord a.offerId
  nonce : IsWord a.nonce
  seller : IsAddress a.seller
  auctionId : IsWord a.auctionId

structure OfferWithdrawn.Fits (a : OfferWithdrawn) : Prop where
  offerId : IsWord a.offerId
  nonce : IsWord a.nonce

structure GlobalOfferTaken.Fits (a : GlobalOfferTaken) : Prop where
  globalOfferId : IsWord a.globalOfferId
  nonce : IsWord a.nonce
  offerOwner : IsAddress a.offerOwner
  seller : IsAddress a.seller
  amount : IsAmount a.amount
  auctionId : IsWord a.auctionId

/-- The arguments of an action are such as logs carry: numbers of the width of
their topics, addresses of keys, times that a signed word holds. -/
def Action.Fits : Action → Prop
  | .started a => a.Fits
  | .bid a => a.Fits
  | .bought a => a.Fits
  | .ended a => a.Fits
  | .closed a => a.toListing.Fits
  | .repriced a => a.Fits
  | .updated a => a.Fits
  | .offerCreated a => a.Fits
  | .offerAccepted a => a.Fits
  | .offerClosed a => a.Fits
  | .globalOfferAccepted a => a.Fits

/-- Where the logs of a kind name the payment. -/
inductive PaymentPlace
  | nowhere
  /-- The token at an index, and no nonce. -/
  | token (index : Nat)
  /-- The token at an index, and its nonce behind it. -/
  | tokenAndNonce (index : Nat)
deriving DecidableEq, Repr

def ActionKind.paymentPlace : ActionKind → PaymentPlace
  | .started => .tokenAndNonce 10
  | .bid | .bought => .tokenAndNonce 7
  | .ended => .token 7
  | .repriced => .tokenAndNonce 5
  | .updated => .token 6
  | .offerCreated => .tokenAndNonce 4
  | .closed | .offerAccepted | .offerClosed | .globalOfferAccepted => .nowhere

/-- The payment that a reading names has the form that its place gives it. -/
def Reading.NamesPayment (reading : Reading) : PaymentPlace → Prop
  | .nowhere => reading.paymentToken = none ∧ reading.paymentNonce = none
  | .token _ => reading.paymentToken ≠ some "" ∧ reading.paymentNonce = none
  | .tokenAndNonce _ =>
      reading.paymentToken ≠ some ""
        ∧ reading.paymentNonce.isSome = reading.paymentToken.isSome
        ∧ ∀ nonce ∈ reading.paymentNonce, IsWord nonce

/-- The reading is one that logs of its kind can carry. -/
structure Reading.Fits (reading : Reading) : Prop where
  action : reading.action.Fits
  payment : reading.NamesPayment reading.action.kind.paymentPlace

-- =============================================================== cut logs

/-- How many topics, the name among them, a log of a kind has at least. -/
def ActionKind.required : ActionKind → Nat
  | .started | .bid | .bought | .globalOfferAccepted => 7
  | .ended | .closed | .updated | .offerClosed => 4
  | .repriced | .offerAccepted => 5
  | .offerCreated => 9

-- What is left of a payload in a log that was cut to a count of topics.

def Opening.cut (count : Nat) (a : Opening) : Opening :=
  { a with
    maxBid := kept count 7 a.maxBid 0
    startTime := kept count 8 a.startTime 0
    deadline := kept count 9 a.deadline 0
    saleType := kept count 12 a.saleType .nft
    minBidDiff := kept count 13 a.minBidDiff 0 }

def Ending.cut (count : Nat) (a : Ending) : Ending :=
  { a with
    winner := kept count 5 a.winner none
    amount := kept count 6 a.amount 0 }

def Revision.cut (count : Nat) (a : Revision) : Revision :=
  { a with
    newPrice := kept count 4 a.newPrice none
    deadline := kept count 5 a.deadline none }

def OfferMade.cut (count : Nat) (a : OfferMade) : OfferMade :=
  { a with quantity := kept count 9 a.quantity 1 }

def OfferTaken.cut (count : Nat) (a : OfferTaken) : OfferTaken :=
  { a with auctionId := kept count 5 a.auctionId 0 }

def GlobalOfferTaken.cut (count : Nat) (a : GlobalOfferTaken) : GlobalOfferTaken :=
  { a with auctionId := kept count 7 a.auctionId 0 }

/-- No action has more than fourteen topics that must be there. -/
theorem ActionKind.required_le (kind : ActionKind) : kind.required ≤ 14 := by
  cases kind <;> decide

/-- An action as a log tells it that was cut to a count of topics. -/
def Action.cut (count : Nat) : Action → Action
  | .started a => .started (a.cut count)
  | .ended a => .ended (a.cut count)
  | .updated a => .updated (a.cut count)
  | .offerCreated a => .offerCreated (a.cut count)
  | .offerAccepted a => .offerAccepted (a.cut count)
  | .globalOfferAccepted a => .globalOfferAccepted (a.cut count)
  | action => action

/-- A reading as a log tells it that was cut to a count of topics. -/
def Reading.cut (count : Nat) (reading : Reading) : Reading :=
  let action := reading.action.cut count
  match reading.action.kind.paymentPlace with
  | .nowhere => ⟨action, none, none⟩
  | .token index => ⟨action, kept count index reading.paymentToken none, none⟩
  | .tokenAndNonce index =>
      ⟨action, kept count index reading.paymentToken none,
        kept count index
          (reading.paymentNonce.map fun nonce => kept count (index + 1) nonce 0) none⟩

namespace Layout

variable {topics : Topics} {count : Nat}

-- ============================================================ shared parts

/-- The three arguments that every action on a listing begins with are read
back. -/
theorem listing_cut {a : Listing} {name : String} {rest : List String}
    (h : topics = ⟨Topic.ofText name :: (ofListing a ++ rest)⟩) (hfits : a.Fits)
    (hcount : 4 ≤ count) : listing (topics.cut count) = .ok a := by
  subst h
  refine bind_eq (Topics.text_cut rfl (by omega)) ?_
  refine bind_eq (Topics.word_cut rfl hfits.nonce (by omega)) ?_
  exact bind_eq (Topics.word_cut rfl hfits.auctionId (by omega)) rfl

/-- A quantity that is missing is read as one, like a quantity of zero. -/
theorem max_quantity {quantity : Nat} (h : IsQuantity quantity) (index : Nat) :
    max (kept count index quantity 0) 1 = kept count index quantity 1 := by
  rw [map_kept (max · 1), Nat.max_eq_left h.1]
  rfl

/-- An action that names a token names it again, unless the cut took it. -/
theorem paidInToken_cut {index : Nat} {reading : Reading} {action : Action}
    (h : topics.texts[index]? = some (ofToken reading))
    (htoken : reading.paymentToken ≠ some "") :
    paidInToken (topics.cut count) index action
      = .ok ⟨action, kept count index reading.paymentToken none, none⟩ :=
  bind_eq (Topics.textOptional_cut h htoken count) rfl

/-- An action that names a token and a nonce names each of them again, unless
the cut took it; a nonce is only read where a token is. -/
theorem paidWithNonce_cut {index : Nat} {reading : Reading} {action : Action}
    (h : topics.texts[index]? = some (ofToken reading))
    (hnonce : topics.texts[index + 1]?
      = some (ofOptional Topic.ofNat reading.paymentNonce))
    (hpays : reading.NamesPayment (.tokenAndNonce index)) :
    paidWithNonce (topics.cut count) index action
      = .ok ⟨action, kept count index reading.paymentToken none,
          kept count index
            (reading.paymentNonce.map fun nonce => kept count (index + 1) nonce 0)
            none⟩ := by
  obtain ⟨htoken, hboth, hword⟩ := hpays
  refine bind_eq (Topics.textOptional_cut h htoken count) ?_
  cases ht : reading.paymentToken with
  | none =>
    rw [ht, Option.isSome_none, Option.isSome_eq_false_iff,
      Option.isNone_iff_eq_none] at hboth
    rw [hboth, kept_self, Option.map_none, kept_self]
    rfl
  | some token =>
    rw [ht, Option.isSome_some, Option.isSome_iff_exists] at hboth
    obtain ⟨nonce, hn⟩ := hboth
    rcases Nat.lt_or_ge index count with hcount | hcount
    · rw [kept_of_lt hcount, kept_of_lt hcount]
      rw [hn] at hnonce ⊢
      exact bind_eq (Topics.wordOrZero_cut hnonce (hword nonce hn) count) rfl
    · rw [kept_of_le hcount, kept_of_le hcount]
      rfl

-- =============================================================== the kinds

/-- A reading can be written, and every log of it that has what must be there
reads back. -/
def ReadsBack (name : String) (aside : Aside) (reading : Reading) : Prop :=
  ∃ topics, write name aside reading = .ok topics
    ∧ ∀ count, reading.action.kind.required ≤ count →
      read (topics.cut count) reading.action.kind = .ok (reading.cut count)

variable (name : String) (aside : Aside) {token : Option String} {nonce : Option Nat}

/-- It is enough to know how the topics behind the name are read. -/
theorem readsBack_of_arguments {reading : Reading} {args : List String}
    (hwrite : arguments aside reading = .ok args)
    (hread : ∀ count, reading.action.kind.required ≤ count →
      read (Topics.cut ⟨Topic.ofText name :: args⟩ count) reading.action.kind
        = .ok (reading.cut count)) : ReadsBack name aside reading := by
  refine ⟨_, ?_, hread⟩
  unfold write
  rw [hwrite]
  rfl

theorem isWord_number (saleType : SaleType) : IsWord saleType.number := by
  cases saleType <;> decide

/-- A sale type is read back from its number, and one that is missing is that
of a single token. -/
theorem ofNumber_kept (index : Nat) (saleType : SaleType) :
    SaleType.ofNumber (kept count index saleType.number 0)
      = kept count index saleType .nft := by
  rw [map_kept SaleType.ofNumber, SaleType.ofNumber_number]
  rfl

/-- Openings, the kind with the most arguments, and the only one with a sale
type. -/
theorem readsBack_started {a : Opening} (h : a.Fits)
    (hpays : Reading.NamesPayment ⟨.started a, token, nonce⟩ (.tokenAndNonce 10)) :
    ReadsBack name aside ⟨.started a, token, nonce⟩ := by
  obtain ⟨owner, howner, readOwner⟩ := Topics.exists_ofAddress h.owner
  refine readsBack_of_arguments name aside (bind_eq howner rfl) fun count hcount => ?_
  have hcount : 7 ≤ count := hcount
  refine bind_eq (?_ : opening _ = .ok (a.cut count)) (paidWithNonce_cut rfl rfl hpays)
  refine bind_eq (listing_cut rfl h.listing (by omega)) ?_
  refine bind_eq (Topics.word_cut rfl h.quantity.2 (by omega)) ?_
  refine bind_eq (readOwner rfl (by omega)) ?_
  refine bind_eq (Topics.amount_cut rfl h.minBid (by omega)) ?_
  refine bind_eq (Topics.amountOrZero_cut rfl h.maxBid count) ?_
  refine bind_eq (Topics.timestampOrZero_cut rfl h.startTime count) ?_
  refine bind_eq (Topics.timestampOrZero_cut rfl h.deadline count) ?_
  refine bind_eq (Topics.wordOrZero_cut rfl (isWord_number a.saleType) count) ?_
  refine bind_eq (Topics.amountOrZero_cut rfl h.minBidDiff count) ?_
  rw [ofNumber_kept, Nat.max_eq_left h.quantity.1]
  rfl

theorem readsBack_bid {a : Bid} (h : a.Fits)
    (hpays : Reading.NamesPayment ⟨.bid a, token, nonce⟩ (.tokenAndNonce 7)) :
    ReadsBack name aside ⟨.bid a, token, nonce⟩ := by
  obtain ⟨bidder, hbidder, readBidder⟩ := Topics.exists_ofAddress h.bidder
  refine readsBack_of_arguments name aside (bind_eq hbidder rfl) fun count hcount => ?_
  have hcount : 7 ≤ count := hcount
  refine bind_eq (?_ : bid _ = .ok a) (paidWithNonce_cut rfl rfl hpays)
  refine bind_eq (listing_cut rfl h.listing (by omega)) ?_
  refine bind_eq (Topics.wordOrZero_cut rfl h.quantity.2 count) ?_
  refine bind_eq (readBidder rfl (by omega)) ?_
  refine bind_eq (Topics.amount_cut rfl h.amount (by omega)) ?_
  rw [max_quantity h.quantity, kept_of_lt (by omega)]
  rfl

theorem readsBack_bought {a : Purchase} (h : a.Fits)
    (hpays : Reading.NamesPayment ⟨.bought a, token, nonce⟩ (.tokenAndNonce 7)) :
    ReadsBack name aside ⟨.bought a, token, nonce⟩ := by
  obtain ⟨buyer, hbuyer, readBuyer⟩ := Topics.exists_ofAddress h.buyer
  refine readsBack_of_arguments name aside (bind_eq hbuyer rfl) fun count hcount => ?_
  have hcount : 7 ≤ count := hcount
  refine bind_eq (?_ : purchase _ = .ok a) (paidWithNonce_cut rfl rfl hpays)
  refine bind_eq (listing_cut rfl h.listing (by omega)) ?_
  refine bind_eq (Topics.wordOrZero_cut rfl h.quantity.2 count) ?_
  refine bind_eq (readBuyer rfl (by omega)) ?_
  refine bind_eq (Topics.amount_cut rfl h.price (by omega)) ?_
  rw [max_quantity h.quantity, kept_of_lt (by omega)]
  rfl

/-- Endings, whose winner is optional, and which name a token but no nonce. -/
theorem readsBack_ended {a : Ending} (h : a.Fits)
    (hpays : Reading.NamesPayment ⟨.ended a, token, nonce⟩ (.token 7)) :
    ReadsBack name aside ⟨.ended a, token, nonce⟩ := by
  obtain ⟨winner, hwinner, readWinner⟩ := Topics.exists_ofOptionalAddress h.winner
  refine readsBack_of_arguments name aside (bind_eq hwinner rfl) fun count hcount => ?_
  have hcount : 4 ≤ count := hcount
  refine bind_eq (?_ : ending _ = .ok (a.cut count)) (paidInToken_cut rfl hpays.1)
  refine bind_eq (listing_cut rfl h.listing (by omega)) ?_
  refine bind_eq (readWinner rfl) ?_
  exact bind_eq (Topics.amountOrZero_cut rfl h.amount count) rfl

/-- Withdrawn listings, in which an owner may stand that is not read. -/
theorem readsBack_closed {a : Withdrawal} (h : a.toListing.Fits)
    (howner : ∀ owner ∈ aside.owner, IsAddress owner) :
    ReadsBack name aside ⟨.closed a, token, nonce⟩ := by
  obtain ⟨owner, howner, -⟩ := Topics.exists_ofOptionalAddress howner
  refine readsBack_of_arguments name aside (bind_eq howner rfl) fun count hcount => ?_
  have hcount : 4 ≤ count := hcount
  refine bind_eq (?_ : withdrawal _ = .ok a) rfl
  exact bind_eq (listing_cut rfl h (by omega)) rfl

theorem readsBack_repriced {a : Repricing} (h : a.Fits)
    (hpays : Reading.NamesPayment ⟨.repriced a, token, nonce⟩ (.tokenAndNonce 5)) :
    ReadsBack name aside ⟨.repriced a, token, nonce⟩ := by
  refine readsBack_of_arguments name aside rfl fun count hcount => ?_
  have hcount : 5 ≤ count := hcount
  refine bind_eq (?_ : repricing _ = .ok a) (paidWithNonce_cut rfl rfl hpays)
  refine bind_eq (listing_cut rfl h.listing (by omega)) ?_
  exact bind_eq (Topics.amount_cut rfl h.newPrice (by omega)) rfl

/-- Updates, whose price and deadline are optional. -/
theorem readsBack_updated {a : Revision} (h : a.Fits)
    (hpays : Reading.NamesPayment ⟨.updated a, token, nonce⟩ (.token 6)) :
    ReadsBack name aside ⟨.updated a, token, nonce⟩ := by
  refine readsBack_of_arguments name aside rfl fun count hcount => ?_
  have hcount : 4 ≤ count := hcount
  refine bind_eq (?_ : revision _ = .ok (a.cut count)) (paidInToken_cut rfl hpays.1)
  refine bind_eq (Topics.timestampOptional_cut rfl h.deadline count) ?_
  refine bind_eq (listing_cut rfl h.listing (by omega)) ?_
  exact bind_eq (Topics.amountOptional_cut rfl h.newPrice count) rfl

theorem readsBack_offerCreated {a : OfferMade} (h : a.Fits)
    (hpays : Reading.NamesPayment ⟨.offerCreated a, token, nonce⟩ (.tokenAndNonce 4)) :
    ReadsBack name aside ⟨.offerCreated a, token, nonce⟩ := by
  obtain ⟨owner, howner, readOwner⟩ := Topics.exists_ofAddress h.owner
  refine readsBack_of_arguments name aside (bind_eq howner rfl) fun count hcount => ?_
  have hcount : 9 ≤ count := hcount
  refine bind_eq (?_ : offerMade _ = .ok (a.cut count)) (paidWithNonce_cut rfl rfl hpays)
  refine bind_eq (Topics.text_cut rfl (by omega)) ?_
  refine bind_eq (Topics.wordOrZero_cut rfl h.nonce count) ?_
  refine bind_eq (Topics.word_cut rfl h.offerId (by omega)) ?_
  refine bind_eq (Topics.amount_cut rfl h.amount (by omega)) ?_
  refine bind_eq (Topics.timestampOrZero_cut rfl h.deadline count) ?_
  refine bind_eq (readOwner rfl (by omega)) ?_
  refine bind_eq (Topics.wordOrZero_cut rfl h.quantity.2 count) ?_
  rw [max_quantity h.quantity, kept_of_lt (show 2 < count by omega),
    kept_of_lt (show 7 < count by omega)]
  rfl

/-- Offers that are accepted, which name no payment. -/
theorem readsBack_offerAccepted {a : OfferTaken} (h : a.Fits) :
    ReadsBack name aside ⟨.offerAccepted a, token, nonce⟩ := by
  obtain ⟨seller, hseller, readSeller⟩ := Topics.exists_ofAddress h.seller
  refine readsBack_of_arguments name aside (bind_eq hseller rfl) fun count hcount => ?_
  have hcount : 5 ≤ count := hcount
  refine bind_eq (?_ : offerTaken _ = .ok (a.cut count)) rfl
  refine bind_eq (Topics.text_cut rfl (by omega)) ?_
  refine bind_eq (Topics.word_cut rfl h.nonce (by omega)) ?_
  refine bind_eq (Topics.word_cut rfl h.offerId (by omega)) ?_
  refine bind_eq (readSeller rfl (by omega)) ?_
  exact bind_eq (Topics.wordOrZero_cut rfl h.auctionId count) rfl

/-- Offers that are withdrawn, which name no payment. -/
theorem readsBack_offerClosed {a : OfferWithdrawn} (h : a.Fits) :
    ReadsBack name aside ⟨.offerClosed a, token, nonce⟩ := by
  refine readsBack_of_arguments name aside rfl fun count hcount => ?_
  have hcount : 4 ≤ count := hcount
  refine bind_eq (?_ : offerWithdrawn _ = .ok a) rfl
  refine bind_eq (Topics.text_cut rfl (by omega)) ?_
  refine bind_eq (Topics.wordOrZero_cut rfl h.nonce count) ?_
  refine bind_eq (Topics.word_cut rfl h.offerId (by omega)) ?_
  rw [kept_of_lt (by omega)]
  rfl

/-- Global acceptances, which name no payment. -/
theorem readsBack_globalOfferAccepted {a : GlobalOfferTaken} (h : a.Fits) :
    ReadsBack name aside ⟨.globalOfferAccepted a, token, nonce⟩ := by
  obtain ⟨offerOwner, hofferOwner, readOfferOwner⟩ :=
    Topics.exists_ofAddress h.offerOwner
  obtain ⟨seller, hseller, readSeller⟩ := Topics.exists_ofAddress h.seller
  refine readsBack_of_arguments name aside
    (bind_eq hofferOwner (bind_eq hseller rfl)) fun count hcount => ?_
  have hcount : 7 ≤ count := hcount
  refine bind_eq (?_ : globalOfferTaken _ = .ok (a.cut count)) rfl
  refine bind_eq (Topics.word_cut rfl h.globalOfferId (by omega)) ?_
  refine bind_eq (Topics.text_cut rfl (by omega)) ?_
  refine bind_eq (Topics.word_cut rfl h.nonce (by omega)) ?_
  refine bind_eq (readOfferOwner rfl (by omega)) ?_
  refine bind_eq (readSeller rfl (by omega)) ?_
  refine bind_eq (Topics.amount_cut rfl h.amount (by omega)) ?_
  exact bind_eq (Topics.wordOrZero_cut rfl h.auctionId count) rfl

/-- What can be written is read back, also from a log that lacks arguments
which may be absent. -/
theorem readsBack_of_fits {reading : Reading} (h : reading.Fits)
    (howner : ∀ owner ∈ aside.owner, IsAddress owner) :
    ReadsBack name aside reading := by
  obtain ⟨action, token, nonce⟩ := reading
  obtain ⟨hfits, hpays⟩ := h
  cases action with
  | started a => exact readsBack_started name aside hfits hpays
  | bid a => exact readsBack_bid name aside hfits hpays
  | bought a => exact readsBack_bought name aside hfits hpays
  | ended a => exact readsBack_ended name aside hfits hpays
  | closed a => exact readsBack_closed name aside hfits howner
  | repriced a => exact readsBack_repriced name aside hfits hpays
  | updated a => exact readsBack_updated name aside hfits hpays
  | offerCreated a => exact readsBack_offerCreated name aside hfits hpays
  | offerAccepted a => exact readsBack_offerAccepted name aside hfits
  | offerClosed a => exact readsBack_offerClosed name aside hfits
  | globalOfferAccepted a => exact readsBack_globalOfferAccepted name aside hfits

end Layout

-- =============================================================== whole logs

/-- No log has an argument behind its fourteenth topic. -/
theorem Action.cut_of_le {count : Nat} (h : 14 ≤ count) (action : Action) :
    action.cut count = action := by
  cases action with
  | started a =>
    unfold Action.cut Opening.cut
    simp (disch := omega) only [kept_of_lt]
  | ended a =>
    unfold Action.cut Ending.cut
    simp (disch := omega) only [kept_of_lt]
  | updated a =>
    unfold Action.cut Revision.cut
    simp (disch := omega) only [kept_of_lt]
  | offerCreated a =>
    unfold Action.cut OfferMade.cut
    simp (disch := omega) only [kept_of_lt]
  | offerAccepted a =>
    unfold Action.cut OfferTaken.cut
    simp (disch := omega) only [kept_of_lt]
  | globalOfferAccepted a =>
    unfold Action.cut GlobalOfferTaken.cut
    simp (disch := omega) only [kept_of_lt]
  | bid | bought | closed | repriced | offerClosed => rfl

/-- The payment stands within the fourteen topics that a log has at most. -/
theorem ActionKind.index_lt {kind : ActionKind} {index : Nat}
    (h : kind.paymentPlace = .token index ∨ kind.paymentPlace = .tokenAndNonce index) :
    index + 1 < 14 := by
  cases kind <;> simp [paymentPlace] at h <;> omega

/-- A reading is not changed by a cut behind the last topic. -/
theorem Reading.cut_of_le {count : Nat} (h : 14 ≤ count) {reading : Reading}
    (hfits : reading.Fits) : reading.cut count = reading := by
  obtain ⟨action, token, nonce⟩ := reading
  have hpays : NamesPayment _ action.kind.paymentPlace := hfits.payment
  unfold Reading.cut
  dsimp only
  rw [Action.cut_of_le h]
  cases hplace : action.kind.paymentPlace with
  | nowhere =>
    rw [hplace] at hpays
    obtain ⟨rfl, rfl⟩ := hpays
    rfl
  | token index =>
    rw [hplace] at hpays
    have hindex := ActionKind.index_lt (.inl hplace)
    obtain ⟨-, rfl⟩ := hpays
    dsimp only
    rw [kept_of_lt (by omega)]
  | tokenAndNonce index =>
    have hindex := ActionKind.index_lt (.inr hplace)
    simp (disch := omega) only [kept_of_lt, Option.map_id']

namespace Topics

/-- Topics are not changed by a cut behind the last one. -/
theorem cut_of_le {topics : Topics} {count : Nat} (h : topics.texts.length ≤ count) :
    topics.cut count = topics := by
  unfold cut
  rw [List.take_of_length_le h]

end Topics

-- =============================================================== event sets

/-- The event with other arguments. -/
def Event.carrying (event : Event) (topics : Topics) : Event :=
  { event with topics := topics.texts }

namespace EventSet

/-- The summary of a reading that stands for itself, in a set of one event. -/
def summaryOf (marketplace : Marketplace) (event : Event) (reading : Reading) :
    ActionSummary where
  txHash := event.txHash
  timestamp := event.timestamp
  marketplaceKey := marketplace.key
  paymentToken := reading.paymentToken
  paymentNonce := reading.paymentNonce
  action := reading.action

/-- Where no transfer was seen, the payment is the one that the log names. -/
theorem payFrom_none (reading : Reading) : payFrom none reading = reading := by
  unfold payFrom
  cases reading.paymentToken <;> rfl

/-- A set of one action log has nothing that could pay instead. -/
theorem summarize_singleton {marketplace : Marketplace} {event : Event}
    {kind : ActionKind} {reading : Reading}
    (hown : event.address = marketplace.address)
    (hkind : classOf event = .action kind)
    (hread : Layout.read ⟨event.topics⟩ kind = .ok reading) :
    summarize marketplace [event] = .ok [summaryOf marketplace event reading] := by
  have hlogs : ownLogs marketplace [event] = [event] := by
    simp [ownLogs, hown]
  have hunknown : firstUnknown? marketplace [event] = none := by
    simp [firstUnknown?, hlogs, hkind]
  have hactions : actionLogs marketplace [event] = [(event, kind)] := by
    simp [actionLogs, hlogs, hkind]
  have hpays : transferPayment? marketplace [event] = none := by
    simp [transferPayment?, hkind]
  have hlog : summarizeLog marketplace event none (event, kind)
      = .ok (summaryOf marketplace event reading) := by
    unfold summarizeLog
    dsimp only
    rw [hread]
    dsimp only
    rw [payFrom_none]
    rfl
  unfold summarize
  dsimp only
  rw [hunknown, hactions, hpays]
  dsimp only
  rw [List.mapM_cons, hlog]
  rfl

/-- The log that was written for a reading reports that reading, and so does
what is left of it once it is cut behind what must be present, with defaults
for what is gone. -/
theorem summarize_write {marketplace : Marketplace} {event : Event} {aside : Aside}
    {reading : Reading} (hown : event.address = marketplace.address)
    (hkind : classOf event = .action reading.action.kind) (hfits : reading.Fits)
    (howner : ∀ owner ∈ aside.owner, IsAddress owner) :
    ∃ topics, Layout.write event.identifier aside reading = .ok topics
      ∧ summarize marketplace [event.carrying topics]
          = .ok [summaryOf marketplace event reading]
      ∧ ∀ count, reading.action.kind.required ≤ count →
        summarize marketplace [event.carrying (topics.cut count)]
          = .ok [summaryOf marketplace event (reading.cut count)] := by
  obtain ⟨topics, hwrite, hread⟩ :=
    Layout.readsBack_of_fits event.identifier aside hfits howner
  have hcut : ∀ count, reading.action.kind.required ≤ count →
      summarize marketplace [event.carrying (topics.cut count)]
        = .ok [summaryOf marketplace event (reading.cut count)] := fun count hcount =>
    summarize_singleton hown hkind (hread count hcount)
  refine ⟨topics, hwrite, ?_, hcut⟩
  -- The whole log is the one that is cut behind its end.
  have hwhole := hcut (max 14 topics.texts.length) ?_
  · rwa [Topics.cut_of_le (Nat.le_max_right _ _),
      Reading.cut_of_le (Nat.le_max_left _ _) hfits] at hwhole
  · exact Nat.le_trans (ActionKind.required_le _) (Nat.le_max_left _ _)

end EventSet

namespace Sample

/-- The address of some key. -/
def keeper : String := Bech32.encode Address.hrp (List.replicate 32 7)

/-- The key of the sample address is thirty-two times the same byte. -/
theorem isAddress_keeper : IsAddress keeper := ⟨List.replicate 32 7, rfl⟩

/-- An auction opens, with every argument that its log can have. -/
def fullOpening : Reading :=
  ⟨.started ⟨⟨7, "C", 300⟩, 2, keeper, 5, 70000, 1, 1000, 2000, .sftAll⟩,
    some "USDC", some 0⟩

/-- The same without what stands behind the eighth topic. -/
def shortOpening : Reading :=
  ⟨.started ⟨⟨7, "C", 300⟩, 2, keeper, 5, 70000, 0, 0, 0, .nft⟩, none, none⟩

/-- The log of an opening, still without topics. -/
def openingLog : Event := ⟨3, "opened", none, "listing", "booth", []⟩

def booth : Marketplace := ⟨"booth", "booth", .external, .byAuctionId⟩

end Sample

/-- There an auction opens, and opens alike once its log is cut. -/
theorem EventSet.summarize_write_sample :
    Sample.fullOpening.Fits
      ∧ ∃ topics, Layout.write "listing" ⟨0, none⟩ Sample.fullOpening = .ok topics
        ∧ summarize Sample.booth [Sample.openingLog.carrying topics]
            = .ok [summaryOf Sample.booth Sample.openingLog Sample.fullOpening]
        ∧ summarize Sample.booth [Sample.openingLog.carrying (topics.cut 8)]
            = .ok [summaryOf Sample.booth Sample.openingLog Sample.shortOpening] := by
  have hopening : Opening.Fits
      ⟨⟨7, "C", 300⟩, 2, Sample.keeper, 5, 70000, 1, 1000, 2000, .sftAll⟩ :=
    { listing := ⟨by decide, by decide⟩
      quantity := ⟨by decide, by decide⟩
      owner := Sample.isAddress_keeper
      minBid := by decide
      maxBid := by decide
      minBidDiff := by decide
      startTime := by decide
      deadline := by decide }
  have hfits : Sample.fullOpening.Fits := by
    refine ⟨hopening, by decide, rfl, ?_⟩
    rintro nonce ⟨⟩
    decide
  obtain ⟨topics, hwrite, hwhole, hcut⟩ :=
    @summarize_write Sample.booth Sample.openingLog ⟨0, none⟩ Sample.fullOpening
      rfl (by decide) hfits (by simp)
  exact ⟨hfits, topics, hwrite, hwhole, hcut 8 (by decide)⟩

end MarketReplay
