/-
The roster of a book: which records it holds, and where they are found.

Of a record the roster keeps only its name, which is what it is looked up and
stored under: an auction's number and token, an order's auction and
transaction, an offer's number, and the marketplace of each. Beside the names
stand the three indices. Nothing that changes a record in place shows, and
what a record is changed to decides nothing either: which name an action adds
is a function of the roster alone (`Roster.take`,
`Registry.BuiltIn.roster_dispatch`), so neither prices nor statuses have a say
in it. An action leaves the roster alone or adds one name at the end of one
list (`Roster.Step`).

A name is added only where the index, or the list of orders, shows that it is
free. That is what keeps a roster sound: no two auctions or offers share a
number, no two orders share an auction and a transaction, every order has an
auction, and the indices find the last record of each name and nothing else
(`Roster.Sound`, `Roster.Sound.step`).
-/
import MarketReplay.Proofs.Book.Timeline

namespace MarketReplay

-- ============================================================= an index

namespace Index

variable {κ : Type} [DecidableEq κ]

/-- The index finds each key of a list at its last place, and no other key. -/
structure Files (index : Index κ) (keys : List κ) : Prop where
  find?_eq_some_iff : ∀ key i, index.find? key = some i ↔
    keys[i]? = some key ∧ ∀ j, keys[j]? = some key → j ≤ i
  find?_eq_none_iff : ∀ key, index.find? key = none ↔ key ∉ keys

theorem files_empty : (empty : Index κ).Files [] := by
  constructor <;> simp

omit [DecidableEq κ] in
/-- Behind a list there is room for a new key only. -/
theorem getElem?_concat_of_ne {keys : List κ} {key other : κ}
    (h : other ≠ key) (i : Nat) :
    (keys ++ [key])[i]? = some other ↔ keys[i]? = some other := by
  rw [List.getElem?_append]
  split
  next => rfl
  next hlen =>
    -- behind the list there is only the new key
    rw [List.getElem?_eq_none (Nat.le_of_not_lt hlen)]
    simp [List.getElem?_singleton, Ne.symm h]

/-- Filing a key behind the others keeps an index true to its list. -/
theorem Files.file {index : Index κ} {keys : List κ} (h : index.Files keys)
    (key : κ) : (index.file key keys.length).Files (keys ++ [key]) where
  find?_eq_some_iff other i := by
    rw [find?_file]
    by_cases hkey : other = key
    · subst hkey
      have hplace : (keys ++ [other])[keys.length]? = some other := by simp
      have hlast : ∀ j, (keys ++ [other])[j]? = some other →
          j ≤ keys.length := by
        intro j hj
        obtain ⟨hlt, -⟩ := List.getElem?_eq_some_iff.1 hj
        rw [List.length_append, List.length_singleton] at hlt
        omega
      rw [if_pos rfl]
      constructor
      · rintro ⟨⟩
        exact ⟨hplace, hlast⟩
      · rintro ⟨hi, hle⟩
        exact congrArg some (Nat.le_antisymm (hle _ hplace) (hlast _ hi))
    · rw [if_neg hkey, h.find?_eq_some_iff]
      simp only [getElem?_concat_of_ne hkey]
  find?_eq_none_iff other := by
    rw [find?_file]
    by_cases hkey : other = key
    · simp [hkey]
    · rw [if_neg hkey, h.find?_eq_none_iff]
      simp [hkey]

/-- Where no key occurs twice, its last place is its only one. -/
theorem Files.find?_eq_some_iff_getElem? {index : Index κ} {keys : List κ}
    (h : index.Files keys) (hnodup : keys.Nodup) (key : κ) (i : Nat) :
    index.find? key = some i ↔ keys[i]? = some key := by
  rw [h.find?_eq_some_iff]
  refine ⟨And.left, fun hi => ⟨hi, fun j hj => ?_⟩⟩
  obtain ⟨hlt, -⟩ := List.getElem?_eq_some_iff.1 hj
  exact Nat.le_of_eq ((List.getElem?_inj hlt hnodup).1 (hj.trans hi.symm))

end Index

-- ============================================================ the names

/-- What an auction is found and stored under. -/
structure AuctionName where
  number : Nat
  identifier : String
  marketplaceKey : String

/-- What an order is found and stored under. -/
structure OrderName where
  /-- The position of its auction. -/
  auction : Nat
  txHash : String
  marketplaceKey : String

/-- What an offer is found and stored under. -/
structure OfferName where
  number : Nat
  marketplaceKey : String

def Auction.name (auction : Auction) : AuctionName :=
  ⟨auction.marketplaceAuctionId, auction.identifier, auction.marketplaceKey⟩

def Order.name (order : Order) : OrderName :=
  ⟨order.auctionIndex, order.blockHash, order.marketplaceKey⟩

def Offer.name (offer : Offer) : OfferName :=
  ⟨offer.marketplaceOfferId, offer.marketplaceKey⟩

/-- Auction and transaction of an order. -/
def OrderName.place (name : OrderName) : Nat × String :=
  (name.auction, name.txHash)

/-- The names of the records of a book, in order, and the indices that find
them. -/
structure Roster where
  auctions : List AuctionName
  orders : List OrderName
  offers : List OfferName
  auctionById : Index Nat
  auctionByIdentifier : Index String
  offerById : Index Nat

namespace Roster

variable (roster : Roster)

def addAuction (name : AuctionName) : Roster :=
  { roster with
    auctions := roster.auctions ++ [name]
    auctionById := roster.auctionById.file name.number roster.auctions.length
    auctionByIdentifier :=
      roster.auctionByIdentifier.file name.identifier roster.auctions.length }

def addOrder (name : OrderName) : Roster :=
  { roster with orders := roster.orders ++ [name] }

def addOffer (name : OfferName) : Roster :=
  { roster with
    offers := roster.offers ++ [name]
    offerById := roster.offerById.file name.number roster.offers.length }

/-- What one action of a marketplace can do to a roster. -/
inductive Step (key : String) (before : Roster) : Roster → Prop
  | same : Step key before before
  | auction {name : AuctionName} (carries : name.marketplaceKey = key)
      (free : before.auctionById.find? name.number = none) :
      Step key before (before.addAuction name)
  | order {name : OrderName} (carries : name.marketplaceKey = key)
      (known : name.auction < before.auctions.length)
      (fresh : name.place ∉ before.orders.map OrderName.place) :
      Step key before (before.addOrder name)
  | offer {name : OfferName} (carries : name.marketplaceKey = key)
      (free : before.offerById.find? name.number = none) :
      Step key before (before.addOffer name)

/-- The position of the auction that an action refers to, if there is one. -/
def auctionFor? (lookup : Lookup) (summary : ActionSummary) : Option Nat :=
  (summary.listing?.bind fun listing =>
    match lookup with
    | .byAuctionId => roster.auctionById.find? listing.auctionId
    | .byIdentifier => roster.auctionByIdentifier.find? listing.identifier).filter
      (· < roster.auctions.length)

/-- The roster after an action that orders. -/
def takeOrder (lookup : Lookup) (summary : ActionSummary) : Roster :=
  match roster.auctionFor? lookup summary with
  | none => roster
  | some auction =>
      if (auction, summary.txHash) ∈ roster.orders.map OrderName.place then roster
      else roster.addOrder ⟨auction, summary.txHash, summary.marketplaceKey⟩

/-- The roster after an action. -/
def take (lookup : Lookup) (roster : Roster) (summary : ActionSummary) :
    Roster :=
  match summary.action with
  | .started opening =>
      match roster.auctionById.find? opening.auctionId with
      | some _ => roster
      | none => roster.addAuction
          ⟨opening.auctionId, opening.toListing.identifier, summary.marketplaceKey⟩
  | .bid _ => roster.takeOrder lookup summary
  | .bought _ => roster.takeOrder lookup summary
  | .offerCreated made =>
      match roster.offerById.find? made.offerId with
      | some _ => roster
      | none => roster.addOffer ⟨made.offerId, summary.marketplaceKey⟩
  | _ => roster

/-- An order is entered for an auction that there is, once for each
transaction. -/
theorem step_takeOrder (lookup : Lookup) (summary : ActionSummary) :
    roster.Step summary.marketplaceKey (roster.takeOrder lookup summary) := by
  unfold takeOrder
  split
  next => exact .same
  next auction hfound =>
    split
    next => exact .same
    next hfresh =>
      have hknown := (Option.filter_eq_some_iff.1 hfound).2
      exact .order rfl (of_decide_eq_true hknown) hfresh

/-- Whatever an action is, it adds one name at most, and one that is free. -/
theorem step_take (lookup : Lookup) (summary : ActionSummary) :
    roster.Step summary.marketplaceKey (roster.take lookup summary) := by
  unfold take
  cases summary.action with
  | started opening =>
      dsimp only
      cases hfind : roster.auctionById.find? opening.auctionId with
      | some index => exact .same
      | none => exact .auction rfl hfind
  | bid bid => exact roster.step_takeOrder lookup summary
  | bought purchase => exact roster.step_takeOrder lookup summary
  | offerCreated made =>
      dsimp only
      cases hfind : roster.offerById.find? made.offerId with
      | some index => exact .same
      | none => exact .offer rfl hfind
  | _ => exact .same

/-- The indices find what the lists hold, no name is taken twice, and every
order has an auction. -/
structure Sound : Prop where
  auctionById : roster.auctionById.Files (roster.auctions.map (·.number))
  auctionByIdentifier :
    roster.auctionByIdentifier.Files (roster.auctions.map (·.identifier))
  offerById : roster.offerById.Files (roster.offers.map (·.number))
  auctions_nodup : (roster.auctions.map (·.number)).Nodup
  orders_nodup : (roster.orders.map OrderName.place).Nodup
  offers_nodup : (roster.offers.map (·.number)).Nodup
  orders_known : ∀ name ∈ roster.orders, name.auction < roster.auctions.length

/-- A list without repetition takes a new entry. -/
theorem nodup_concat {α : Type} {list : List α} {a : α} (h : list.Nodup)
    (hfresh : a ∉ list) : (list ++ [a]).Nodup := by
  rw [List.nodup_append]
  refine ⟨h, by simp, fun b hb c hc => ?_⟩
  rw [List.mem_singleton.1 hc]
  exact fun heq => hfresh (heq ▸ hb)

/-- What holds of a list and of one more entry holds of both together. -/
theorem forall_mem_concat {α : Type} {p : α → Prop} {list : List α} {a : α}
    (h : ∀ b ∈ list, p b) (ha : p a) : ∀ b ∈ list ++ [a], p b := by
  intro b hb
  rcases List.mem_append.1 hb with hb | hb
  · exact h b hb
  · rw [List.mem_singleton.1 hb]
    exact ha

variable {roster}

/-- An auction with a free number keeps a roster sound. -/
theorem Sound.addAuction (h : roster.Sound) {name : AuctionName}
    (free : roster.auctionById.find? name.number = none) :
    (roster.addAuction name).Sound := by
  have hfresh := (h.auctionById.find?_eq_none_iff _).1 free
  have hnumbers := h.auctionById.file name.number
  have hidentifiers := h.auctionByIdentifier.file name.identifier
  rw [List.length_map] at hnumbers hidentifiers
  constructor
  case auctionById => simpa [Roster.addAuction] using hnumbers
  case auctionByIdentifier => simpa [Roster.addAuction] using hidentifiers
  case auctions_nodup =>
    simpa [Roster.addAuction] using nodup_concat h.auctions_nodup hfresh
  case orders_known =>
    intro order hmem
    have := h.orders_known order hmem
    rw [Roster.addAuction, List.length_append]
    exact Nat.lt_add_right _ this
  case offerById => exact h.offerById
  case orders_nodup => exact h.orders_nodup
  case offers_nodup => exact h.offers_nodup

/-- So does an order of its own on an auction that is there. -/
theorem Sound.addOrder (h : roster.Sound) {name : OrderName}
    (known : name.auction < roster.auctions.length)
    (fresh : name.place ∉ roster.orders.map OrderName.place) :
    (roster.addOrder name).Sound := by
  constructor
  case orders_nodup =>
    simpa [Roster.addOrder] using nodup_concat h.orders_nodup fresh
  case orders_known =>
    exact forall_mem_concat h.orders_known known
  case auctionById => exact h.auctionById
  case auctionByIdentifier => exact h.auctionByIdentifier
  case offerById => exact h.offerById
  case auctions_nodup => exact h.auctions_nodup
  case offers_nodup => exact h.offers_nodup

/-- So does an offer with a free number. -/
theorem Sound.addOffer (h : roster.Sound) {name : OfferName}
    (free : roster.offerById.find? name.number = none) :
    (roster.addOffer name).Sound := by
  have hfresh := (h.offerById.find?_eq_none_iff _).1 free
  have hnumbers := h.offerById.file name.number
  rw [List.length_map] at hnumbers
  constructor
  case offerById => simpa [Roster.addOffer] using hnumbers
  case offers_nodup =>
    simpa [Roster.addOffer] using nodup_concat h.offers_nodup hfresh
  case auctionById => exact h.auctionById
  case auctionByIdentifier => exact h.auctionByIdentifier
  case auctions_nodup => exact h.auctions_nodup
  case orders_nodup => exact h.orders_nodup
  case orders_known => exact h.orders_known

/-- Every record is of one marketplace. -/
structure Carries (key : String) (roster : Roster) : Prop where
  auctions : ∀ name ∈ roster.auctions, name.marketplaceKey = key
  orders : ∀ name ∈ roster.orders, name.marketplaceKey = key
  offers : ∀ name ∈ roster.offers, name.marketplaceKey = key

/-- The records of a roster are the first of another one. -/
structure Begins (roster other : Roster) : Prop where
  auctions : roster.auctions <+: other.auctions
  orders : roster.orders <+: other.orders
  offers : roster.offers <+: other.offers

theorem Begins.refl (roster : Roster) : roster.Begins roster :=
  ⟨List.prefix_rfl, List.prefix_rfl, List.prefix_rfl⟩

/-- A roster that has grown may grow on. -/
theorem Begins.trans {other last : Roster} (h : roster.Begins other)
    (more : other.Begins last) : roster.Begins last :=
  ⟨h.auctions.trans more.auctions, h.orders.trans more.orders,
    h.offers.trans more.offers⟩

/-- A step adds at the end. -/
theorem Step.begins {key : String} {after : Roster}
    (hs : Step key roster after) : roster.Begins after := by
  cases hs with
  | same => exact .refl roster
  | auction _ _ => exact { Begins.refl roster with auctions := List.prefix_append .. }
  | order _ _ _ => exact { Begins.refl roster with orders := List.prefix_append .. }
  | offer _ _ => exact { Begins.refl roster with offers := List.prefix_append .. }

/-- What a marketplace enters carries its key. -/
theorem Carries.step {key : String} {after : Roster} (h : roster.Carries key)
    (hs : Step key roster after) : after.Carries key := by
  cases hs with
  | same => exact h
  | auction carries _ =>
      exact { h with auctions := forall_mem_concat h.auctions carries }
  | order carries _ _ =>
      exact { h with orders := forall_mem_concat h.orders carries }
  | offer carries _ =>
      exact { h with offers := forall_mem_concat h.offers carries }

/-- Each step makes sure of what it takes to stay sound. -/
theorem Sound.step {key : String} {after : Roster} (h : roster.Sound)
    (hs : Step key roster after) : after.Sound := by
  cases hs with
  | same => exact h
  | auction _ free => exact h.addAuction free
  | order _ known fresh => exact h.addOrder known fresh
  | offer _ free => exact h.addOffer free

/-- What every step keeps, any number of actions of one marketplace keep. -/
theorem foldl_take {p : Roster → Prop} {key : String}
    {actions : List ActionSummary}
    (hkeys : ∀ summary ∈ actions, summary.marketplaceKey = key)
    (hstep : ∀ before after, p before → Step key before after → p after)
    (lookup : Lookup) (h : p roster) :
    p (actions.foldl (take lookup) roster) := by
  induction actions generalizing roster with
  | nil => exact h
  | cons summary actions ih =>
      obtain ⟨hkey, hrest⟩ := List.forall_mem_cons.1 hkeys
      have hfirst := roster.step_take lookup summary
      rw [hkey] at hfirst
      exact ih hrest (hstep _ _ h hfirst)

end Roster

-- ====================================================== the operations

/-- The records keep their names through everything that is done to them in
place. -/
@[simp] theorem Auction.name_advance (auction : Auction)
    (next : AuctionStatus) : (auction.advance next).name = auction.name := rfl

@[simp] theorem Auction.name_payIn (auction : Auction) (payment : Payment) :
    (auction.payIn payment).name = auction.name := rfl

/-- The token of payment is not part of a name. -/
@[simp] theorem Auction.name_payInNamed (auction : Auction)
    (summary : ActionSummary) (payment : Payment) :
    (auction.payInNamed summary payment).name = auction.name := by
  unfold payInNamed
  split <;> simp

/-- The price is not part of a name. -/
@[simp] theorem Auction.name_reprice (auction : Auction)
    (price decimals : Nat) :
    (auction.reprice price decimals).name = auction.name := by
  unfold reprice
  dsimp only
  split <;> rfl

/-- The terms are not part of a name. -/
@[simp] theorem Auction.name_revise (auction : Auction) (revision : Revision)
    (decimals : Nat) : (auction.revise revision decimals).name = auction.name := by
  unfold revise
  cases revision.newPrice <;> cases revision.deadline
  case none.none => rfl
  case none.some deadline => rfl
  case some.none price => exact auction.name_reprice price decimals
  case some.some price deadline => exact auction.name_reprice price decimals

/-- A swept auction is found where it was. -/
@[simp] theorem Auction.name_sweep (auction : Auction) (now : Int)
    (standing : Bool) : (auction.sweep now standing).name = auction.name := by
  unfold sweep
  split <;> simp

/-- The tags are not part of a name. -/
@[simp] theorem Auction.name_fillTags (auction : Auction)
    (answers : List TokenTags) :
    (auction.fillTags answers).name = auction.name := by
  unfold fillTags
  split
  · split <;> rfl
  · rfl

/-- An order keeps its name when it is settled. -/
@[simp] theorem Order.name_advance (order : Order) (next : OrderStatus) :
    (order.advance next).name = order.name := rfl

@[simp] theorem Offer.name_advance (offer : Offer) (next : OfferStatus) :
    (offer.advance next).name = offer.name := rfl

/-- An offer keeps its name when it is accepted. -/
@[simp] theorem Offer.name_accept (offer : Offer) (txHash : String) :
    (offer.accept txHash).name = offer.name := by
  unfold accept
  split <;> rfl

/-- An offer keeps its name when it is swept. -/
@[simp] theorem Offer.name_sweep (offer : Offer) (now : Int) :
    (offer.sweep now).name = offer.name := by
  unfold sweep
  split <;> simp

namespace Book

variable (book : Book)

/-- The roster of a book. -/
def roster : Roster where
  auctions := book.auctions.map Auction.name
  orders := book.orders.map Order.name
  offers := book.offers.map Offer.name
  auctionById := book.auctionById
  auctionByIdentifier := book.auctionByIdentifier
  offerById := book.offerById

/-- A book starts out with a sound roster. -/
theorem sound_empty (marketplace : Marketplace) :
    (empty marketplace).roster.Sound where
  auctionById := Index.files_empty
  auctionByIdentifier := Index.files_empty
  offerById := Index.files_empty
  auctions_nodup := List.nodup_nil
  orders_nodup := List.nodup_nil
  offers_nodup := List.nodup_nil
  orders_known := by simp [roster, empty]

/-- In a sound book every order has its auction. -/
theorem order_known {book : Book} (h : book.roster.Sound) {order : Order}
    (hmem : order ∈ book.orders) :
    order.auctionIndex < book.auctions.length := by
  have := h.orders_known order.name (List.mem_map_of_mem hmem)
  rwa [roster, List.length_map] at this

/-- A record and its name are added together; so for orders and offers below.
-/
@[simp] theorem roster_addAuction (auction : Auction) :
    (book.addAuction auction).roster
      = book.roster.addAuction auction.name := by
  simp [roster, addAuction, Roster.addAuction, Auction.name]

@[simp] theorem roster_addOrder (order : Order) :
    (book.addOrder order).roster = book.roster.addOrder order.name := by
  simp [roster, addOrder, Roster.addOrder]

@[simp] theorem roster_addOffer (offer : Offer) :
    (book.addOffer offer).roster = book.roster.addOffer offer.name := by
  simp [roster, addOffer, Roster.addOffer, Offer.name]

/-- A change of an auction that keeps its name does not show on the roster. -/
theorem roster_modifyAuction (index : Nat) {change : Auction → Auction}
    (h : ∀ auction, (change auction).name = auction.name) :
    (book.modifyAuction index change).roster = book.roster := by
  unfold roster modifyAuction
  rw [map_modify_of_comm (g := id) h, List.modify_id]

/-- Such a change of an offer does not show either. -/
theorem roster_modifyOffer (index : Nat) {change : Offer → Offer}
    (h : ∀ offer, (change offer).name = offer.name) :
    (book.modifyOffer index change).roster = book.roster := by
  unfold roster modifyOffer
  rw [map_modify_of_comm (g := id) h, List.modify_id]

/-- The status of an auction is not on the roster. -/
@[simp] theorem roster_advanceAuction (index : Nat) (next : AuctionStatus) :
    (book.advanceAuction index next).roster = book.roster :=
  book.roster_modifyAuction index fun auction => auction.name_advance next

/-- The status of an order is not on the roster. -/
@[simp] theorem roster_advanceOrders (auction : Nat) (next : OrderStatus) :
    (book.advanceOrders auction next).roster = book.roster := by
  unfold roster advanceOrders
  rw [List.map_map]
  refine congrArg (Roster.mk _ · _ _ _ _) (List.map_congr_left fun order _ => ?_)
  rw [Function.comp_apply]
  split <;> simp

/-- A sweep leaves the roster alone. -/
@[simp] theorem roster_expire (now : Int) :
    (book.expire now).roster = book.roster := by
  unfold roster expire
  have hauctions : (book.auctions.mapIdx fun index =>
      Auction.sweep now (book.hasActiveOrder index)).map Auction.name
        = book.auctions.map Auction.name := by
    refine List.ext_getElem? fun i => ?_
    rw [List.getElem?_map, List.getElem?_mapIdx, List.getElem?_map]
    cases book.auctions[i]? <;> simp
  have hoffers : (book.offers.map (Offer.sweep now)).map Offer.name
      = book.offers.map Offer.name := by
    rw [List.map_map]
    exact List.map_congr_left fun offer _ => offer.name_sweep now
  rw [hauctions, hoffers]

/-- Filling in tags leaves the roster alone. -/
@[simp] theorem roster_fillTags (answers : List TokenTags) :
    (book.fillTags answers).roster = book.roster := by
  unfold roster fillTags
  rw [List.map_map]
  refine congrArg (Roster.mk · _ _ _ _ _)
    (List.map_congr_left fun auction _ => ?_)
  exact auction.name_fillTags answers

-- ========================================================= the actions

variable (summary : ActionSummary) (payment : Payment)

/-- An opening enters its auction where the number is free. -/
theorem roster_openAuction {opening : Opening}
    (h : summary.action = .started opening) :
    (book.openAuction summary payment).roster
      = book.roster.take book.marketplace.lookup summary := by
  unfold openAuction Roster.take
  rw [h]
  dsimp only
  rw [show book.roster.auctionById.find? opening.auctionId
    = book.auctionIndex? opening.auctionId from rfl]
  cases book.auctionIndex? opening.auctionId with
  | some index => rfl
  | none => exact book.roster_addAuction _

/-- The end of an auction enters and removes nothing; the same is true of every
action that only changes records. -/
@[simp] theorem roster_endAuction :
    (book.endAuction summary payment).roster = book.roster := by
  unfold endAuction
  split
  · split
    · rw [roster_advanceOrders, roster_modifyAuction]
      exact fun auction => by simp
    · rfl
  · rfl

@[simp] theorem roster_closeAuction :
    (book.closeAuction summary).roster = book.roster := by
  unfold closeAuction
  split <;> simp

@[simp] theorem roster_repriceAuction :
    (book.repriceAuction summary payment).roster = book.roster := by
  unfold repriceAuction
  split
  · rw [roster_modifyAuction]
    exact fun auction => by simp
  · rfl

@[simp] theorem roster_updateAuction :
    (book.updateAuction summary payment).roster = book.roster := by
  unfold updateAuction
  split
  · rw [roster_modifyAuction]
    exact fun auction => by simp
  · rfl

/-- An action finds its auction in the book where it finds it in the
roster. -/
theorem auctionFor?_roster :
    book.roster.auctionFor? book.marketplace.lookup summary
      = (book.auctionFor? summary).map Prod.fst := by
  have hindex : book.auctionIndexFor? summary
      = summary.listing?.bind fun listing =>
        match book.marketplace.lookup with
        | .byAuctionId => book.roster.auctionById.find? listing.auctionId
        | .byIdentifier =>
            book.roster.auctionByIdentifier.find? listing.identifier := rfl
  unfold Roster.auctionFor? auctionFor?
  rw [← hindex]
  cases book.auctionIndexFor? summary with
  | none => rfl
  | some index =>
      have hlen : book.roster.auctions.length = book.auctions.length :=
        List.length_map _
      by_cases hlt : index < book.auctions.length
      · simp [Option.filter, hlen, hlt]
      · simp [Option.filter, hlen, hlt]

/-- A transaction has an order on an auction if its place is taken. -/
theorem hasOrder_iff (auction : Nat) (txHash : String) :
    book.hasOrder auction txHash = true
      ↔ (auction, txHash) ∈ book.roster.orders.map OrderName.place := by
  simp [hasOrder, roster, Order.name, OrderName.place]

/-- A bid enters an order, like a purchase; whether it wins does not matter. -/
theorem roster_placeBid {bid : Bid} (h : summary.action = .bid bid) :
    (book.placeBid summary payment).roster
      = book.roster.takeOrder book.marketplace.lookup summary := by
  unfold placeBid Roster.takeOrder
  rw [h, auctionFor?_roster]
  rcases book.auctionFor? summary with _ | ⟨index, auction⟩
  · rfl
  · simp only [Option.map_some, ← hasOrder_iff]
    split
    next => rfl
    next => split <;> simp [Order.name, Order.ofAction]

/-- A purchase enters an order; whether it sells the lot out does not matter.
-/
theorem roster_buyTokens {purchase : Purchase}
    (h : summary.action = .bought purchase) :
    (book.buyTokens summary payment).roster
      = book.roster.takeOrder book.marketplace.lookup summary := by
  unfold buyTokens Roster.takeOrder
  rw [h, auctionFor?_roster]
  rcases book.auctionFor? summary with _ | ⟨index, auction⟩
  · rfl
  · simp only [Option.map_some, ← hasOrder_iff]
    split
    next => rfl
    next => split <;> simp [Order.name, Order.ofAction]

/-- An offer is entered where its number is free. -/
theorem roster_makeOffer {made : OfferMade}
    (h : summary.action = .offerCreated made) :
    (book.makeOffer summary payment).roster
      = book.roster.take book.marketplace.lookup summary := by
  unfold makeOffer Roster.take
  rw [h]
  dsimp only
  rw [show book.roster.offerById.find? made.offerId
    = book.offerIndex? made.offerId from rfl]
  cases book.offerIndex? made.offerId with
  | some index => rfl
  | none => exact book.roster_addOffer _

/-- Whether an offer is open or accepted is not on the roster. -/
@[simp] theorem roster_acceptOffer :
    (book.acceptOffer summary).roster = book.roster := by
  unfold acceptOffer
  split
  · split
    · rw [roster_closeAuction, roster_modifyOffer]
      exact fun offer => offer.name_accept summary.txHash
    · rfl
  · rfl

@[simp] theorem roster_withdrawOffer :
    (book.withdrawOffer summary).roster = book.roster := by
  unfold withdrawOffer
  split
  · split
    · rw [roster_modifyOffer]
      exact fun offer => offer.name_advance .closed
    · rfl
  · rfl

/-- An offer to everyone that is accepted closes a listing, and enters nothing.
-/
@[simp] theorem roster_acceptGlobalOffer :
    (book.acceptGlobalOffer summary).roster = book.roster := by
  unfold acceptGlobalOffer
  split
  · split
    · rfl
    · rw [roster_closeAuction, roster_modifyOffer]
      exact fun offer => offer.name_accept summary.txHash
    · simp
  · rfl

end Book

namespace Registry

/-- The built-in handlers take every action. -/
theorem dispatch_standard (book : Book) (summary : ActionSummary)
    (payment : Payment) :
    standard.dispatch book summary payment
      = .ok ((Handler.ofKind summary.kind).apply book summary payment) := by
  have hget : standard.get? summary.kind
      = some (Handler.ofKind summary.kind) := by
    cases summary.kind <;> rfl
  rw [dispatch, hget]

/-- Every handler is one of the built-in ones; some may be missing. -/
def BuiltIn (registry : Registry) : Prop :=
  ∀ handler ∈ registry.handlers, ∃ kind, handler = Handler.ofKind kind

/-- The standard handlers are built in. -/
theorem builtIn_standard : standard.BuiltIn := by
  intro handler hmem
  obtain ⟨kind, -, rfl⟩ := List.mem_map.1 hmem
  exact ⟨kind, rfl⟩

/-- An action that they take is handled according to its kind. -/
theorem BuiltIn.dispatch_eq {registry : Registry} (h : registry.BuiltIn)
    {book next : Book} {summary : ActionSummary} {payment : Payment}
    (hnext : registry.dispatch book summary payment = .ok next) :
    next = (Handler.ofKind summary.kind).apply book summary payment := by
  unfold dispatch at hnext
  cases hget : registry.get? summary.kind with
  | none => rw [hget] at hnext; cases hnext
  | some handler =>
      rw [hget] at hnext
      obtain ⟨kind, rfl⟩ := h handler (List.mem_of_find?_eq_some hget)
      have hfound := List.find?_some hget
      have hkind : kind = summary.kind := eq_of_beq hfound
      cases hnext
      rw [hkind]

/-- What they make of the roster is the same whatever the payment. -/
theorem BuiltIn.roster_dispatch {registry : Registry} (h : registry.BuiltIn)
    {book next : Book} {summary : ActionSummary} {payment : Payment}
    (hnext : registry.dispatch book summary payment = .ok next) :
    next.roster = book.roster.take book.marketplace.lookup summary := by
  rw [h.dispatch_eq hnext]
  unfold Handler.ofKind ActionSummary.kind
  -- four kinds add a record; the others change what is there
  cases haction : summary.action with
  | started opening => exact book.roster_openAuction summary payment haction
  | bid bid =>
      rw [Roster.take, haction]
      exact book.roster_placeBid summary payment haction
  | bought purchase =>
      rw [Roster.take, haction]
      exact book.roster_buyTokens summary payment haction
  | offerCreated made => exact book.roster_makeOffer summary payment haction
  | _ => simp [Roster.take, haction, Action.kind]

end Registry

end MarketReplay
