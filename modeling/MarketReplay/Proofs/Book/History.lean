/-
Everything that can be done to a book, and what stays true of it.

A `Book.Deed` is one thing a replay does to its book: an action is dispatched
by the built-in handlers with some payment, the book is swept, or tags are
filled in. `Book.after` does a list of deeds to a fresh book, in any order and
whatever the actions say; no deed fails.

`Book.Filed` says what a book promises to whoever looks something up in it:
the indices answer with the records of the lists, and positions, numbers and
transactions name at most one record. Only the names of the records decide
that, so it is read off the roster (`Book.filed_of_sound`), whose soundness
every deed keeps.
-/
import MarketReplay.Proofs.Store.Stored

namespace MarketReplay

-- ================================================================ deeds

namespace Book

/-- What can be done to a book. -/
inductive Deed
  | dispatch (summary : ActionSummary) (payment : Payment)
  | sweep (now : Int)
  | fill (answers : List TokenTags)

/-- The book after a deed. -/
def perform (book : Book) : Deed → Except RunError Book
  | .dispatch summary payment =>
      Registry.standard.dispatch book summary payment
  | .sweep now => .ok (book.expire now)
  | .fill answers => .ok (book.fillTags answers)

/-- The book of a marketplace after some deeds, in order. -/
def after (marketplace : Marketplace) (deeds : List Deed) :
    Except RunError Book :=
  deeds.foldlM perform (empty marketplace)

/-- Every deed is done, and keeps the roster sound. -/
theorem exists_perform {book : Book} (h : book.roster.Sound) (deed : Deed) :
    ∃ next, book.perform deed = .ok next ∧ next.roster.Sound := by
  cases deed with
  | dispatch summary payment =>
      have hnext := Registry.dispatch_standard book summary payment
      refine ⟨_, hnext, ?_⟩
      rw [Registry.builtIn_standard.roster_dispatch hnext]
      exact h.step (book.roster.step_take book.marketplace.lookup summary)
  | sweep now => exact ⟨_, rfl, by rwa [roster_expire]⟩
  | fill answers => exact ⟨_, rfl, by rwa [roster_fillTags]⟩

/-- So are any number of them. -/
theorem exists_performs {book : Book} (h : book.roster.Sound)
    (deeds : List Deed) :
    ∃ last, deeds.foldlM perform book = .ok last ∧ last.roster.Sound := by
  induction deeds generalizing book with
  | nil => exact ⟨book, rfl, h⟩
  | cons deed deeds ih =>
      obtain ⟨next, hnext, hsound⟩ := exists_perform h deed
      obtain ⟨last, hlast, hall⟩ := ih hsound
      refine ⟨last, ?_, hall⟩
      rw [List.foldlM_cons, hnext]
      exact hlast

-- ============================================================ the promise

/-- What a book promises to whoever looks something up in it. -/
structure Filed (book : Book) : Prop where
  /-- No two auctions share a number. -/
  auction_numbers : (book.auctions.map (·.marketplaceAuctionId)).Nodup
  auctionIndex? : ∀ number i, book.auctionIndex? number = some i ↔
    ∃ auction, book.auctions[i]? = some auction
      ∧ auction.marketplaceAuctionId = number
  /-- A token is found at the last of its auctions. -/
  auctionIndexByIdentifier? : ∀ identifier i,
    book.auctionIndexByIdentifier? identifier = some i ↔
      (∃ auction, book.auctions[i]? = some auction
        ∧ auction.identifier = identifier)
      ∧ ∀ j auction, book.auctions[j]? = some auction →
        auction.identifier = identifier → j ≤ i
  auctionIndexByIdentifier?_none : ∀ identifier,
    book.auctionIndexByIdentifier? identifier = none ↔
      ∀ auction ∈ book.auctions, auction.identifier ≠ identifier
  /-- No two offers share a number. -/
  offer_numbers : (book.offers.map (·.marketplaceOfferId)).Nodup
  offerIndex? : ∀ number i, book.offerIndex? number = some i ↔
    ∃ offer, book.offers[i]? = some offer
      ∧ offer.marketplaceOfferId = number
  /-- Every order has its auction. -/
  order_auctions :
    ∀ order ∈ book.orders, order.auctionIndex < book.auctions.length
  /-- No transaction has two orders on one auction. -/
  order_places :
    (book.orders.map fun order => (order.auctionIndex, order.blockHash)).Nodup

variable {book : Book}

theorem getElem?_map_eq_some {α κ : Type} {key : α → κ} {list : List α}
    {i : Nat} {k : κ} :
    (list.map key)[i]? = some k ↔ ∃ a, list[i]? = some a ∧ key a = k := by
  rw [List.getElem?_map, Option.map_eq_some_iff]

/-- A book with a sound roster keeps its promise. -/
theorem filed_of_sound (h : book.roster.Sound) : book.Filed := by
  -- the roster lists the keys of the records, in the order of the records
  have hnumbers : book.roster.auctions.map (·.number)
      = book.auctions.map (·.marketplaceAuctionId) := List.map_map
  have hidentifiers : book.roster.auctions.map (·.identifier)
      = book.auctions.map (·.identifier) := List.map_map
  have hoffers : book.roster.offers.map (·.number)
      = book.offers.map (·.marketplaceOfferId) := List.map_map
  have hplaces : book.roster.orders.map OrderName.place
      = book.orders.map fun order => (order.auctionIndex, order.blockHash) :=
    List.map_map
  constructor
  case auction_numbers => exact hnumbers ▸ h.auctions_nodup
  case auctionIndex? =>
    intro number i
    rw [← getElem?_map_eq_some, ← hnumbers]
    exact h.auctionById.find?_eq_some_iff_getElem? h.auctions_nodup number i
  case auctionIndexByIdentifier? =>
    intro identifier i
    refine (h.auctionByIdentifier.find?_eq_some_iff identifier i).trans ?_
    simp only [hidentifiers, getElem?_map_eq_some, forall_exists_index,
      and_imp]
  case auctionIndexByIdentifier?_none =>
    intro identifier
    refine (h.auctionByIdentifier.find?_eq_none_iff identifier).trans ?_
    simp [hidentifiers]
  case offer_numbers => exact hoffers ▸ h.offers_nodup
  case offerIndex? =>
    intro number i
    rw [← getElem?_map_eq_some, ← hoffers]
    exact h.offerById.find?_eq_some_iff_getElem? h.offers_nodup number i
  case order_auctions => exact fun order => order_known h
  case order_places => exact hplaces ▸ h.orders_nodup

/-- What an action refers to is in the book if it is found at all. -/
theorem Filed.lt_of_auctionIndexFor? (h : book.Filed)
    {summary : ActionSummary} {i : Nat}
    (hfound : book.auctionIndexFor? summary = some i) :
    i < book.auctions.length := by
  obtain ⟨listing, -, hlisting⟩ := Option.bind_eq_some_iff.1 hfound
  unfold listingIndex? at hlisting
  have hplace : ∃ auction, book.auctions[i]? = some auction := by
    cases hlookup : book.marketplace.lookup with
    | byAuctionId =>
        rw [hlookup] at hlisting
        obtain ⟨auction, hauction, -⟩ := (h.auctionIndex? _ i).1 hlisting
        exact ⟨auction, hauction⟩
    | byIdentifier =>
        rw [hlookup] at hlisting
        obtain ⟨⟨auction, hauction, -⟩, -⟩ :=
          (h.auctionIndexByIdentifier? _ i).1 hlisting
        exact ⟨auction, hauction⟩
  obtain ⟨auction, hauction⟩ := hplace
  exact (List.getElem?_eq_some_iff.1 hauction).1

/-- Whatever is done to a fresh book, the book is there afterwards and keeps
its promise. The auction of an action, if it is found, is one of the book's,
so is the offer of a number, and with one number for each auction every order
is bound to the number of its own. -/
theorem after_filed (marketplace : Marketplace) (deeds : List Deed) :
    ∃ book, after marketplace deeds = .ok book ∧ book.Filed
      ∧ (∀ summary i, book.auctionIndexFor? summary = some i →
        i < book.auctions.length)
      ∧ (∀ number i, book.offerIndex? number = some i →
        i < book.offers.length)
      ∧ ∀ ids : List Int, ids.length = book.auctions.length →
        book.orders.mapM (Order.bind ids) = .ok (book.orders.map fun order =>
          { order with auctionId := ids[order.auctionIndex]? }) := by
  obtain ⟨book, hafter, hsound⟩ :=
    exists_performs (sound_empty marketplace) deeds
  have hfiled := filed_of_sound hsound
  refine ⟨book, hafter, hfiled,
    fun summary i hfound => hfiled.lt_of_auctionIndexFor? hfound,
    fun number i hfound => ?_, fun ids hids => ?_⟩
  · obtain ⟨offer, hoffer, -⟩ := (hfiled.offerIndex? number i).1 hfound
    exact (List.getElem?_eq_some_iff.1 hoffer).1
  · exact mapM_bind fun order hmem => hids ▸ hfiled.order_auctions order hmem

end Book

end MarketReplay
