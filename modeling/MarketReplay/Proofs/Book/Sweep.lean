/-
The expiry sweep: what one sweep moves, and two sweeps in a row.

A sweep looks at deadlines and at the orders, and writes neither. So whether a
later sweep finds a record overdue is told by the record as it was, except that
nothing which an earlier one has moved is moved again (`isOverdue_sweep`), and
what stands on an auction is the same for both. Being overdue at the later of
two times is being overdue at one of them (`isOverdue_max`). Records and
counters therefore compose alike: each record is moved, and counted, by the
first sweep that finds it overdue, and no other (`expire_expire`,
`expiry_max`).
-/
import MarketReplay.Book.Expiry

namespace MarketReplay

/-- What two sweeps moved together. -/
instance : Add Expiry where
  add first second := {
    auctionsClaimable := first.auctionsClaimable + second.auctionsClaimable
    auctionsExpired := first.auctionsExpired + second.auctionsExpired
    offersClosed := first.offersClosed + second.offersClosed }

/-- What adds nothing has moved nothing. -/
theorem Expiry.eq_none_of_add_eq {moved more : Expiry} (h : moved + more = moved) :
    more = .none := by
  obtain ⟨claimable, expired, closed⟩ := more
  have hclaimable : moved.auctionsClaimable + claimable = moved.auctionsClaimable :=
    congrArg auctionsClaimable h
  have hexpired : moved.auctionsExpired + expired = moved.auctionsExpired :=
    congrArg auctionsExpired h
  have hclosed : moved.offersClosed + closed = moved.offersClosed :=
    congrArg offersClosed h
  rw [Nat.left_eq_add.1 hclaimable.symm, Nat.left_eq_add.1 hexpired.symm,
    Nat.left_eq_add.1 hclosed.symm]
  rfl

variable (now first second : Int)

-- ============================================================ one auction

namespace Auction

variable (standing : Bool) (auction : Auction)

/-- An auction is overdue if it runs and its deadline is set and past. -/
theorem isOverdue_iff :
    auction.isOverdue now = true
      ↔ auction.status = .running ∧ auction.endDate ≠ 0 ∧ auction.endDate < now := by
  simp [isOverdue, and_assoc]

/-- An overdue auction becomes claimable if something stands on it, and
expires otherwise; no other one changes. -/
theorem sweep_eq :
    auction.sweep now standing = { auction with
      status := if auction.isOverdue now
        then (if standing then .claimable else .expired) else auction.status } := by
  unfold sweep
  split
  case isTrue hoverdue =>
    have hrunning := ((isOverdue_iff now auction).1 hoverdue).1
    unfold advance
    rw [hrunning, AuctionStatus.advance_running]
  case isFalse => rfl

/-- The auctions that a sweep makes claimable. -/
theorem sweep_claimable_iff :
    auction.status ≠ .claimable ∧ (auction.sweep now standing).status = .claimable
      ↔ auction.isOverdue now = true ∧ standing = true := by
  rw [sweep_eq]
  cases hoverdue : auction.isOverdue now with
  | false => simp
  | true =>
      have hrunning := ((isOverdue_iff now auction).1 hoverdue).1
      cases standing <;> simp [hrunning]

/-- The auctions that a sweep lets expire. -/
theorem sweep_expired_iff :
    auction.status ≠ .expired ∧ (auction.sweep now standing).status = .expired
      ↔ auction.isOverdue now = true ∧ standing = false := by
  rw [sweep_eq]
  cases hoverdue : auction.isOverdue now with
  | false => simp
  | true =>
      have hrunning := ((isOverdue_iff now auction).1 hoverdue).1
      cases standing <;> simp [hrunning]

/-- Being overdue at the later of two times is being overdue at one of them. -/
theorem isOverdue_max :
    auction.isOverdue (max first second)
      = (auction.isOverdue first || auction.isOverdue second) := by
  have hmax : ∀ date : Int,
      date < max first second ↔ date < first ∨ date < second := by omega
  rw [Bool.eq_iff_iff, Bool.or_eq_true, isOverdue_iff, isOverdue_iff, isOverdue_iff,
    hmax, and_or_left, and_or_left]

/-- What a sweep has moved, no other one moves. -/
theorem isOverdue_sweep :
    (auction.sweep first standing).isOverdue second
      = (!auction.isOverdue first && auction.isOverdue second) := by
  rw [sweep_eq]
  cases hoverdue : auction.isOverdue first with
  | false => rfl
  | true => cases standing <;> rfl

/-- Two sweeps are one at the later of their times: what the first one moved
runs no more. -/
theorem sweep_sweep :
    (auction.sweep first standing).sweep second standing
      = auction.sweep (max first second) standing := by
  rw [sweep_eq second, sweep_eq (max first second), isOverdue_sweep, isOverdue_max,
    sweep_eq first]
  cases auction.isOverdue first <;> cases auction.isOverdue second <;> rfl

end Auction

-- ============================================================== one offer

namespace Offer

variable (offer : Offer)

/-- An offer is overdue if it is open and its deadline is set and past. -/
theorem isOverdue_iff :
    offer.isOverdue now = true
      ↔ offer.status = .created ∧ offer.endDate ≠ 0 ∧ offer.endDate < now := by
  simp [isOverdue, and_assoc]

/-- An overdue offer is closed, and no other one changes. -/
theorem sweep_eq :
    offer.sweep now = { offer with
      status := if offer.isOverdue now then .closed else offer.status } := by
  unfold sweep
  split
  case isTrue hoverdue =>
    have hcreated := ((isOverdue_iff now offer).1 hoverdue).1
    unfold advance
    rw [hcreated, OfferStatus.advance_created]
  case isFalse => rfl

/-- The offers that a sweep closes. -/
theorem sweep_closed_iff :
    offer.status ≠ .closed ∧ (offer.sweep now).status = .closed
      ↔ offer.isOverdue now = true := by
  rw [sweep_eq]
  cases hoverdue : offer.isOverdue now with
  | false => simp
  | true => simp [((isOverdue_iff now offer).1 hoverdue).1]

/-- Being overdue at the later of two times is being overdue at one of them. -/
theorem isOverdue_max :
    offer.isOverdue (max first second)
      = (offer.isOverdue first || offer.isOverdue second) := by
  have hmax : ∀ date : Int,
      date < max first second ↔ date < first ∨ date < second := by omega
  rw [Bool.eq_iff_iff, Bool.or_eq_true, isOverdue_iff, isOverdue_iff, isOverdue_iff,
    hmax, and_or_left, and_or_left]

/-- What a sweep has closed, no other one closes. -/
theorem isOverdue_sweep :
    (offer.sweep first).isOverdue second
      = (!offer.isOverdue first && offer.isOverdue second) := by
  rw [sweep_eq]
  cases hoverdue : offer.isOverdue first <;> rfl

/-- Two sweeps are one at the later of their times: what the first one closed
is open no more. -/
theorem sweep_sweep :
    (offer.sweep first).sweep second = offer.sweep (max first second) := by
  rw [sweep_eq second, sweep_eq (max first second), isOverdue_sweep, isOverdue_max,
    sweep_eq first]
  cases offer.isOverdue first <;> cases offer.isOverdue second <;> rfl

end Offer

-- =============================================================== counting

/-- How many records of a list have come to a status that they did not have
before. -/
def moves {α σ : Type} [DecidableEq σ] (status : α → σ) (next : σ)
    (before after : List α) : Nat :=
  (before.zip after).countP fun (old, new) => status old ≠ next ∧ status new = next

/-- Records of two books that come from one list, place by place, are moved
where their elements say so. -/
theorem moves_map {α β σ : Type} [DecidableEq σ] (status : α → σ) (next : σ)
    (old new : β → α) (list : List β) :
    moves status next (list.map old) (list.map new)
      = list.countP fun b => status (old b) ≠ next ∧ status (new b) = next := by
  unfold moves
  rw [List.zip_map', List.countP_map]
  rfl

/-- What is found on one of two occasions, and not on both, is counted once. -/
theorem countP_eq_add {α : Type} (list : List α) {all early late : α → Bool}
    (hall : ∀ a, all a = (early a || late a)) (honce : ∀ a, early a = true → late a = false) :
    list.countP all = list.countP early + list.countP late := by
  rw [List.countP_eq_countP_filter_add list all early, List.countP_filter, List.countP_filter]
  congr 1 <;> refine List.countP_congr fun a _ => ?_
  · rw [hall]
    cases early a <;> simp
  · rw [hall]
    cases hearly : early a with
    | false => simp
    | true => simp [honce a hearly]

namespace Book

variable (book : Book)

/-- The counters of a sweep, without the list of what is overdue. -/
theorem expiry_eq :
    book.expiry now = {
      auctionsClaimable := book.auctions.zipIdx.countP fun (auction, index) =>
        auction.isOverdue now && book.hasActiveOrder index
      auctionsExpired := book.auctions.zipIdx.countP fun (auction, index) =>
        auction.isOverdue now && !book.hasActiveOrder index
      offersClosed := book.offers.countP (Offer.isOverdue now) } := by
  unfold expiry
  simp only [List.countP_filter, Bool.and_comm]

/-- The auctions after a sweep, each told by itself and its position. -/
theorem auctions_expire :
    (book.expire now).auctions = book.auctions.zipIdx.map fun (auction, index) =>
      auction.sweep now (book.hasActiveOrder index) :=
  List.mapIdx_eq_zipIdx_map

/-- Each auction is swept at its own place, by the orders that stand there. -/
theorem zipIdx_expire :
    (book.expire now).auctions.zipIdx = book.auctions.zipIdx.map fun (auction, index) =>
      (auction.sweep now (book.hasActiveOrder index), index) := by
  unfold expire
  refine List.ext_getElem? fun index => ?_
  simp [List.getElem?_zipIdx, List.getElem?_mapIdx, Function.comp_def]

-- ====================================================== what a sweep moves

/-- Auctions that a sweep moves, counted in the book from before. -/
theorem moves_auctions (next : AuctionStatus) :
    moves Auction.status next book.auctions (book.expire now).auctions
      = book.auctions.zipIdx.countP fun (auction, index) =>
        auction.status ≠ next
          ∧ (auction.sweep now (book.hasActiveOrder index)).status = next := by
  rw [auctions_expire]
  have hmoves := moves_map Auction.status next Prod.fst
    (fun (auction, index) => auction.sweep now (book.hasActiveOrder index))
    book.auctions.zipIdx
  rwa [List.zipIdx_map_fst] at hmoves

/-- Offers that a sweep moves, counted in the book from before. -/
theorem moves_offers :
    moves Offer.status .closed book.offers (book.expire now).offers
      = book.offers.countP fun offer =>
        offer.status ≠ .closed ∧ (offer.sweep now).status = .closed := by
  have hmoves := moves_map Offer.status .closed id (Offer.sweep now) book.offers
  rwa [List.map_id] at hmoves

/-- The counters of a sweep are the numbers of records that it moves. -/
theorem expiry_eq_moves :
    book.expiry now = {
      auctionsClaimable :=
        moves Auction.status .claimable book.auctions (book.expire now).auctions
      auctionsExpired :=
        moves Auction.status .expired book.auctions (book.expire now).auctions
      offersClosed := moves Offer.status .closed book.offers (book.expire now).offers } := by
  rw [expiry_eq, moves_auctions, moves_auctions, moves_offers]
  congr 1
  · refine List.countP_congr fun (auction, index) _ => ?_
    rw [decide_eq_true_iff, Auction.sweep_claimable_iff, Bool.and_eq_true]
  · refine List.countP_congr fun (auction, index) _ => ?_
    rw [decide_eq_true_iff, Auction.sweep_expired_iff, Bool.and_eq_true, Bool.not_eq_true']
  · refine List.countP_congr fun offer _ => ?_
    rw [decide_eq_true_iff, Offer.sweep_closed_iff]

-- ====================================================== one sweep after another

/-- Two sweeps are one at the later of their times, and so the order of the two
does not matter. -/
theorem expire_expire :
    (book.expire first).expire second = book.expire (max first second) := by
  have hauctions : ((book.expire first).expire second).auctions
      = (book.expire (max first second)).auctions := by
    rw [auctions_expire, zipIdx_expire, List.map_map, auctions_expire]
    exact List.map_congr_left fun (auction, index) _ => Auction.sweep_sweep ..
  have hoffers : ((book.expire first).expire second).offers
      = (book.expire (max first second)).offers := by
    unfold expire
    rw [List.map_map]
    exact List.map_congr_left fun offer _ => Offer.sweep_sweep ..
  calc (book.expire first).expire second
      = { book with
          auctions := ((book.expire first).expire second).auctions
          offers := ((book.expire first).expire second).offers } := rfl
    _ = book.expire (max first second) := by rw [hauctions, hoffers]; rfl

/-- One sweep at the later time counts what the two sweeps count. -/
theorem expiry_max :
    book.expiry (max first second)
      = book.expiry first + (book.expire first).expiry second := by
  have hauctions : ∀ standing : Nat → Bool,
      book.auctions.zipIdx.countP (fun (auction, index) =>
          auction.isOverdue (max first second) && standing index)
        = book.auctions.zipIdx.countP (fun (auction, index) =>
            auction.isOverdue first && standing index)
          + (book.expire first).auctions.zipIdx.countP fun (auction, index) =>
            auction.isOverdue second && standing index := by
    intro standing
    rw [zipIdx_expire, List.countP_map]
    refine countP_eq_add _ (fun (auction, index) => ?_) fun (auction, index) hearly => ?_
    · dsimp only [Function.comp_apply]
      rw [Auction.isOverdue_max, Auction.isOverdue_sweep]
      cases auction.isOverdue first <;> cases standing index <;> simp
    · have hfirst := (Bool.and_eq_true_iff.1 hearly).1
      dsimp only [Function.comp_apply]
      rw [Auction.isOverdue_sweep, hfirst]
      rfl
  have hoffers : book.offers.countP (Offer.isOverdue (max first second))
      = book.offers.countP (Offer.isOverdue first)
        + (book.expire first).offers.countP (Offer.isOverdue second) := by
    unfold expire
    rw [List.countP_map]
    refine countP_eq_add _ (fun offer => ?_) fun offer hfirst => ?_
    · rw [Function.comp_apply, Offer.isOverdue_max, Offer.isOverdue_sweep]
      cases offer.isOverdue first <;> rfl
    · rw [Function.comp_apply, Offer.isOverdue_sweep, hfirst]
      rfl
  -- the orders, and so what stands on an auction, are the same for both sweeps
  have hstanding : (book.expire first).hasActiveOrder = book.hasActiveOrder := rfl
  rw [expiry_eq, expiry_eq, expiry_eq, hstanding, hauctions book.hasActiveOrder,
    hauctions fun index => !book.hasActiveOrder index, hoffers]
  rfl

-- ================================================================ the sweep

/-- What a sweep has to make of a book, and to count. -/
structure IsSwept (swept : Book) (expiry : Expiry) : Prop where
  others : swept = { book with auctions := swept.auctions, offers := swept.offers }
  auctions (index : Nat) : swept.auctions[index]?
    = book.auctions[index]?.map fun auction => { auction with
        status :=
          if auction.status = .running ∧ auction.endDate ≠ 0 ∧ auction.endDate < now then
            if ∃ order ∈ book.orders, order.auctionIndex = index ∧ order.status = .active
            then .claimable else .expired
          else auction.status }
  offers (index : Nat) : swept.offers[index]?
    = book.offers[index]?.map fun offer => { offer with
        status :=
          if offer.status = .created ∧ offer.endDate ≠ 0 ∧ offer.endDate < now
          then .closed else offer.status }
  claimable : expiry.auctionsClaimable
    = moves Auction.status .claimable book.auctions swept.auctions
  expired : expiry.auctionsExpired
    = moves Auction.status .expired book.auctions swept.auctions
  closed : expiry.offersClosed = moves Offer.status .closed book.offers swept.offers

/-- Something stands on an auction if one of its orders is active. -/
theorem hasActiveOrder_iff (index : Nat) :
    book.hasActiveOrder index = true
      ↔ ∃ order ∈ book.orders, order.auctionIndex = index ∧ order.status = .active := by
  simp [hasActiveOrder]

/-- The sweep changes what is overdue and nothing else, and counts what it
moves. -/
theorem isSwept_expire : book.IsSwept now (book.expire now) (book.expiry now) where
  others := rfl
  auctions index := by
    unfold expire
    dsimp only
    rw [List.getElem?_mapIdx]
    refine congrArg (book.auctions[index]?.map ·) (funext fun auction => ?_)
    rw [Auction.sweep_eq]
    simp only [Auction.isOverdue_iff, hasActiveOrder_iff]
  offers index := by
    unfold expire
    dsimp only
    rw [List.getElem?_map]
    refine congrArg (book.offers[index]?.map ·) (funext fun offer => ?_)
    rw [Offer.sweep_eq]
    simp only [Offer.isOverdue_iff]
  claimable := congrArg Expiry.auctionsClaimable (book.expiry_eq_moves now)
  expired := congrArg Expiry.auctionsExpired (book.expiry_eq_moves now)
  closed := congrArg Expiry.offersClosed (book.expiry_eq_moves now)

/-- A sweep moves the running auctions and the open offers that are past their
deadlines, counts them by what becomes of them, and touches nothing else. One
sweep after another is one sweep at the later of the two times: together they
move, and count, the same records. A second one at the same time moves
nothing. -/
theorem expire_exact :
    (∀ now, book.IsSwept now (book.expire now) (book.expiry now))
      ∧ (∀ first second,
          (book.expire first).expire second = book.expire (max first second)
          ∧ book.expiry first + (book.expire first).expiry second
            = book.expiry (max first second))
      ∧ ∀ now, (book.expire now).expire now = book.expire now
          ∧ (book.expire now).expiry now = .none := by
  refine ⟨book.isSwept_expire, fun first second =>
    ⟨book.expire_expire first second, (book.expiry_max first second).symm⟩,
    fun now => ⟨?_, ?_⟩⟩
  · rw [expire_expire, Int.max_self]
  · have hsame : book.expiry now + (book.expire now).expiry now = book.expiry now := by
      rw [← expiry_max, Int.max_self]
    exact Expiry.eq_none_of_add_eq hsame

end Book

end MarketReplay
