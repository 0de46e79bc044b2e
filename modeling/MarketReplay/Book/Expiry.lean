/-
The expiry sweep: everything still open past its deadline is closed out.

A running auction past its deadline becomes claimable if a bid stands on it
and expires otherwise; an open offer past its deadline is closed. A deadline
of zero is none, and a deadline of the very second is not past. Orders are
only looked at.
-/
import MarketReplay.Book

namespace MarketReplay

/-- How many records a sweep moved, and in which way. -/
structure Expiry where
  auctionsClaimable : Nat
  auctionsExpired : Nat
  offersClosed : Nat
deriving DecidableEq, Repr

namespace Expiry

/-- The sweep that moved nothing. -/
def none : Expiry := ⟨0, 0, 0⟩

/-- How many records a sweep moved altogether. -/
def total (expiry : Expiry) : Nat :=
  expiry.auctionsClaimable + expiry.auctionsExpired + expiry.offersClosed

end Expiry

/-- Is the auction still running past its deadline? -/
def Auction.isOverdue (now : Int) (auction : Auction) : Bool :=
  auction.status == .running && auction.endDate != 0 && auction.endDate < now

/-- Is the offer still open past its deadline? -/
def Offer.isOverdue (now : Int) (offer : Offer) : Bool :=
  offer.status == .created && offer.endDate != 0 && offer.endDate < now

/-- The auction swept, given whether a bid stands on it. -/
def Auction.sweep (now : Int) (standing : Bool) (auction : Auction) : Auction :=
  if auction.isOverdue now then auction.advance (if standing then .claimable else .expired)
  else auction

/-- The offer swept. -/
def Offer.sweep (now : Int) (offer : Offer) : Offer :=
  if offer.isOverdue now then offer.advance .closed else offer

namespace Book

variable (now : Int) (book : Book)

/-- The book after a sweep. -/
def expire : Book :=
  { book with
    auctions := book.auctions.mapIdx fun index => Auction.sweep now (book.hasActiveOrder index)
    offers := book.offers.map (Offer.sweep now) }

/-- What a sweep moves. -/
def expiry : Expiry :=
  let overdue := book.auctions.zipIdx.filter fun (auction, _) => auction.isOverdue now
  { auctionsClaimable := overdue.countP fun (_, index) => book.hasActiveOrder index
    auctionsExpired := overdue.countP fun (_, index) => !book.hasActiveOrder index
    offersClosed := book.offers.countP (Offer.isOverdue now) }

end Book

end MarketReplay
