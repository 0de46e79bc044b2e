/-
What the actions on listings do to the book: an auction opens, ends, is
withdrawn, is repriced or is updated.

Each of them finds the auction it refers to, and does nothing if there is
none; opening one does nothing if its number is taken. Prices arrive in the
smallest unit of a token and are kept beside their value in whole units.
-/
import MarketReplay.Book

namespace MarketReplay

-- ============================================================= one auction

namespace Auction

/-- The auction that an opening describes, priced in the given token. It
starts when its log was written unless it names a time. -/
def ofOpening (summary : ActionSummary) (opening : Opening) (payment : Payment) : Auction where
  id := none
  marketplaceAuctionId := opening.auctionId
  marketplaceKey := summary.marketplaceKey
  collection := opening.collection
  nonce := opening.nonce
  identifier := opening.toListing.identifier
  quantity := opening.quantity
  status := .running
  saleType := opening.saleType
  paymentToken := payment.identifier
  paymentNonce := payment.nonce
  owner := opening.owner
  minBid := opening.minBid
  minBidDenominated := denominate opening.minBid payment.decimals
  maxBid := opening.maxBid
  maxBidDenominated := denominate opening.maxBid payment.decimals
  minBidDiff := opening.minBidDiff
  startDate := if opening.startTime = 0 then summary.timestamp else opening.startTime
  endDate := opening.deadline
  tags := []
  blockHash := summary.txHash

variable (auction : Auction)

/-- The auction paid in another token. -/
def payIn (payment : Payment) : Auction :=
  { auction with paymentToken := payment.identifier, paymentNonce := payment.nonce }

/-- The auction paid in the given token if the action names one. -/
def payInNamed (summary : ActionSummary) (payment : Payment) : Auction :=
  if summary.paymentToken.isSome then auction.payIn payment else auction

/-- The auction at a new price. A fixed price stands in both bounds, so a
maximum that is set moves along. -/
def reprice (price decimals : Nat) : Auction :=
  let priced := { auction with
    minBid := price
    minBidDenominated := denominate price decimals }
  if auction.maxBid = 0 then priced
  else { priced with
    maxBid := price
    maxBidDenominated := denominate price decimals }

/-- The auction with whatever a revision carries. -/
def revise (revision : Revision) (decimals : Nat) : Auction :=
  let priced := match revision.newPrice with
    | some price => auction.reprice price decimals
    | none => auction
  match revision.deadline with
  | some deadline => { priced with endDate := deadline }
  | none => priced

end Auction

-- ================================================================ the book

namespace Book

variable (book : Book) (summary : ActionSummary) (payment : Payment)

/-- An auction opens, unless its number is taken. -/
def openAuction : Book :=
  match summary.action with
  | .started opening =>
      match book.auctionIndex? opening.auctionId with
      | some _ => book
      | none => book.addAuction (.ofOpening summary opening payment)
  | _ => book

/-- A running auction ends, and its standing bid wins. -/
def endAuction : Book :=
  match book.auctionFor? summary with
  | some (index, auction) =>
      if Lifecycle.canBecome auction.status AuctionStatus.ended then
        (book.modifyAuction index fun auction =>
          (auction.advance .ended).payInNamed summary payment).advanceOrders index .bought
      else book
  | none => book

/-- A running auction is taken off the market. -/
def closeAuction : Book :=
  match book.auctionIndexFor? summary with
  | some index => book.advanceAuction index .closed
  | none => book

/-- A listing gets a new price, and the token the action names. -/
def repriceAuction : Book :=
  match summary.action, book.auctionIndexFor? summary with
  | .repriced repricing, some index =>
      book.modifyAuction index fun auction =>
        (auction.payInNamed summary payment).reprice repricing.newPrice payment.decimals
  | _, _ => book

/-- A listing gets whatever an update carries, and the token it names. -/
def updateAuction : Book :=
  match summary.action, book.auctionIndexFor? summary with
  | .updated revision, some index =>
      book.modifyAuction index fun auction =>
        (auction.payInNamed summary payment).revise revision payment.decimals
  | _, _ => book

end Book

end MarketReplay
