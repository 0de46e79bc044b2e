/-
Which auction a token is found at.

A token may be put up again and again. Whatever else is done to a book, an
auction keeps the token that it was opened for, and the identifier written
beside it (`identified_after`): a deed adds an auction only by opening it
(`auctions_perform`), and to the ones that are there it does nothing to either.
No two tokens share an identifier, so to look an identifier up is to look the
token up, and what is found is the latest of its auctions (`after_latest`).
-/
import MarketReplay.Proofs.Book.Lasting
import MarketReplay.Proofs.Text.Identifier

namespace MarketReplay

namespace Auction

/-- The auction is of this token. -/
def Sells (auction : Auction) (collection : String) (nonce : Nat) : Prop :=
  auction.collection = collection ∧ auction.nonce = nonce

/-- The auction goes by the identifier of its token. -/
def Identified (auction : Auction) : Prop :=
  auction.identifier = tokenIdentifier auction.collection auction.nonce

theorem identified_ofOpening (summary : ActionSummary) (opening : Opening)
    (payment : Payment) : (ofOpening summary opening payment).Identified := rfl

/-- Nothing that becomes of an auction touches its token. -/
theorem Identified.becomes {filled : Prop} {before after : Auction}
    (h : before.Identified) (hbecomes : before.Becomes filled after) :
    after.Identified := by
  have hfrozen : before.frozen.Identified := h
  rw [← hbecomes.frozen] at hfrozen
  exact hfrozen

/-- Under the identifier of a token go its own auctions and no others. -/
theorem Identified.identifier_eq_iff {auction : Auction}
    (h : auction.Identified) (collection : String) (nonce : Nat) :
    auction.identifier = tokenIdentifier collection nonce
      ↔ auction.Sells collection nonce := by
  rw [h]
  exact tokenIdentifier_inj

end Auction

/-- A number that is free is opened, at whatever price was found. -/
theorem Handler.apply_started {book : Book} {summary : ActionSummary}
    {opening : Opening} (haction : summary.action = .started opening)
    (hfree : book.auctionIndex? opening.auctionId = none) (payment : Payment) :
    (Handler.ofKind summary.kind).apply book summary payment
      = book.addAuction (.ofOpening summary opening payment) := by
  have hkind : summary.kind = .started := congrArg Action.kind haction
  rw [hkind]
  show book.openAuction summary payment = _
  unfold Book.openAuction
  rw [haction]
  dsimp only
  rw [hfree]

namespace Book

variable {marketplace : Marketplace} {book next : Book} {deed : Deed}
  {deeds : List Deed}

-- ============================================================= openings

/-- Only an opening adds an auction. -/
theorem auctions_take {roster : Roster} {lookup : Lookup}
    {summary : ActionSummary}
    (h : ∀ opening, summary.action ≠ .started opening) :
    (roster.take lookup summary).auctions = roster.auctions := by
  have horder : (roster.takeOrder lookup summary).auctions = roster.auctions := by
    unfold Roster.takeOrder
    split
    · rfl
    · split <;> rfl
  unfold Roster.take
  split
  next opening haction => exact absurd haction (h opening)
  · exact horder
  · exact horder
  · split <;> rfl
  · rfl

theorem auctions_openAuction (book : Book) (summary : ActionSummary)
    (payment : Payment) :
    (book.openAuction summary payment).auctions = book.auctions
      ∨ ∃ opening, (book.openAuction summary payment).auctions
        = book.auctions ++ [.ofOpening summary opening payment] := by
  unfold openAuction
  split
  next opening _ =>
    split
    · exact .inl rfl
    · exact .inr ⟨opening, rfl⟩
  next => exact .inl rfl

/-- A deed leaves the number of auctions alone, or opens one more. -/
theorem auctions_perform (h : book.perform deed = .ok next) :
    next.auctions.length = book.auctions.length
      ∨ ∃ summary opening payment,
        next.auctions = book.auctions ++ [.ofOpening summary opening payment] := by
  have hlength : next.roster.auctions = book.roster.auctions →
      next.auctions.length = book.auctions.length := by
    intro heq
    simpa [roster] using congrArg List.length heq
  cases deed with
  | sweep now =>
      cases h
      exact .inl (hlength (by rw [roster_expire]))
  | fill answers =>
      cases h
      exact .inl (hlength (by rw [roster_fillTags]))
  | dispatch summary payment =>
      cases haction : summary.action with
      | started opening =>
          have hnext : next = book.openAuction summary payment := by
            rw [Registry.builtIn_standard.dispatch_eq h, ActionSummary.kind,
              haction]
            rfl
          rw [hnext]
          rcases book.auctions_openAuction summary payment with
            hsame | ⟨opening, hopened⟩
          · exact .inl (congrArg List.length hsame)
          · exact .inr ⟨summary, opening, payment, hopened⟩
      | _ =>
          refine .inl (hlength ?_)
          rw [Registry.builtIn_standard.roster_dispatch h,
            auctions_take (by simp [haction])]

/-- The auction at a place after a deed is what has become of the one that was
there, or it has just opened. -/
theorem auction_perform (h : book.perform deed = .ok next) {i : Nat}
    {auction : Auction} (hauction : next.auctions[i]? = some auction) :
    (∃ before, book.auctions[i]? = some before
        ∧ before.Becomes (Deed.Fill [deed]) auction)
      ∨ ∃ summary opening payment,
        auction = .ofOpening summary opening payment := by
  cases hbefore : book.auctions[i]? with
  | some before =>
      obtain ⟨later, hlater, hbecomes⟩ :=
        (becomes_perform h).auctions i before hbefore
      obtain rfl : later = auction := Option.some.inj (hlater.symm.trans hauction)
      exact .inl ⟨before, rfl, hbecomes⟩
  | none =>
      have hlt := (List.getElem?_eq_some_iff.1 hauction).1
      rw [List.getElem?_eq_none_iff] at hbefore
      rcases auctions_perform h with hlength | ⟨summary, opening, payment, hopened⟩
      · omega
      · -- behind the auctions that were there stands the new one only
        rw [hopened, List.getElem?_append_right hbefore] at hauction
        exact .inr ⟨summary, opening, payment,
          List.mem_singleton.1 (List.mem_of_getElem? hauction)⟩

-- ============================================================ the lookup

/-- However a book came about, its auctions go by the identifiers of their
tokens. -/
theorem identified_after (h : after marketplace deeds = .ok book) :
    ∀ auction ∈ book.auctions, auction.Identified := by
  refine performs_induction (motive := fun _ reached =>
    ∀ auction ∈ reached.auctions, auction.Identified) ?_ ?_ h
  · exact fun _ hmem => absurd hmem List.not_mem_nil
  · intro _ reached next deed _ hall hnext auction hmem
    obtain ⟨i, hi⟩ := List.getElem?_of_mem hmem
    rcases auction_perform hnext hi with
      ⟨before, hbefore, hbecomes⟩ | ⟨summary, opening, payment, rfl⟩
    · exact (hall before (List.mem_of_getElem? hbefore)).becomes hbecomes
    · exact Auction.identified_ofOpening summary opening payment

/-- The last auction of a token stands at this place. -/
def IsLatest (book : Book) (collection : String) (nonce i : Nat) : Prop :=
  (∃ auction, book.auctions[i]? = some auction
      ∧ auction.Sells collection nonce)
    ∧ ∀ (j : Nat) (auction : Auction), book.auctions[j]? = some auction →
      auction.Sells collection nonce → j ≤ i

/-- Where auctions are found by token, what an action refers to is looked up
under the identifier of its token. -/
theorem auctionIndexFor?_byIdentifier {summary : ActionSummary} {listing : Listing}
    (hlookup : book.marketplace.lookup = .byIdentifier)
    (hlisting : summary.listing? = some listing) :
    book.auctionIndexFor? summary = book.auctionIndexByIdentifier?
      (tokenIdentifier listing.collection listing.nonce) := by
  unfold auctionIndexFor? listingIndex?
  rw [hlisting, hlookup]
  rfl

/-- Under the identifier of a token the last of its auctions is found. -/
theorem auctionIndexByIdentifier?_eq_some_iff
    (h : after marketplace deeds = .ok book) (collection : String) (nonce i : Nat) :
    book.auctionIndexByIdentifier? (tokenIdentifier collection nonce) = some i
      ↔ book.IsLatest collection nonce i := by
  have hsells : ∀ {j : Nat} {auction : Auction},
      book.auctions[j]? = some auction →
        (auction.identifier = tokenIdentifier collection nonce
          ↔ auction.Sells collection nonce) := by
    intro j auction hauction
    have hmem := List.mem_of_getElem? hauction
    exact (identified_after h auction hmem).identifier_eq_iff collection nonce
  rw [(filed_of_sound (sound_after h)).auctionIndexByIdentifier?]
  refine and_congr (exists_congr fun auction => and_congr_right hsells) ?_
  exact forall_congr' fun j => forall_congr' fun auction =>
    forall_congr' fun hauction => imp_congr (hsells hauction) Iff.rfl

/-- And nothing if there is none. -/
theorem auctionIndexByIdentifier?_eq_none_iff
    (h : after marketplace deeds = .ok book) (collection : String) (nonce : Nat) :
    book.auctionIndexByIdentifier? (tokenIdentifier collection nonce) = none
      ↔ ∀ auction ∈ book.auctions, ¬ auction.Sells collection nonce := by
  rw [(filed_of_sound (sound_after h)).auctionIndexByIdentifier?_none]
  refine forall_congr' fun auction => forall_congr' fun hmem => not_congr ?_
  exact (identified_after h auction hmem).identifier_eq_iff collection nonce

/-- No two tokens share an identifier, whatever their collections are called.
So where auctions are found by token, whatever was done to the book, an action
that refers to a listing finds the last auction of exactly the token it names,
and none if there never was one. The number of the auction plays no part. -/
theorem after_latest (hlookup : marketplace.lookup = .byIdentifier)
    (deeds : List Deed) :
    (∀ (collection other : String) (nonce number : Nat),
        tokenIdentifier collection nonce = tokenIdentifier other number
          → collection = other ∧ nonce = number)
      ∧ ∃ book, after marketplace deeds = .ok book
        ∧ ∀ summary listing, summary.listing? = some listing →
          (∀ i, book.auctionIndexFor? summary = some i
              ↔ book.IsLatest listing.collection listing.nonce i)
            ∧ (book.auctionIndexFor? summary = none
              ↔ ∀ auction ∈ book.auctions,
                ¬ auction.Sells listing.collection listing.nonce) := by
  refine ⟨fun collection other nonce number => tokenIdentifier_inj.1, ?_⟩
  obtain ⟨book, hafter, -⟩ := exists_performs (sound_empty marketplace) deeds
  have hbook : book.marketplace.lookup = .byIdentifier := by
    rw [(becomes_performs hafter).marketplace]
    exact hlookup
  refine ⟨book, hafter, fun summary listing hlisting => ?_⟩
  rw [auctionIndexFor?_byIdentifier hbook hlisting]
  exact ⟨auctionIndexByIdentifier?_eq_some_iff hafter _ _,
    auctionIndexByIdentifier?_eq_none_iff hafter _ _⟩

end Book

namespace Sample

/-- A marketplace that calls its auctions by their tokens. -/
def swap : Marketplace := ⟨"swap", "exchange", .external, .byIdentifier⟩

/-- A token there is put up under a number. -/
def swapOpening (auctionId : Nat) (collection : String) (nonce : Nat) : Opening :=
  ⟨⟨auctionId, collection, nonce⟩, 1, "owner", 5, 5, 0, 0, 0, .nft⟩

def swapAction (action : Action) : ActionSummary :=
  ⟨"transaction", 3, swap.key, none, none, action⟩

def swapPayment : Payment := ⟨"EGLD", 18, 0⟩

/-- An auction opens there. -/
def swapAuction (auctionId : Nat) (collection : String) (nonce : Nat) : Auction :=
  .ofOpening (swapAction (.started (swapOpening auctionId collection nonce)))
    (swapOpening auctionId collection nonce) swapPayment

/-- A token is put up, then one whose name looks alike, then the first one
again. -/
def swapDeeds : List Book.Deed :=
  [.dispatch (swapAction (.started (swapOpening 7 "C-01" 2))) swapPayment,
    .dispatch (swapAction (.started (swapOpening 8 "C" 258))) swapPayment,
    .dispatch (swapAction (.started (swapOpening 9 "C-01" 2))) swapPayment]

/-- The book after that. -/
def swapBook : Book :=
  [swapAuction 7 "C-01" 2, swapAuction 8 "C" 258, swapAuction 9 "C-01" 2].foldl
    Book.addAuction (.empty swap)

theorem after_swapDeeds : Book.after swap swapDeeds = .ok swapBook := rfl

theorem length_swapBook : swapBook.auctions.length = 3 := rfl

/-- A bid for a token, under a number. -/
def swapBid (auctionId : Nat) (collection : String) (nonce : Nat) : Bid :=
  ⟨⟨auctionId, collection, nonce⟩, 1, "bidder", 6⟩

end Sample

/-- A bid for the token that is listed twice finds the second listing, though
it names the number of another token's. A bid for a token that never was
listed finds none, though its number is taken. -/
theorem Book.after_latest_sample :
    ∃ book, Book.after Sample.swap Sample.swapDeeds = .ok book
      ∧ book.auctionIndexFor? (Sample.swapAction (.bid (Sample.swapBid 8 "C-01" 2)))
        = some 2
      ∧ book.auctionIndexFor? (Sample.swapAction (.bid (Sample.swapBid 7 "C-01" 258)))
        = none := by
  have hlookup : Sample.swap.lookup = .byIdentifier := rfl
  obtain ⟨-, book, hafter, hfinds⟩ := Book.after_latest hlookup Sample.swapDeeds
  obtain rfl : Sample.swapBook = book :=
    Except.ok.inj (Sample.after_swapDeeds.symm.trans hafter)
  refine ⟨_, hafter, ?_, ?_⟩
  · refine ((hfinds _ (Sample.swapBid 8 "C-01" 2).toListing rfl).1 2).2 ?_
    refine ⟨⟨Sample.swapAuction 9 "C-01" 2, rfl, rfl, rfl⟩, ?_⟩
    intro j auction hauction _
    have hlt := (List.getElem?_eq_some_iff.1 hauction).1
    rw [Sample.length_swapBook] at hlt
    omega
  · refine (hfinds _ (Sample.swapBid 7 "C-01" 258).toListing rfl).2.2 ?_
    simp [Sample.swapBook, Book.addAuction, Book.empty, Sample.swapAuction,
      Sample.swapOpening, Auction.ofOpening, Auction.Sells, Sample.swapBid]

end MarketReplay
