/-
Offers for any token of a collection are taken first come, first served.

A global acceptance names a collection, an owner and a price, and no offer. The
open offers that it may mean wait in the order they were made: `positions`
lists their places in the book. An acceptance by a transaction that is new to
the book accepts the one at the head of that line and leaves the others waiting
as they were (`offers_acceptGlobalOffer_of_waiting`), and with nobody waiting it
accepts none. So as many acceptances in a row take as many offers from the
front of the line, each its own (`Book.settles_globalAcceptances`).
-/
import MarketReplay.Proofs.Book.Spared

namespace MarketReplay

-- ======================================================== who is waiting

section Positions

variable {α : Type} (p : α → Prop) [DecidablePred p] {list : List α}

/-- The positions of the records with a property, in order. -/
def positions (list : List α) : List Nat :=
  (List.range list.length).filter fun i => list[i]?.any fun a => p a

variable {p}

theorem mem_positions {i : Nat} :
    i ∈ positions p list ↔ ∃ a, list[i]? = some a ∧ p a := by
  unfold positions
  rw [List.mem_filter, List.mem_range, Option.any_eq_true]
  simp only [decide_eq_true_eq]
  constructor
  · exact fun h => h.2
  · rintro ⟨a, ha, hp⟩
    exact ⟨(List.getElem?_eq_some_iff.1 ha).1, a, ha, hp⟩

/-- The positions come in order. -/
theorem pairwise_positions (list : List α) :
    (positions p list).Pairwise (· < ·) :=
  List.pairwise_lt_range.filter _

theorem length_positions (list : List α) :
    (positions p list).length = list.countP fun a => p a := by
  unfold positions
  induction list with
  | nil => rfl
  | cons a list ih =>
      rw [List.length_cons, List.range_succ_eq_map, List.filter_cons,
        List.filter_map, List.countP_cons, ← ih]
      by_cases ha : p a <;> simp [ha, Function.comp_def]

/-- A search finds the first position. -/
theorem findIdx?_eq_head?_positions (list : List α) :
    list.findIdx? (fun a => p a) = (positions p list).head? := by
  have hsorted := pairwise_positions (p := p) list
  cases hpositions : positions p list with
  | nil =>
      rw [List.head?_nil, List.findIdx?_eq_none_iff]
      intro a hmem
      obtain ⟨i, hi, rfl⟩ := List.mem_iff_getElem.1 hmem
      refine decide_eq_false fun hp => ?_
      have hi : i ∈ positions p list :=
        mem_positions.2 ⟨_, List.getElem?_eq_getElem hi, hp⟩
      rw [hpositions] at hi
      cases hi
  | cons i rest =>
      rw [hpositions] at hsorted
      obtain ⟨a, ha, hp⟩ := mem_positions.1 (hpositions ▸ List.mem_cons_self)
      obtain ⟨hi, rfl⟩ := List.getElem?_eq_some_iff.1 ha
      rw [List.head?_cons, List.findIdx?_eq_some_iff_getElem]
      refine ⟨hi, decide_eq_true hp, fun j hj hearlier => ?_⟩
      have hmem : j ∈ positions p list := mem_positions.2
        ⟨_, List.getElem?_eq_getElem _, of_decide_eq_true hearlier⟩
      rw [hpositions] at hmem
      rcases List.mem_cons.1 hmem with rfl | hlater
      · exact Nat.lt_irrefl j hj
      · exact Nat.lt_asymm hj ((List.pairwise_cons.1 hsorted).1 j hlater)

/-- Whoever loses the property leaves the line, and nobody else moves. -/
theorem positions_modify {i : Nat} {change : α → α}
    (h : ∀ a, ¬ p (change a)) (list : List α) :
    positions p (list.modify i change)
      = (positions p list).filter (· ≠ i) := by
  unfold positions
  rw [List.length_modify, List.filter_filter]
  refine List.filter_congr fun j _ => ?_
  rw [List.getElem?_modify]
  by_cases hj : i = j
  · cases list[j]? <;> simp [hj, h]
  · have hne : j ≠ i := fun heq => hj heq.symm
    cases list[j]? <;> simp [hj, hne]

end Positions

-- ================================================== what is settled by whom

/-- The offer accepted by a transaction. -/
def Offer.acceptedBy (txHash : String) (offer : Offer) : Offer :=
  { offer with status := .accepted, acceptedTxHash := some txHash }

/-- Of the offers waiting at these positions the first are accepted, the j-th
by the j-th transaction, and all other offers are as they were. -/
structure Settles (waiting : List Nat) (txHashes : List String)
    (before after : List Offer) : Prop where
  length : after.length = before.length
  accepted : ∀ (j i : Nat) (txHash : String), waiting[j]? = some i →
    txHashes[j]? = some txHash →
      after[i]? = before[i]?.map (Offer.acceptedBy txHash)
  kept : ∀ i, i ∉ waiting.take txHashes.length → after[i]? = before[i]?

namespace Settles

variable {waiting : List Nat} {txHashes : List String}
  {before after : List Offer}

/-- Nobody is waiting, whoever comes besides. -/
theorem nobody (h : Settles [] txHashes before after) (more : List String) :
    Settles [] more before after where
  length := h.length
  accepted := by nofun
  kept := by
    intro i _
    apply h.kept
    simp

theorem none (waiting : List Nat) (offers : List Offer) :
    Settles waiting [] offers offers where
  length := rfl
  accepted := by nofun
  kept _ _ := rfl

/-- The first transaction settles the first offer, the others the rest. -/
theorem cons {i : Nat} {txHash : String} (hnew : i ∉ waiting)
    (h : Settles waiting txHashes
      (before.modify i (Offer.acceptedBy txHash)) after) :
    Settles (i :: waiting) (txHash :: txHashes) before after where
  length := h.length.trans (List.length_modify ..)
  accepted := by
    intro j k hash hk hhash
    cases j with
    | zero =>
        obtain rfl : i = k := Option.some.inj hk
        obtain rfl : txHash = hash := Option.some.inj hhash
        have hleft : i ∉ waiting.take txHashes.length :=
          fun hmem => hnew (List.mem_of_mem_take hmem)
        rw [h.kept i hleft, List.getElem?_modify_eq]
        rfl
    | succ j =>
        have hne : i ≠ k := by
          rintro rfl
          exact hnew (List.mem_of_getElem? hk)
        rw [h.accepted j k hash hk hhash, List.getElem?_modify_ne _ _ hne]
  kept := by
    intro k hk
    rw [List.length_cons, List.take_succ_cons, List.mem_cons, not_or] at hk
    rw [h.kept k hk.2, List.getElem?_modify_ne _ _ (Ne.symm hk.1)]

end Settles

/-- Accepting an offer that is open is all there is to accepting it. -/
theorem modify_accept {offers : List Offer} {i : Nat} (txHash : String)
    (h : ∀ offer, offers[i]? = some offer → offer.status = .created) :
    offers.modify i (·.accept txHash)
      = offers.modify i (Offer.acceptedBy txHash) := by
  refine List.ext_getElem? fun j => ?_
  by_cases hj : i = j
  · subst hj
    rw [List.getElem?_modify_eq, List.getElem?_modify_eq]
    cases hoffer : offers[i]? with
    | none => rfl
    | some offer =>
        exact congrArg some (Offer.accept_of_open (h offer hoffer) txHash)
  · rw [List.getElem?_modify_ne _ _ hj, List.getElem?_modify_ne _ _ hj]

/-- The only new acceptance is the one by the transaction. -/
theorem mem_modify_acceptedBy {offers : List Offer} {i : Nat}
    {txHash : String} {offer : Offer}
    (h : offer ∈ offers.modify i (Offer.acceptedBy txHash)) :
    offer ∈ offers ∨ offer.acceptedTxHash = some txHash := by
  obtain ⟨j, hj⟩ := List.mem_iff_getElem?.1 h
  by_cases hij : i = j
  · rw [← hij, List.getElem?_modify_eq] at hj
    obtain ⟨before, -, rfl⟩ := Option.map_eq_some_iff.1 hj
    exact .inr rfl
  · rw [List.getElem?_modify_ne _ _ hij] at hj
    exact .inl (List.mem_of_getElem? hj)

-- ============================================================ acceptances

/-- The action accepts an offer for any token of the collection, by this owner
and at this price. -/
def ActionSummary.Takes (collection owner : String) (amount : Nat)
    (summary : ActionSummary) : Prop :=
  ∃ taken, summary.action = .globalOfferAccepted taken
    ∧ taken.collection = collection ∧ taken.offerOwner = owner
    ∧ taken.amount = amount

namespace Book

variable {book : Book} {summary : ActionSummary} {taken : GlobalOfferTaken}

/-- A transaction that accepted no offer finds none that it accepted. -/
theorem offerAcceptedBy?_eq_none {txHash : String}
    (h : ∀ offer ∈ book.offers, offer.acceptedTxHash ≠ some txHash) :
    book.offerAcceptedBy? txHash = none := by
  unfold offerAcceptedBy?
  rw [List.findIdx?_eq_none_iff]
  exact fun offer hmem => beq_eq_false_iff_ne.2 (h offer hmem)

/-- The positions of the offers that an acceptance may mean. -/
def waiting (book : Book) (collection owner : String) (amount : Nat) :
    List Nat :=
  positions (Offer.Awaits collection owner amount) book.offers

theorem findIdx?_fits (taken : GlobalOfferTaken) :
    book.offers.findIdx? (·.fits taken) = (book.waiting taken.collection
      taken.offerOwner taken.amount).head? := by
  unfold waiting
  rw [← findIdx?_eq_head?_positions]
  refine congrArg (List.findIdx? · book.offers) (funext fun offer => ?_)
  rw [Bool.eq_iff_iff, decide_eq_true_eq]
  exact Offer.fits_iff

theorem offers_acceptGlobalOffer_of_nobody
    (haction : summary.action = .globalOfferAccepted taken)
    (hnobody : book.waiting taken.collection taken.offerOwner taken.amount
      = []) :
    (book.acceptGlobalOffer summary).offers = book.offers := by
  unfold acceptGlobalOffer
  rw [haction]
  dsimp only
  rw [findIdx?_fits, hnobody, List.head?_nil]
  cases book.offerAcceptedBy? summary.txHash with
  | some index => rfl
  | none => exact offers_closeAuction ..

/-- An acceptance by a new transaction accepts the offer at the head of the
line. -/
theorem offers_acceptGlobalOffer_of_waiting {i : Nat} {rest : List Nat}
    (haction : summary.action = .globalOfferAccepted taken)
    (hnew : ∀ offer ∈ book.offers,
      offer.acceptedTxHash ≠ some summary.txHash)
    (hwaiting : book.waiting taken.collection taken.offerOwner taken.amount
      = i :: rest) :
    (book.acceptGlobalOffer summary).offers
      = book.offers.modify i (Offer.acceptedBy summary.txHash) := by
  unfold acceptGlobalOffer
  rw [haction]
  dsimp only
  rw [findIdx?_fits, hwaiting, List.head?_cons, offerAcceptedBy?_eq_none hnew]
  dsimp only
  rw [offers_closeAuction]
  refine modify_accept summary.txHash fun offer hoffer => ?_
  have hmem := hwaiting ▸ List.mem_cons_self (a := i) (l := rest)
  obtain ⟨found, hfound, hopen, -⟩ := mem_positions.1 hmem
  obtain rfl : found = offer := Option.some.inj (hfound.symm.trans hoffer)
  exact hopen

/-- The line moves on by the one who is settled. -/
theorem waiting_of_modify {next : Book} {collection owner txHash : String}
    {amount i : Nat} {rest : List Nat}
    (hnext : next.offers
      = book.offers.modify i (Offer.acceptedBy txHash))
    (hwaiting : book.waiting collection owner amount = i :: rest) :
    next.waiting collection owner amount = rest ∧ i ∉ rest := by
  have hsorted : (i :: rest).Pairwise (· < ·) :=
    hwaiting ▸ pairwise_positions book.offers
  have hnew : i ∉ rest := fun hmem =>
    Nat.lt_irrefl i ((List.pairwise_cons.1 hsorted).1 i hmem)
  refine ⟨?_, hnew⟩
  unfold waiting at hwaiting ⊢
  rw [hnext, positions_modify, hwaiting, List.filter_cons_of_neg,
    List.filter_eq_self]
  · intro j hj
    exact decide_eq_true fun heq => hnew (heq ▸ hj)
  · simp
  · rintro offer ⟨hopen, -⟩
    cases hopen

/-- One acceptance by a new transaction. Whatever settles those who still wait
then, settles with it those who wait now, and no other transaction has
accepted anything. -/
theorem exists_taking {collection owner : String} {amount : Nat}
    (htakes : summary.Takes collection owner amount)
    (hnew : ∀ offer ∈ book.offers,
      offer.acceptedTxHash ≠ some summary.txHash) (payment : Payment) :
    ∃ next, Registry.standard.dispatch book summary payment = .ok next
      ∧ (∀ offer ∈ next.offers,
        offer ∈ book.offers ∨ offer.acceptedTxHash = some summary.txHash)
      ∧ ∀ txHashes last,
        Settles (next.waiting collection owner amount) txHashes next.offers
          last →
        Settles (book.waiting collection owner amount)
          (summary.txHash :: txHashes) book.offers last := by
  obtain ⟨taken, haction, rfl, rfl, rfl⟩ := htakes
  refine ⟨book.acceptGlobalOffer summary, ?_, ?_⟩
  · rw [Registry.dispatch_standard]
    unfold ActionSummary.kind
    rw [haction]
    rfl
  cases hwaiting :
      book.waiting taken.collection taken.offerOwner taken.amount with
  | nil =>
      have hsame := offers_acceptGlobalOffer_of_nobody haction hwaiting
      constructor
      · exact fun offer hmem => .inl (hsame ▸ hmem)
      · intro txHashes last h
        unfold waiting at h hwaiting
        rw [hsame, hwaiting] at h
        exact h.nobody _
  | cons i rest =>
      have hnext :=
        offers_acceptGlobalOffer_of_waiting haction hnew hwaiting
      obtain ⟨hrest, hgone⟩ := waiting_of_modify hnext hwaiting
      constructor
      · intro offer hmem
        rw [hnext] at hmem
        exact mem_modify_acceptedBy hmem
      · intro txHashes last h
        rw [hrest, hnext] at h
        exact h.cons hgone

/-- Acceptances by different new transactions in a row. -/
theorem settles_acceptances {collection owner : String} {amount : Nat}
    {acceptances : List (ActionSummary × Payment)}
    (htakes : ∀ acceptance ∈ acceptances,
      acceptance.1.Takes collection owner amount)
    (hdistinct : (acceptances.map (·.1.txHash)).Nodup)
    (hnew : ∀ acceptance ∈ acceptances, ∀ offer ∈ book.offers,
      offer.acceptedTxHash ≠ some acceptance.1.txHash) :
    ∃ last, acceptances.foldlM (fun book acceptance =>
        Registry.standard.dispatch book acceptance.1 acceptance.2) book
          = .ok last
      ∧ Settles (book.waiting collection owner amount)
        (acceptances.map (·.1.txHash)) book.offers last.offers := by
  induction acceptances generalizing book with
  | nil => exact ⟨book, rfl, .none _ _⟩
  | cons acceptance acceptances ih =>
      rw [List.map_cons, List.nodup_cons] at hdistinct
      obtain ⟨next, hnext, hmem, hsettles⟩ := exists_taking
        (htakes _ List.mem_cons_self) (hnew _ List.mem_cons_self)
        acceptance.2
      have hstill : ∀ later ∈ acceptances, ∀ offer ∈ next.offers,
          offer.acceptedTxHash ≠ some later.1.txHash := by
        intro later hlater offer hoffer heq
        rcases hmem offer hoffer with hbefore | hself
        · exact hnew _ (List.mem_cons_of_mem _ hlater) offer hbefore heq
        · have hsame : acceptance.1.txHash = later.1.txHash :=
            Option.some.inj (hself.symm.trans heq)
          exact hdistinct.1
            (List.mem_map.2 ⟨later, hlater, hsame.symm⟩)
      obtain ⟨last, hlast, hrest⟩ := ih
        (fun later hlater => htakes _ (List.mem_cons_of_mem _ hlater))
        hdistinct.2 hstill
      refine ⟨last, ?_, hsettles _ _ hrest⟩
      rw [List.foldlM_cons, hnext]
      exact hlast

/-- Offers for any token of a collection are settled first in, first out. In
any book, acceptances of offers of one owner at one price, by transactions
that are all new, accept the first offers that wait for them, in the order in
which they were made and as many as there are of both, each by its own
transaction, and change no other. -/
theorem settles_globalAcceptances (book : Book) {collection owner : String}
    {amount : Nat} {acceptances : List (ActionSummary × Payment)}
    (htakes : ∀ acceptance ∈ acceptances,
      acceptance.1.Takes collection owner amount)
    (hdistinct : (acceptances.map (·.1.txHash)).Nodup)
    (hnew : ∀ acceptance ∈ acceptances, ∀ offer ∈ book.offers,
      offer.acceptedTxHash ≠ some acceptance.1.txHash) :
    ∃ last, acceptances.foldlM (fun book acceptance =>
        Registry.standard.dispatch book acceptance.1 acceptance.2) book
          = .ok last
      ∧ Settles (book.waiting collection owner amount)
        (acceptances.map (·.1.txHash)) book.offers last.offers
      ∧ ((book.waiting collection owner amount).take acceptances.length).length
        = min acceptances.length (book.offers.countP fun offer =>
          offer.Awaits collection owner amount) := by
  obtain ⟨last, hlast, hsettles⟩ :=
    settles_acceptances htakes hdistinct hnew
  refine ⟨last, hlast, hsettles, ?_⟩
  unfold waiting
  rw [List.length_take, length_positions]

end Book

namespace Sample

/-- An offer of five for a token of a collection, or for any. -/
def stallWish (number nonce : Nat) (owner : String) : ActionSummary :=
  stallAction "wish" (.offerCreated ⟨number, "C", nonce, owner, 5, 1, 8⟩)

/-- Two offers wait in one line, among others. -/
def stallLine : List Book.Deed :=
  [stallWish 1 0 "other", stallWish 2 0 "buyer", stallWish 3 1 "buyer",
    stallWish 4 0 "buyer"].map fun wish => .dispatch wish stallPayment

/-- A token of the collection is sold to the buyer. -/
def stallTaking (txHash : String) : ActionSummary × Payment :=
  (stallAction txHash (.globalOfferAccepted
    ⟨0, "C", 6, "buyer", "seller", 5, 0⟩), stallPayment)

end Sample

/-- Three tokens are sold where two offers wait. -/
theorem Book.settles_line_sample :
    ∃ book last, after Sample.stall Sample.stallLine = .ok book
      ∧ book.waiting "C" "buyer" 5 = [1, 3]
      ∧ [Sample.stallTaking "a", Sample.stallTaking "b",
          Sample.stallTaking "c"].foldlM (fun book acceptance =>
          Registry.standard.dispatch book acceptance.1 acceptance.2) book
        = .ok last
      ∧ Settles [1, 3] ["a", "b", "c"] book.offers last.offers := by
  let book := ((((Book.empty Sample.stall).makeOffer
    (Sample.stallWish 1 0 "other") Sample.stallPayment).makeOffer
    (Sample.stallWish 2 0 "buyer") Sample.stallPayment).makeOffer
    (Sample.stallWish 3 1 "buyer") Sample.stallPayment).makeOffer
    (Sample.stallWish 4 0 "buyer") Sample.stallPayment
  have hwaiting : book.waiting "C" "buyer" 5 = [1, 3] := by decide
  have htakes : ∀ acceptance ∈ [Sample.stallTaking "a",
      Sample.stallTaking "b", Sample.stallTaking "c"],
      acceptance.1.Takes "C" "buyer" 5 := by
    simp [Sample.stallTaking, Sample.stallAction, ActionSummary.Takes]
  obtain ⟨last, hlast, hsettles, -⟩ := book.settles_globalAcceptances htakes
    (by decide) (by decide)
  exact ⟨book, last, rfl, hwaiting, hlast, hwaiting ▸ hsettles⟩

end MarketReplay
