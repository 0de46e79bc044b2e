/-
What a replay leaves in the tables.

`Services.StoresIn` is the contract with the sink: each of its calls does to
the tables what `Tables` says, or fails and does nothing. Nothing else touches
them, so the tables change only while a book is stored, and then table by
table.

A book is stored row by row onto what the tables hold. If these are the first
of its own rows, by key and number, then so are the tables afterwards, however
the storing ends, and if it ends well they are all of its rows
(`persist_stored`). A replay as a whole leaves the tables alone or does this
(`rebuild_stored`).
-/
import MarketReplay.Proofs.Run.Completed
import MarketReplay.Proofs.Store.Stored

namespace MarketReplay

variable {σ : Type}

-- =========================================================== the contract

/-- The sink keeps the records in tables, and leaves them alone where it
fails; the other services have nothing to do with them. -/
structure Services.StoresIn (services : Services σ) (tables : σ → Tables) :
    Prop where
  saveAuctions : ∀ auctions, Call.Performs tables
    (fun stored => stored.saveAuctions auctions)
    (services.sink.saveAuctions auctions)
  /-- Only orders that say where their auctions are stored are ever saved. -/
  saveOrders : ∀ orders : List Order,
    (∀ order ∈ orders, order.auctionId ≠ none) →
      Call.Performs tables (fun stored => ((), (stored.saveOrders orders).2))
        (services.sink.saveOrders orders)
  saveOffers : ∀ offers, Call.Performs tables
    (fun stored => ((), stored.saveOffers offers))
    (services.sink.saveOffers offers)
  observe : ∀ set world, tables (services.observe set world) = tables world
  events : ∀ request, Call.Keeps tables (services.events.events request)
  marketplaceAt : ∀ address, Call.Keeps tables (services.marketplaceAt address)
  token : ∀ identifier, Call.Keeps tables (services.token identifier)
  tagsOf : ∀ request offset, Call.Keeps tables (services.tagsOf request offset)

/-- The sink in memory never fails on such orders. -/
theorem Memory.run_saveOrders_of_bound {orders : List Order}
    (h : ∀ order ∈ orders, order.auctionId ≠ none) (memory : Memory) :
    (sink.saveOrders orders).run memory = (.ok (),
      { memory with tables := (memory.tables.saveOrders orders).2 }) := by
  rw [run_saveOrders, Tables.saveOrders_of_bound h]
  rfl

theorem Memory.storesIn_servicesBy
    (token : List Token → String → Except RunError (Option Token))
    (tagsOf : List TokenTags → List String → Nat →
      Except RunError (List TokenTags)) :
    (servicesBy token tagsOf).StoresIn Memory.tables where
  saveAuctions auctions world := .inl ⟨_, _, rfl, rfl⟩
  saveOrders orders hbound world :=
    .inl ⟨(), _, run_saveOrders_of_bound hbound world, rfl⟩
  saveOffers offers world := .inl ⟨_, _, rfl, rfl⟩
  observe set world := rfl
  events request world := rfl
  marketplaceAt address world := rfl
  token identifier world := by rw [run_token]
  tagsOf request offset world := by rw [run_tagsOf]

/-- The sink never fails, and numbers every auction. -/
structure Services.Accepts (services : Services σ) : Prop where
  saveAuctions : ∀ auctions world, ∃ ids later,
    (services.sink.saveAuctions auctions).run world = (.ok ids, later)
      ∧ ids.length = auctions.length
  saveOrders : ∀ orders : List Order,
    (∀ order ∈ orders, order.auctionId ≠ none) →
      Call.Answers (services.sink.saveOrders orders)
  saveOffers : ∀ offers, Call.Answers (services.sink.saveOffers offers)

theorem Memory.accepts_servicesBy
    (token : List Token → String → Except RunError (Option Token))
    (tagsOf : List TokenTags → List String → Nat →
      Except RunError (List TokenTags)) :
    (servicesBy token tagsOf).Accepts where
  saveAuctions auctions world :=
    ⟨_, _, rfl, world.tables.length_saveAuctions auctions⟩
  saveOrders _ hbound world := ⟨(), _, run_saveOrders_of_bound hbound world⟩
  saveOffers _ _ := ⟨_, _, rfl⟩

namespace Replayer

variable {replayer : Replayer σ} {tables : σ → Tables}

-- ====================================================== before the storing

section
variable (h : replayer.services.StoresIn tables)
include h

theorem keeps_dispatchSet (progress : Progress) (set : List Event) :
    Call.Keeps tables (replayer.dispatchSet progress set) := by
  unfold dispatchSet
  refine .bind (fun world => h.observe set world) fun _ => ?_
  dsimp only
  split
  · exact .throw _
  · exact .pure _
  · exact .pure _
  · refine .bind (.foldlM ?_ _ _) fun book => .pure _
    exact fun book summary => keeps_dispatch h.token book summary

theorem keeps_process (final : Bool) (buffer : List Event)
    (progress : Progress) :
    Call.Keeps tables (replayer.process final buffer progress) :=
  .bind (.foldlM (keeps_dispatchSet h) _ _) fun _ => .pure _

theorem keeps_next (pager : Pager) :
    Call.Keeps tables (pager.next replayer.services.events.events) := by
  unfold Pager.next
  cases pager.request? with
  | none => exact .pure _
  | some request => exact .bind (h.events request) fun _ => .pure _

theorem keeps_readLog (pages : Nat) (pager : Pager) (carry : List Event)
    (progress : Progress) :
    Call.Keeps tables (replayer.readLog pages pager carry progress) := by
  induction pages generalizing pager carry progress with
  | zero => exact .pure _
  | succ pages ih =>
      unfold readLog
      refine .bind (keeps_next h pager) fun turned => ?_
      refine .bind (keeps_process h _ _ _) fun taken => ?_
      dsimp only
      split
      · exact Call.Keeps.pure _
      · exact ih turned.2 taken.1 taken.2

theorem keeps_replay (marketplace : Marketplace) :
    Call.Keeps tables (replayer.replay marketplace) := by
  unfold replay
  refine .bind (fun world => rfl) fun world => ?_
  refine .bind (keeps_readLog h _ _ _ _) fun (carry, reached) => ?_
  exact .bind (keeps_process h _ _ _) fun _ => .pure _

-- ============================================================ the storing

/-- A sound book, stored onto the first of its rows: the first of its rows are
there afterwards, and all of them if nothing fails. -/
theorem persist_stored {book : Book} (hsound : book.roster.Sound)
    {world later : σ} {result : Except RunError Unit}
    (hrun : (replayer.persist book).run world = (result, later))
    (hbegins : (tables world).Begins book.stored) :
    (tables later).Begins book.stored
      ∧ (result = .ok () → tables later = book.stored) := by
  unfold persist at hrun
  rcases Call.run_bind_cases hrun with ⟨error, hsave, rfl⟩ |
    ⟨ids, listed, hsave, hrun⟩
  case inl =>
    rw [(h.saveAuctions _).of_error hsave]
    exact ⟨hbegins, nofun⟩
  have hstep := (h.saveAuctions _).of_ok hsave
  rw [Book.saveAuctions_stored hsound hbegins] at hstep
  obtain ⟨rfl, hlisted⟩ := Prod.mk.inj hstep
  have hfirst : (tables listed).Begins book.stored := by
    rw [← hlisted]
    exact { hbegins with auctions := List.prefix_rfl }
  -- every auction has a number, so every order finds its own
  simp only [Book.length_numbers, ne_eq, not_true_eq_false, ↓reduceIte,
    Book.mapM_bind_numbers hsound] at hrun
  rw [Call.run_bind_ok (Call.run_liftM (.ok book.stored.orders) listed)] at hrun
  have hbound := book.bound_stored_orders
  rcases Call.run_bind_cases hrun with ⟨error, hsave, rfl⟩ |
    ⟨_, ordered, hsave, hrun⟩
  case inl =>
    rw [(h.saveOrders _ hbound).of_error hsave]
    exact ⟨hfirst, nofun⟩
  have hordered := (h.saveOrders _ hbound).of_ok hsave
  rw [Book.saveOrders_stored hsound hfirst] at hordered
  have hsecond : (tables ordered).Begins book.stored := by
    rw [← (Prod.mk.inj hordered).2]
    exact { hfirst with orders := List.prefix_rfl }
  cases result with
  | error error =>
      rw [(h.saveOffers _).of_error hrun]
      exact ⟨hsecond, nofun⟩
  | ok done =>
      have hoffered := (h.saveOffers _).of_ok hrun
      rw [Book.saveOffers_stored hsound hsecond] at hoffered
      have hall : tables later = book.stored := by
        rw [← (Prod.mk.inj hoffered).2, ← (Prod.mk.inj hordered).2, ← hlisted]
      exact ⟨hall ▸ .refl _, fun _ => hall⟩

end

/-- A sound book is stored whatever is in the tables. -/
theorem answers_persist (h : replayer.services.Accepts) {book : Book}
    (hsound : book.roster.Sound) : Call.Answers (replayer.persist book) := by
  intro world
  unfold persist
  obtain ⟨ids, listed, hsave, hlen⟩ := h.saveAuctions book.auctions world
  rw [Call.run_bind_ok hsave]
  -- there is a number for every auction, and an auction for every order
  have hknown : ∀ order ∈ book.orders, order.auctionIndex < ids.length := by
    intro order hmem
    rw [hlen]
    exact Book.order_known hsound hmem
  simp only [hlen, ne_eq, not_true_eq_false, ↓reduceIte, mapM_bind hknown]
  rw [Call.run_bind_ok (Call.run_liftM (.ok _) listed)]
  refine Call.Answers.bind (h.saveOrders _ fun order hmem => ?_)
    (fun _ => h.saveOffers _) listed
  obtain ⟨unbound, hunbound, rfl⟩ := List.mem_map.1 hmem
  dsimp only
  rw [List.getElem?_eq_getElem (hknown unbound hunbound)]
  exact Option.some_ne_none _

section
variable (h : replayer.services.StoresIn tables)
include h

/-- However a replay ends, it leaves the tables alone, or it has read the whole
log and stored of its book what it could. -/
theorem rebuild_stored {scene : σ → Scene}
    (hlog : replayer.services.OverLog scene)
    (hhandlers : replayer.handlers.BuiltIn) {address : String}
    {world later : σ} {result : Except RunError Report}
    (hrun : (replayer.rebuild address).run world = (result, later)) :
    tables later = tables world
      ∨ ∃ (marketplace : Marketplace) (found : σ)
            (texts : List (List Event)) (book : Book),
        (replayer.services.marketplaceAt address).run world
            = (.ok (some marketplace), found)
          ∧ texts.flatten = (scene world).log.ascending address 0
          ∧ book.roster
            = EventSet.rosterOf marketplace (EventSet.deal texts)
          ∧ ((tables world).Begins book.stored →
            (tables later).Begins book.stored) := by
  have hkeeps : Call.Keeps tables (replayer.prepare replayer.replay address) :=
    keeps_prepare h.tagsOf (h.marketplaceAt address) (keeps_replay h)
  rw [rebuild_eq, complete] at hrun
  rcases Call.run_bind_cases hrun with ⟨error, hprepare, rfl⟩ |
    ⟨⟨report, book⟩, prepared, hprepare, hrun⟩
  case inl => exact .inl (hkeeps.of_run hprepare)
  -- from here on the book is known, and only the storing can fail
  obtain ⟨marketplace, found, progress, replayed, hfind, hreplay, hfinish⟩ :=
    of_prepare hprepare
  obtain ⟨⟨tagged, hfill⟩, -⟩ := of_finish hfinish
  obtain ⟨texts, hflat, hroster⟩ :=
    roster_of_fill hlog hhandlers hfind hreplay hfill
  refine .inr ⟨marketplace, found, texts, book, hfind, hflat, hroster, ?_⟩
  intro hbegins
  have hsound : book.roster.Sound := hroster ▸ EventSet.sound_rosterOf
  rw [← hkeeps.of_run hprepare] at hbegins
  rcases Call.run_bind_cases hrun with ⟨error, hpersist, rfl⟩ |
    ⟨⟨⟩, stored, hpersist, hrun⟩
  · exact (persist_stored h hsound hpersist hbegins).1
  · cases hrun
    exact (persist_stored h hsound hpersist hbegins).1

end

end Replayer

end MarketReplay
