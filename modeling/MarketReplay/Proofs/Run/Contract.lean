/-
What a replay relies on from the services around it.

A replay reads events from a store and shows event sets to an observer. The
part of the world that these two are about is its `Scene`: the log, and the
sets shown so far. `Services.OverLog` is the contract with them. The store
answers the page of the log that it is asked for, if it answers; the observer
takes note of the set; and no other service touches the scene. Nothing is
said of failures, so a store that fails now and then keeps the contract too.
A call that is cut short by a failure has still shown something, and
`Call.Shows` says what: the first of some sets, and all of them if it answers.

`Services.Blind` is what it takes to compare two runs: a relation `like`
between worlds that asking for pages does not leave and that no other service
can tell apart. Up to the storing of records its larger part is enough,
`Services.BlindReading`, which says nothing of the sink.

The services in memory keep both contracts (`Memory.overLog_servicesBy`,
`Memory.blind_servicesBy`), with any functions that answer for tokens and
tags in place of their own.
-/
import MarketReplay.Proofs.Run.Call
import MarketReplay.Store.Memory

namespace MarketReplay

/-- What store and observer are about: the log, and the event sets shown. -/
structure Scene where
  log : EventLog
  shown : List (List Event)

/-- The scene with some more sets shown. -/
def Scene.show (scene : Scene) (sets : List (List Event)) : Scene :=
  { scene with shown := scene.shown ++ sets }

@[simp] theorem Scene.show_nil (scene : Scene) : scene.show [] = scene := by
  unfold Scene.show
  rw [List.append_nil]

/-- What is shown later stands behind what was shown before. -/
theorem Scene.show_show (scene : Scene) (sets more : List (List Event)) :
    (scene.show sets).show more = scene.show (sets ++ more) := by
  unfold Scene.show
  rw [List.append_assoc]

variable {σ α β : Type}

namespace Call

/-- The call shows the first of some sets, and all of them if it answers. -/
def Shows (scene : σ → Scene) (sets : List (List Event)) (c : Call σ α) :
    Prop :=
  ∀ world, ∃ shown, shown <+: sets
    ∧ scene (c.run world).2 = (scene world).show shown
    ∧ ∀ a, (c.run world).1 = .ok a → shown = sets

namespace Shows

variable {scene : σ → Scene} {sets more : List (List Event)} {c : Call σ α}
  {f : α → Call σ β}

/-- A call that answers has shown all of its sets. -/
theorem of_run (h : Shows scene sets c) {world later : σ} {a : α}
    (hrun : c.run world = (.ok a, later)) :
    scene later = (scene world).show sets := by
  obtain ⟨shown, -, hscene, hall⟩ := h world
  rw [hrun] at hscene hall
  rw [← hall a rfl]
  exact hscene

/-- A call that keeps the scene shows nothing. -/
theorem of_keeps (h : Keeps scene c) : Shows scene [] c := by
  intro world
  refine ⟨[], List.nil_prefix, ?_, fun _ _ => rfl⟩
  rw [h world, Scene.show_nil]

/-- A call that fails at once has shown the first none of its sets. -/
theorem throw (error : RunError) :
    Shows scene sets (MonadExcept.throw error : Call σ α) := by
  intro world
  refine ⟨[], List.nil_prefix, (Scene.show_nil _).symm, fun a h => ?_⟩
  cases h

/-- One call after another shows the sets of the one and then those of the
other. -/
theorem bind (hc : Shows scene sets c) (hf : ∀ a, Shows scene more (f a)) :
    Shows scene (sets ++ more) (c >>= f) := by
  intro world
  obtain ⟨shown, hpart, hscene, hall⟩ := hc world
  cases hrun : c.run world with
  | mk result mid =>
      rw [hrun] at hscene hall
      cases result with
      | error e =>
          -- the second part never starts
          rw [run_bind_error hrun]
          refine ⟨shown, hpart.trans (List.prefix_append sets more), hscene,
            fun a h => ?_⟩
          cases h
      | ok a =>
          obtain rfl := hall a rfl
          obtain ⟨later, hlater, hmid, hrest⟩ := hf a mid
          rw [run_bind_ok hrun]
          refine ⟨shown ++ later,
            (List.prefix_append_right_inj shown).2 hlater, ?_,
            fun b h => by rw [hrest b h]⟩
          rw [hmid, hscene, Scene.show_show]

/-- A call that keeps the scene may come first. -/
theorem keeps_bind (hc : Keeps scene c) (hf : ∀ a, Shows scene sets (f a)) :
    Shows scene sets (c >>= f) :=
  (of_keeps hc).bind hf

/-- A call that keeps the scene may come last. -/
theorem bind_keeps (hc : Shows scene sets c) (hf : ∀ a, Keeps scene (f a)) :
    Shows scene sets (c >>= f) := by
  have h := hc.bind fun a => of_keeps (hf a)
  rwa [List.append_nil] at h

end Shows

end Call

namespace Services

/-- The store answers pages of the log, the observer notes what it is shown,
and the other services have nothing to do with either. -/
structure OverLog (services : Services σ) (scene : σ → Scene) : Prop where
  page : ∀ {request world events later},
    (services.events.events request).run world = (.ok events, later) →
    events = (scene world).log.page request
  /-- There are never more full pages than events; the store's own bound on
  them allows for as many. -/
  bound : ∀ world,
    (scene world).log.entries.length ≤ services.events.fullPages world
  address : ∀ {address world marketplace later},
    (services.marketplaceAt address).run world
      = (.ok (some marketplace), later) → marketplace.address = address
  observe : ∀ set world,
    scene (services.observe set world) = (scene world).show [set]
  events : ∀ request, Call.Keeps scene (services.events.events request)
  marketplaceAt : ∀ address, Call.Keeps scene (services.marketplaceAt address)
  token : ∀ identifier, Call.Keeps scene (services.token identifier)
  tagsOf : ∀ request offset, Call.Keeps scene (services.tagsOf request offset)
  saveAuctions : ∀ auctions,
    Call.Keeps scene (services.sink.saveAuctions auctions)
  saveOrders : ∀ orders, Call.Keeps scene (services.sink.saveOrders orders)
  saveOffers : ∀ offers, Call.Keeps scene (services.sink.saveOffers offers)

/-- The store always answers, and nothing that a replay reads tells worlds
apart that are like each other; asking for a page leads to a world like the one
before. -/
structure BlindReading (services : Services σ) (log : EventLog)
    (like : σ → σ → Prop) : Prop where
  page : ∀ request {left right}, like left right →
    ∃ later, (services.events.events request).run left
      = (.ok (log.page request), later) ∧ like later right
  bound : ∀ {left right}, like left right →
    log.entries.length ≤ services.events.fullPages left
  now : ∀ {left right}, like left right →
    services.now left = services.now right
  observe : ∀ set {left right}, like left right →
    like (services.observe set left) (services.observe set right)
  marketplaceAt : ∀ address,
    Call.Agree like
      (fun found same => found = same
        ∧ ∀ marketplace ∈ found, marketplace.address = address)
      (services.marketplaceAt address) (services.marketplaceAt address)
  token : ∀ identifier,
    Call.Agree like Eq (services.token identifier) (services.token identifier)
  tagsOf : ∀ request offset,
    Call.Agree like Eq (services.tagsOf request offset)
      (services.tagsOf request offset)

/-- Neither does the sink. -/
structure Blind (services : Services σ) (log : EventLog)
    (like : σ → σ → Prop) : Prop extends services.BlindReading log like where
  saveAuctions : ∀ auctions,
    Call.Agree like Eq (services.sink.saveAuctions auctions)
      (services.sink.saveAuctions auctions)
  saveOrders : ∀ orders,
    Call.Agree like Eq (services.sink.saveOrders orders)
      (services.sink.saveOrders orders)
  saveOffers : ∀ offers,
    Call.Agree like Eq (services.sink.saveOffers offers)
      (services.sink.saveOffers offers)

end Services

-- =============================================================== memory

namespace Memory

/-- The log in memory, and the sets its observer has seen. -/
def scene (memory : Memory) : Scene := ⟨memory.log, memory.observed⟩

/-- The services in memory with other answers for tokens and tags: any
functions of what the memory was filled with and of the request. -/
def servicesBy (token : List Token → String → Except RunError (Option Token))
    (tagsOf : List TokenTags → List String → Nat →
      Except RunError (List TokenTags)) : Services Memory :=
  { services with
    token identifier := do
      modify fun memory =>
        { memory with tokenLookups := memory.tokenLookups + 1 }
      liftM (token (← get).tokens identifier)
    tagsOf identifiers offset := do
      modify fun memory =>
        { memory with tagRequests := memory.tagRequests ++ [identifiers] }
      liftM (tagsOf (← get).tags identifiers offset) }

def tokenAmong (tokens : List Token) (identifier : String) :
    Except RunError (Option Token) :=
  .ok (tokens.find? (·.identifier == identifier))

def tagsAmong (tags : List TokenTags) (identifiers : List String)
    (offset : Nat) : Except RunError (List TokenTags) :=
  .ok ((identifiers.filterMap fun identifier =>
    tags.find? (·.identifier == identifier)).drop offset)

/-- The services in memory answer from what the memory was filled with. -/
theorem services_eq : services = servicesBy tokenAmong tagsAmong := rfl

variable (token : List Token → String → Except RunError (Option Token))
  (tagsOf : List TokenTags → List String → Nat →
    Except RunError (List TokenTags))

/-- A lookup is counted, whatever the answer. -/
theorem run_token (identifier : String) (memory : Memory) :
    ((servicesBy token tagsOf).token identifier).run memory
      = (token memory.tokens identifier,
        { memory with tokenLookups := memory.tokenLookups + 1 }) := by
  unfold servicesBy
  dsimp only
  rw [Call.run_bind_ok (Call.run_modify _ memory),
    Call.run_bind_ok (Call.run_get _), Call.run_liftM]

/-- A request for tags is noted, whatever the answer. -/
theorem run_tagsOf (request : List String) (offset : Nat) (memory : Memory) :
    ((servicesBy token tagsOf).tagsOf request offset).run memory
      = (tagsOf memory.tags request offset,
        { memory with tagRequests := memory.tagRequests ++ [request] }) := by
  unfold servicesBy
  dsimp only
  rw [Call.run_bind_ok (Call.run_modify _ memory),
    Call.run_bind_ok (Call.run_get _), Call.run_liftM]

/-- The rows that are stored stay, also where a later one of the same call
fails. -/
theorem run_saveOrders (orders : List Order) (memory : Memory) :
    (sink.saveOrders orders).run memory
      = ((memory.tables.saveOrders orders).1.mapError RunError.persistence,
        { memory with tables := (memory.tables.saveOrders orders).2 }) := by
  unfold sink
  dsimp only
  rw [Call.run_bind_ok (Call.run_get memory),
    Call.run_bind_ok (Call.run_set memory _)]
  cases (memory.tables.saveOrders orders).1 with
  | ok done => rfl
  | error fault => rfl

/-- A marketplace is found under its own address. -/
theorem address_of_marketplaceAt? {memory : Memory} {address : String}
    {marketplace : Marketplace}
    (h : memory.marketplaceAt? address = some marketplace) :
    marketplace.address = address := by
  have hfound := List.find?_some h
  exact eq_of_beq hfound

/-- Services in memory keep the contract for any answers about tokens and tags.
-/
theorem overLog_servicesBy : (servicesBy token tagsOf).OverLog scene where
  page {request world events later} h :=
    (Except.ok.inj (congrArg Prod.fst h)).symm
  bound world := Nat.le_refl _
  address {address world marketplace later} h :=
    address_of_marketplaceAt? (Except.ok.inj (congrArg Prod.fst h))
  observe set world := rfl
  events request world := rfl
  marketplaceAt address world := rfl
  token identifier world := by rw [run_token]; rfl
  tagsOf request offset world := by rw [run_tagsOf]; rfl
  saveAuctions auctions world := rfl
  saveOrders orders world :=
    congrArg (fun ran => scene ran.2) (run_saveOrders orders world)
  saveOffers offers world := rfl

/-- The services in memory keep the contract. -/
theorem overLog_services : services.OverLog scene :=
  services_eq ▸ overLog_servicesBy _ _

/-- Two memories over a log that differ at most in the pages asked for. -/
def Alike (log : EventLog) (left right : Memory) : Prop :=
  right.log = log ∧ ∃ requests, left = { right with pageRequests := requests }

theorem Alike.tables_eq {log : EventLog} {left right : Memory}
    (h : Alike log left right) : left.tables = right.tables := by
  obtain ⟨-, requests, rfl⟩ := h
  rfl

theorem Alike.observed_eq {log : EventLog} {left right : Memory}
    (h : Alike log left right) : left.observed = right.observed := by
  obtain ⟨-, requests, rfl⟩ := h
  rfl

/-- Services in memory do not notice which pages are asked for, for any answers
about tokens and tags. -/
theorem blind_servicesBy (log : EventLog) :
    (servicesBy token tagsOf).Blind log (Alike log) where
  page := by
    rintro request left right ⟨rfl, requests, rfl⟩
    exact ⟨_, rfl, rfl, _, rfl⟩
  bound := by
    rintro left right ⟨rfl, requests, rfl⟩
    exact Nat.le_refl _
  now := by
    rintro left right ⟨-, requests, rfl⟩
    rfl
  observe := by
    rintro set left right ⟨hlog, requests, rfl⟩
    exact ⟨hlog, requests, rfl⟩
  marketplaceAt := by
    rintro address left right ⟨hlog, requests, rfl⟩
    refine .ok ⟨rfl, fun marketplace hfind => ?_⟩ ⟨hlog, requests, rfl⟩
    exact address_of_marketplaceAt? hfind
  token := by
    rintro identifier left right ⟨hlog, requests, rfl⟩
    rw [run_token, run_token]
    exact .of_like _ ⟨hlog, requests, rfl⟩
  tagsOf := by
    rintro request offset left right ⟨hlog, requests, rfl⟩
    rw [run_tagsOf, run_tagsOf]
    exact .of_like _ ⟨hlog, requests, rfl⟩
  saveAuctions := by
    rintro auctions left right ⟨hlog, requests, rfl⟩
    exact .ok rfl ⟨hlog, requests, rfl⟩
  saveOrders := by
    rintro orders left right ⟨hlog, requests, rfl⟩
    show Call.SameEnd _ _ ((sink.saveOrders orders).run _)
      ((sink.saveOrders orders).run _)
    rw [run_saveOrders, run_saveOrders]
    exact .of_like _ ⟨hlog, requests, rfl⟩
  saveOffers := by
    rintro offers left right ⟨hlog, requests, rfl⟩
    exact .ok rfl ⟨hlog, requests, rfl⟩

/-- The services in memory do not notice which pages are asked for. -/
theorem blind_services (log : EventLog) : services.Blind log (Alike log) :=
  services_eq ▸ blind_servicesBy _ _ log

end Memory

end MarketReplay
