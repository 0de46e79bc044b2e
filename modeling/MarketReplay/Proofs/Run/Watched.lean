/-
Replays whose calls are watched.

`Services.watched` are some services over a world that also holds the calls
made so far. They answer as the services do; so a watched replay is the replay
itself, together with a list of what it asked whom. That is shown call by call
(`Call.Agree`), for everything that a replay does before it stores anything
(`Replayer.prepare`). Along the way the services that only answer questions
are told from the sink: from worlds in which nothing was handed to the sink
yet, none of the former leads to a world in which something was
(`Unstored`).
-/
import MarketReplay.Proofs.Run.Prepare

namespace MarketReplay

variable {σ α : Type}

-- =============================================================== the calls

/-- A call of a service, with what it is asked or handed. -/
inductive ServiceCall
  | marketplaceAt (address : String)
  | events (request : PageRequest)
  | token (identifier : String)
  | tagsOf (identifiers : List String) (offset : Nat)
  | saveAuctions (auctions : List Auction)
  | saveOrders (orders : List Order)
  | saveOffers (offers : List Offer)
deriving DecidableEq, Repr

/-- Does the call go to the sink? -/
def ServiceCall.isStoring : ServiceCall → Bool
  | saveAuctions _ | saveOrders _ | saveOffers _ => true
  | marketplaceAt _ | events _ | token _ | tagsOf _ _ => false

/-- A world, and the calls that were made in it. -/
structure Watched (σ : Type) where
  world : σ
  calls : List ServiceCall

/-- The calls that went to the sink. -/
def Watched.stored (watched : Watched σ) : List ServiceCall :=
  watched.calls.filter (·.isStoring)

/-- A call that is noted, however it ends. -/
def Call.noted (call : ServiceCall) (c : Call σ α) : Call (Watched σ) α :=
  ExceptT.mk fun watched =>
    let (result, world) := c.run watched.world
    (result, ⟨world, watched.calls ++ [call]⟩)

/-- The services in a world where their calls are noted. -/
def Services.watched (services : Services σ) : Services (Watched σ) where
  marketplaceAt address :=
    .noted (.marketplaceAt address) (services.marketplaceAt address)
  events := {
    events request := .noted (.events request) (services.events.events request)
    fullPages watched := services.events.fullPages watched.world }
  token identifier := .noted (.token identifier) (services.token identifier)
  tagsOf identifiers offset :=
    .noted (.tagsOf identifiers offset) (services.tagsOf identifiers offset)
  sink := {
    saveAuctions auctions :=
      .noted (.saveAuctions auctions) (services.sink.saveAuctions auctions)
    saveOrders orders := .noted (.saveOrders orders) (services.sink.saveOrders orders)
    saveOffers offers := .noted (.saveOffers offers) (services.sink.saveOffers offers) }
  observe set watched := { watched with world := services.observe set watched.world }
  now watched := services.now watched.world
  lockTime watched := services.lockTime watched.world

/-- The replay with its services watched. -/
def Replayer.watched (replayer : Replayer σ) : Replayer (Watched σ) :=
  ⟨replayer.config, replayer.services.watched, replayer.handlers⟩

/-- A call that is noted answers as before, and is last in the list. -/
theorem Call.run_noted {call : ServiceCall} {c : Call σ α} {world later : σ}
    {result : Except RunError α} (hrun : c.run world = (result, later))
    (calls : List ServiceCall) :
    (c.noted call).run ⟨world, calls⟩ = (result, ⟨later, calls ++ [call]⟩) := by
  show ((c.run world).1, (⟨(c.run world).2, calls ++ [call]⟩ : Watched σ)) = _
  rw [hrun]

-- ==================================================== nothing stored so far

/-- A watched world is this world, and nothing was stored in it yet. -/
def Unstored (watched : Watched σ) (world : σ) : Prop :=
  watched.world = world ∧ watched.stored = []

/-- A question leads on to worlds in which nothing was stored. -/
theorem noted_agree {call : ServiceCall} (hcall : call.isStoring = false)
    (c : Call σ α) : Call.Agree Unstored Eq (c.noted call) c := by
  rintro ⟨world, calls⟩ _ ⟨rfl, hstored⟩
  cases hrun : c.run world with
  | mk result later =>
    rw [Call.run_noted hrun]
    refine .of_like result ⟨rfl, ?_⟩
    show (calls ++ [call]).filter (·.isStoring) = []
    rw [List.filter_append, show calls.filter (·.isStoring) = [] from hstored]
    simp [hcall]

namespace Replayer

variable (replayer : Replayer σ)

/-- A dispatch stores nothing, and does the same under watch. -/
theorem watched_dispatch (book : Book) (summary : ActionSummary) :
    Call.Agree Unstored Eq (replayer.watched.dispatch book summary)
      (replayer.dispatch book summary) := by
  unfold dispatch Config.resolve
  refine .bind_eq ?_ fun payment => .liftM _
  rw [show replayer.watched.config = replayer.config from rfl]
  cases replayer.config.quote book summary with
  | settled payment => exact .pure rfl
  | inToken identifier nonce =>
      exact .bind_eq (noted_agree rfl _) fun token => .pure rfl

/-- A set is taken in the same under watch. -/
theorem watched_dispatchSet (progress : Progress) (set : List Event) :
    Call.Agree Unstored Eq (replayer.watched.dispatchSet progress set)
      (replayer.dispatchSet progress set) := by
  unfold dispatchSet
  refine .bind_eq (.of_modify ?_) fun _ => ?_
  · rintro watched _ ⟨rfl, hstored⟩
    exact ⟨rfl, hstored⟩
  dsimp only
  cases EventSet.summarize progress.book.marketplace set with
  | error e =>
      cases e with
      | unknownAction identifier txHash => exact .throw _
      | decode identifier txHash cause => exact .pure rfl
  | ok summaries =>
      cases summaries with
      | nil => exact .pure rfl
      | cons summary summaries =>
          refine .bind_eq (.foldlM ?_ _ rfl) fun book => .pure rfl
          rintro book _ action rfl
          exact replayer.watched_dispatch book action

/-- A buffer is processed the same under watch. -/
theorem watched_process (final : Bool) (buffer : List Event) (progress : Progress) :
    Call.Agree Unstored Eq (replayer.watched.process final buffer progress)
      (replayer.process final buffer progress) := by
  unfold process
  refine .bind_eq (.foldlM ?_ _ rfl) fun reached => .pure rfl
  rintro reached _ set rfl
  exact replayer.watched_dispatchSet reached set

/-- A pager turns the same under watch. -/
theorem watched_next (pager : Pager) :
    Call.Agree Unstored Eq
      (pager.next replayer.watched.services.events.events)
      (pager.next replayer.services.events.events) := by
  unfold Pager.next
  cases pager.request? with
  | none => exact .pure rfl
  | some request => exact .bind_eq (noted_agree rfl _) fun events => .pure rfl

/-- The log is read the same under watch, by induction on the pages that are
left. -/
theorem watched_readLog (pages : Nat) (pager : Pager) (carry : List Event)
    (progress : Progress) :
    Call.Agree Unstored Eq (replayer.watched.readLog pages pager carry progress)
      (replayer.readLog pages pager carry progress) := by
  induction pages generalizing pager carry progress with
  | zero => exact .pure rfl
  | succ pages ih =>
      unfold readLog
      refine .bind_eq (replayer.watched_next pager) fun (page, pager) => ?_
      refine .bind_eq (replayer.watched_process _ _ _) fun (carry, progress) => ?_
      dsimp only
      split
      · exact .pure rfl
      · exact ih pager carry progress

/-- A replay is the same under watch. -/
theorem watched_replay (marketplace : Marketplace) :
    Call.Agree Unstored Eq (replayer.watched.replay marketplace)
      (replayer.replay marketplace) := by
  unfold replay
  refine .bind .get ?_
  rintro ⟨world, calls⟩ _ ⟨rfl, -⟩
  refine .bind_eq (replayer.watched_readLog _ _ _ _) fun (carry, progress) => ?_
  exact .bind_eq (replayer.watched_process _ _ _) fun (left, progress) => .pure rfl

/-- Tags are filled in the same under watch. -/
theorem watched_backfill (book : Book) :
    Call.Agree Unstored Eq (replayer.watched.backfill book)
      (replayer.backfill book) := by
  unfold backfill
  exact .bind_eq (.mapM (fun request => noted_agree rfl _) _) fun answers => .pure rfl

/-- A replay finishes the same under watch. -/
theorem watched_finish (address : String) (marketplace : Marketplace)
    (progress : Progress) :
    Call.Agree Unstored Eq
      (replayer.watched.finish address marketplace progress)
      (replayer.finish address marketplace progress) := by
  unfold finish
  refine .bind .get ?_
  rintro ⟨world, calls⟩ _ ⟨rfl, -⟩
  exact .bind_eq (replayer.watched_backfill _) fun (tagged, book) => .pure rfl

/-- Until a replay stores something it makes the same calls, with the same
answers, whether it is watched or not, and none of them goes to the sink. -/
theorem watched_prepare (address : String) :
    Call.Agree Unstored Eq
      (replayer.watched.prepare replayer.watched.replay address)
      (replayer.prepare replayer.replay address) := by
  have hfinish : ∀ marketplace (left right : Progress), left = right →
      Call.Agree Unstored Eq (replayer.watched.finish address marketplace left)
        (replayer.finish address marketplace right) := by
    rintro marketplace progress _ rfl
    exact replayer.watched_finish address marketplace progress
  intro watched world hworlds
  refine prepare_sameEnd (noted_agree rfl _ watched world hworlds) ?_ hfinish
  rintro answer _ - - rfl
  exact ⟨rfl, fun marketplace _ => replayer.watched_replay marketplace⟩

end Replayer

end MarketReplay
