/-
A replay before it stores anything.

Until then a replay finds the marketplace, takes its log in, and finishes the
report and the book. How the log is taken in is left open in
`Replayer.prepare`: `Replayer.replay` reads it page by page, and
`Replayer.takeSets` is handed its event sets. With the book stored,
`Replayer.complete`, the former is a replay (`rebuild_eq`), and the latter a
replay without pages (`rebuildFrom`). What is true of both is said here once.
-/
import MarketReplay.Proofs.Run.Call
import MarketReplay.Run

namespace MarketReplay.Replayer

variable {σ τ : Type}

-- ========================================================= in two parts

section
variable (replayer : Replayer σ)

/-- Everything before the storing, where `takeIn` takes the log in. -/
def prepare (takeIn : Marketplace → Call σ Progress) (address : String) :
    Call σ (Report × Book) := do
  match ← replayer.services.marketplaceAt address with
  | none => throw (.marketplaceNotFound address)
  | some marketplace =>
      let progress ← takeIn marketplace
      replayer.finish address marketplace progress

/-- The same, and the storing of the book. -/
def complete (takeIn : Marketplace → Call σ Progress) (address : String) :
    Call σ Report := do
  let (report, book) ← replayer.prepare takeIn address
  replayer.persist book
  return report

/-- Takes in event sets that are at hand. -/
def takeSets (sets : List (List Event)) (marketplace : Marketplace) :
    Call σ Progress :=
  sets.foldlM replayer.dispatchSet ⟨.empty marketplace, .zero⟩

/-- A replay that is handed its event sets. -/
def rebuildFrom (sets : List (List Event)) (address : String) : Call σ Report :=
  replayer.complete (replayer.takeSets sets) address

/-- A replay reads its sets from the log, and is the same otherwise. -/
theorem rebuild_eq (address : String) :
    replayer.rebuild address = replayer.complete replayer.replay address := by
  unfold rebuild complete prepare
  rw [bind_assoc]
  refine bind_congr fun found => ?_
  cases found with
  | none => rfl
  | some marketplace => exact (bind_assoc ..).symm

end

variable {replayer : Replayer σ}

-- ============================================================= execution

section
variable {takeIn : Marketplace → Call σ Progress} {address : String}
  {marketplace : Marketplace} {world found taken : σ}
  (hfind : (replayer.services.marketplaceAt address).run world
    = (.ok (some marketplace), found))
include hfind

/-- Once the log is taken in, the rest is finishing. -/
theorem run_prepare_ok {progress : Progress}
    (htake : (takeIn marketplace).run found = (.ok progress, taken)) :
    (replayer.prepare takeIn address).run world
      = (replayer.finish address marketplace progress).run taken := by
  unfold prepare
  rw [Call.run_bind_ok hfind]
  exact Call.run_bind_ok htake _

/-- Where the log cannot be taken in, there is no rest. -/
theorem run_complete_error {error : RunError}
    (htake : (takeIn marketplace).run found = (.error error, taken)) :
    (replayer.complete takeIn address).run world = (.error error, taken) := by
  have hprepare : (replayer.prepare takeIn address).run world
      = (.error error, taken) := by
    unfold prepare
    rw [Call.run_bind_ok hfind]
    exact Call.run_bind_error htake _
  exact Call.run_bind_error hprepare _

end

-- ====================================================== what was answered

/-- What was filled in came from some answers. -/
theorem of_backfill {book filled : Book} {tagged : Nat} {world later : σ}
    (hrun : (replayer.backfill book).run world
      = (.ok (tagged, filled), later)) :
    ∃ answers, filled = book.fillTags answers := by
  unfold backfill at hrun
  obtain ⟨answers, mid, -, hrun⟩ := Call.of_run_bind hrun
  cases hrun
  exact ⟨_, rfl⟩

/-- A book that is finished has been swept and filled in, and the report goes
with it. -/
theorem of_finish {address : String} {marketplace : Marketplace}
    {progress : Progress} {report : Report} {book : Book} {world later : σ}
    (hrun : (replayer.finish address marketplace progress).run world
      = (.ok (report, book), later)) :
    (∃ tagged, (replayer.backfill (progress.book.expire
          (replayer.services.now world))).run world
        = (.ok (tagged, book), later))
      ∧ report.toTally = progress.tally
      ∧ report.marketplaceKey = marketplace.key
      ∧ report.auctionsPersisted = book.auctions.length
      ∧ report.ordersPersisted = book.orders.length
      ∧ report.offersPersisted = book.offers.length := by
  unfold finish at hrun
  obtain ⟨_, _, hget, hrun⟩ := Call.of_run_bind hrun
  cases hget
  obtain ⟨⟨tagged, filled⟩, _, hfill, hrun⟩ := Call.of_run_bind hrun
  cases hrun
  exact ⟨⟨tagged, hfill⟩, rfl, rfl, rfl, rfl, rfl⟩

/-- Where report and book are ready, each of the three parts has answered. -/
theorem of_prepare {takeIn : Marketplace → Call σ Progress} {address : String}
    {report : Report} {book : Book} {world later : σ}
    (hrun : (replayer.prepare takeIn address).run world
      = (.ok (report, book), later)) :
    ∃ marketplace found progress taken,
      (replayer.services.marketplaceAt address).run world
          = (.ok (some marketplace), found)
        ∧ (takeIn marketplace).run found = (.ok progress, taken)
        ∧ (replayer.finish address marketplace progress).run taken
          = (.ok (report, book), later) := by
  unfold prepare at hrun
  obtain ⟨answer, found, hfind, hrun⟩ := Call.of_run_bind hrun
  cases answer with
  | none => cases hrun
  | some marketplace =>
      obtain ⟨progress, taken, htake, hrun⟩ := Call.of_run_bind hrun
      exact ⟨marketplace, found, progress, taken, hfind, htake, hrun⟩

-- ========================================================= what is kept

section
variable {view : σ → τ}
  (h : ∀ request offset,
    Call.Keeps view (replayer.services.tagsOf request offset))
include h

/-- Filling in tags keeps what the requests for tags keep. -/
theorem keeps_backfill (book : Book) :
    Call.Keeps view (replayer.backfill book) := by
  unfold backfill
  exact .bind (.mapM (fun request => h request 0) _) fun _ => .pure _

/-- So does all that happens to the book after the log. -/
theorem keeps_finish (address : String) (marketplace : Marketplace)
    (progress : Progress) :
    Call.Keeps view (replayer.finish address marketplace progress) := by
  unfold finish
  exact .bind (fun world => rfl) fun world =>
    .bind (keeps_backfill h _) fun filled => .pure _

/-- Before the storing nothing else is touched than finding the marketplace,
taking the log in and asking for tags touch. -/
theorem keeps_prepare {takeIn : Marketplace → Call σ Progress}
    {address : String}
    (hfind : Call.Keeps view (replayer.services.marketplaceAt address))
    (htake : ∀ marketplace, Call.Keeps view (takeIn marketplace)) :
    Call.Keeps view (replayer.prepare takeIn address) := by
  unfold prepare
  refine .bind hfind fun found => ?_
  cases found with
  | none => exact .throw _
  | some marketplace =>
      exact .bind (htake marketplace) fun progress =>
        keeps_finish h address marketplace progress

end

-- ===================================================== two of a kind

/-- Two replays are ready with the same if they find the same marketplace, take
the log in alike, and finish alike from there. -/
theorem prepare_sameEnd {like : σ → τ → Prop} {left : Replayer σ}
    {right : Replayer τ} {takeIn : Marketplace → Call σ Progress}
    {handed : Marketplace → Call τ Progress} {address : String}
    {found : Option Marketplace → Option Marketplace → Prop}
    {same : Progress → Progress → Prop}
    {ready : Report × Book → Report × Book → Prop} {l : σ} {r : τ}
    (hfind : Call.SameEnd like found
      ((left.services.marketplaceAt address).run l)
      ((right.services.marketplaceAt address).run r))
    (htake : ∀ answer other mid,
      (left.services.marketplaceAt address).run l = (.ok answer, mid) →
      found answer other → answer = other ∧ ∀ marketplace ∈ answer,
        Call.Agree like same (takeIn marketplace) (handed marketplace))
    (hfinish : ∀ marketplace one other, same one other →
      Call.Agree like ready (left.finish address marketplace one)
        (right.finish address marketplace other)) :
    Call.SameEnd like ready ((left.prepare takeIn address).run l)
      ((right.prepare handed address).run r) := by
  refine hfind.bind fun answer other mid hrun hfound => ?_
  obtain ⟨rfl, htaken⟩ := htake answer other mid hrun hfound
  cases answer with
  | none => exact .throw _
  | some marketplace =>
      exact .bind (htaken marketplace rfl) fun one other hsame =>
        hfinish marketplace one other hsame

end MarketReplay.Replayer
