/-
What ends a replay, and what does not.

Where no service fails, one thing can end a replay early: the marketplace
emits an event outside the vocabulary (`EventSet.isSkewed`). The set that the
event is in says so whatever else it holds, because the reading of a set looks
for such an event before it looks at any topic. Everything else is taken in
or skipped (`answers_dispatchSet`), and what comes after the log cannot fail
on a book that was built this way (`answers_finish`): every kind has its
handler, and every order its auction.

Each event from time zero on is in some set, and none of them is in two, so a
run completes exactly if there is no such event (`Replayer.run_skew`). How the
log is cut into pages, and which events are grouped together, has no say in
it; it decides only which of several such events is met first.
-/
import MarketReplay.Proofs.EventSet.Dealing
import MarketReplay.Proofs.Run.Storing
import MarketReplay.Proofs.Run.Unpaged

namespace MarketReplay

-- ============================================================= one set

namespace EventSet

variable (marketplace : Marketplace)

/-- Does the marketplace emit the event, outside the vocabulary? -/
def isSkewed (event : Event) : Bool :=
  event.address == marketplace.address && classOf event == .unknown

/-- The set reports the first of its events that are outside the vocabulary. -/
theorem firstUnknown?_eq (set : List Event) :
    firstUnknown? marketplace set = set.find? (isSkewed marketplace) := by
  unfold firstUnknown? ownLogs
  rw [List.find?_filter]
  refine congrArg (List.find? · set) (funext fun event => ?_)
  rw [Bool.eq_iff_iff]
  simp [isSkewed]

variable {marketplace} {set : List Event}

/-- Malformed topics are another matter than an unknown action. -/
theorem summarize_ne_unknownAction
    (h : ∀ e ∈ set, isSkewed marketplace e = false)
    (identifier txHash : String) :
    summarize marketplace set ≠ .error (.unknownAction identifier txHash) := by
  intro herror
  unfold summarize at herror
  cases set with
  | nil => cases herror
  | cons head tail =>
      have hnone : (head :: tail).find? (isSkewed marketplace) = none := by
        rw [List.find?_eq_none]
        intro e he
        rw [h e he]
        exact Bool.false_ne_true
      dsimp only at herror
      rw [firstUnknown?_eq, hnone] at herror
      obtain ⟨log, -, hlog⟩ := exists_of_mapM_error herror
      unfold summarizeLog at hlog
      cases hread : Layout.read ⟨log.1.topics⟩ log.2 <;>
        rw [hread] at hlog <;> cases hlog

/-- An unknown action is named whatever else the set holds. -/
theorem summarize_of_skewed {head unknown : Event}
    (hhead : set.head? = some head)
    (h : set.find? (isSkewed marketplace) = some unknown) :
    summarize marketplace set
      = .error (.unknownAction unknown.identifier head.txHash) := by
  cases set with
  | nil => cases hhead
  | cons first tail =>
      cases hhead
      unfold summarize
      dsimp only
      rw [firstUnknown?_eq, h]

end EventSet

-- ============================================================ the services

/-- No service but the event store ever fails. -/
structure Services.Obliging {σ : Type} (services : Services σ) : Prop
    extends services.Accepts where
  token : ∀ identifier, Call.Answers (services.token identifier)
  tagsOf : ∀ request offset, Call.Answers (services.tagsOf request offset)

namespace Memory

variable (token : List Token → String → Option Token)
  (tagsOf : List TokenTags → List String → Nat → List TokenTags)

/-- Services in memory that answer for tokens and tags by some functions, and
never fail. -/
def obligingServices : Services Memory :=
  servicesBy (fun tokens identifier => .ok (token tokens identifier))
    fun tags request offset => .ok (tagsOf tags request offset)

/-- Services that never fail keep the contract with the log. -/
theorem overLog_obliging : (obligingServices token tagsOf).OverLog scene :=
  overLog_servicesBy (fun tokens identifier => .ok (token tokens identifier))
    fun tags request offset => .ok (tagsOf tags request offset)

/-- Services that never fail store in memory. -/
theorem storesIn_obliging :
    (obligingServices token tagsOf).StoresIn Memory.tables :=
  storesIn_servicesBy (fun tokens identifier => .ok (token tokens identifier))
    fun tags request offset => .ok (tagsOf tags request offset)

/-- Services that never fail do not notice which pages are asked for. -/
theorem blind_obliging (log : EventLog) :
    (obligingServices token tagsOf).Blind log (Alike log) :=
  blind_servicesBy (fun tokens identifier => .ok (token tokens identifier))
    (fun tags request offset => .ok (tagsOf tags request offset)) log

/-- These services answer every call. -/
theorem obliging : (obligingServices token tagsOf).Obliging where
  toAccepts := accepts_servicesBy
    (fun tokens identifier => .ok (token tokens identifier))
    fun tags request offset => .ok (tagsOf tags request offset)
  token identifier world := ⟨_, _, run_token _ _ identifier world⟩
  tagsOf request offset world := ⟨_, _, run_tagsOf _ _ request offset world⟩

end Memory

namespace Replayer

variable {σ : Type} {replayer : Replayer σ} {scene : σ → Scene}

-- ============================================================ the sets

/-- A dispatch answers, if the token service does: every kind has its handler.
-/
theorem answers_dispatch
    (htoken : ∀ identifier, Call.Answers (replayer.services.token identifier))
    (hstandard : replayer.handlers = .standard) (book : Book)
    (summary : ActionSummary) :
    Call.Answers (replayer.dispatch book summary) := by
  unfold dispatch Config.resolve
  refine .bind ?_ fun payment => ?_
  · cases replayer.config.quote book summary with
    | settled payment => exact .pure payment
    | inToken identifier nonce => exact .bind (htoken identifier) fun _ => .pure _
  · rw [hstandard, Registry.dispatch_standard]
    exact .liftM _

/-- A set without an unknown action is taken in or skipped. -/
theorem answers_dispatchSet
    (htoken : ∀ identifier, Call.Answers (replayer.services.token identifier))
    (hstandard : replayer.handlers = .standard) {progress : Progress}
    {set : List Event}
    (hset : ∀ e ∈ set,
      EventSet.isSkewed progress.book.marketplace e = false) :
    Call.Answers (replayer.dispatchSet progress set) := by
  unfold dispatchSet
  refine .bind (fun world => ⟨_, _, rfl⟩) fun _ => ?_
  dsimp only
  split
  next identifier txHash heq =>
    exact absurd heq (EventSet.summarize_ne_unknownAction hset _ _)
  next => exact .pure _
  next => exact .pure _
  next summaries _ _ =>
    refine .bind (.foldlM ?_ summaries _) fun book => .pure _
    exact answers_dispatch htoken hstandard

/-- One with an unknown action ends the replay, and is shown. -/
theorem dispatchSet_of_skewed (replayer : Replayer σ) {progress : Progress}
    {set : List Event}
    {head unknown : Event} (hhead : set.head? = some head)
    (hset : set.find? (EventSet.isSkewed progress.book.marketplace)
      = some unknown) (world : σ) :
    (replayer.dispatchSet progress set).run world
      = (.error (.unsupportedAction unknown.identifier head.txHash),
        replayer.services.observe set world) := by
  unfold dispatchSet
  rw [Call.run_bind_ok (Call.run_modify _ world)]
  dsimp only
  rw [EventSet.summarize_of_skewed hhead hset]
  rfl

/-- Some sets are without unknown actions, and then there is a set with
one. -/
structure MeetsSkew (marketplace : Marketplace) (known : List (List Event))
    (set : List Event) (head unknown : Event) : Prop where
  known : ∀ e ∈ known.flatten, EventSet.isSkewed marketplace e = false
  head : set.head? = some head
  unknown : set.find? (EventSet.isSkewed marketplace) = some unknown

/-- Sets are all taken in, or the first of them with an event outside the
vocabulary ends it all. -/
theorem dispatchSets_ends (hlog : replayer.services.OverLog scene)
    (htoken : ∀ identifier, Call.Answers (replayer.services.token identifier))
    (hstandard : replayer.handlers = .standard) {sets : List (List Event)}
    (hsets : ∀ set ∈ sets, set ≠ []) (progress : Progress) (world : σ) :
    let marketplace := progress.book.marketplace
    let ran := (sets.foldlM replayer.dispatchSet progress).run world
    ((∀ e ∈ sets.flatten, EventSet.isSkewed marketplace e = false)
        ∧ ∃ after later, ran = (.ok after, later))
      ∨ ∃ known set head unknown later,
        MeetsSkew marketplace known set head unknown
          ∧ known ++ [set] <+: sets
          ∧ ran = (.error (.unsupportedAction unknown.identifier head.txHash),
            later)
          ∧ scene later = (scene world).show (known ++ [set]) := by
  induction sets generalizing progress world with
  | nil => exact .inl ⟨by simp, progress, world, rfl⟩
  | cons set sets ih =>
      obtain ⟨hne, hrest⟩ := List.forall_mem_cons.1 hsets
      intro marketplace ran
      cases hfind : set.find? (EventSet.isSkewed marketplace) with
      | some unknown =>
          obtain ⟨head, hhead⟩ := Option.ne_none_iff_exists'.1
            (mt List.head?_eq_none_iff.1 hne)
          -- the set ends the run, after it was shown
          have hrun := dispatchSet_of_skewed replayer hhead hfind world
          refine .inr ⟨[], set, head, unknown, _, ⟨by simp, hhead, hfind⟩,
            List.prefix_append [set] sets, ?_, hlog.observe set world⟩
          exact Call.run_bind_error hrun _
      | none =>
          have hknown : ∀ e ∈ set, EventSet.isSkewed marketplace e = false :=
            fun e he => Bool.eq_false_iff.2 (List.find?_eq_none.1 hfind e he)
          -- the set is taken in, and the sets behind it decide
          obtain ⟨next, mid, hrun⟩ :=
            answers_dispatchSet htoken hstandard hknown world
          have hran : ran
              = (sets.foldlM replayer.dispatchSet next).run mid :=
            Call.run_bind_ok hrun _
          have hmarket : next.book.marketplace = marketplace :=
            (of_dispatchSet hrun).marketplace_eq
              (hstandard ▸ Registry.orderly_standard)
          have hmid := (shows_dispatchSet hlog progress set).of_run hrun
          rcases ih hrest next mid with ⟨hall, hanswer⟩ |
            ⟨known, bad, head, unknown, later, hskew, hpart, herror, hlater⟩
          · rw [hmarket] at hall
            refine .inl ⟨fun e he => ?_, hran ▸ hanswer⟩
            rw [List.flatten_cons, List.mem_append] at he
            exact he.elim (hknown e) (hall e)
          · rw [hmarket] at hskew
            refine .inr ⟨set :: known, bad, head, unknown, later,
              ⟨fun e he => ?_, hskew.head, hskew.unknown⟩,
              (List.cons_prefix_cons.2 ⟨rfl, hpart⟩), hran ▸ herror, ?_⟩
            · rw [List.flatten_cons, List.mem_append] at he
              exact he.elim (hknown e) (hskew.known e)
            · rw [hlater, hmid, Scene.show_show]
              rfl

-- ======================================================== after the log

/-- Filling tags in answers, if the tag service does. -/
theorem answers_backfill (h : replayer.services.Obliging) (book : Book) :
    Call.Answers (replayer.backfill book) := by
  unfold backfill
  exact .bind (.mapM (fun request => h.tagsOf request 0) _) fun _ => .pure _

/-- A book is swept and filled in. -/
theorem answers_finish (h : replayer.services.Obliging) (address : String)
    (marketplace : Marketplace) (progress : Progress) :
    Call.Answers (replayer.finish address marketplace progress) := by
  unfold finish
  exact .bind (fun world => ⟨world, world, rfl⟩) fun world =>
    .bind (answers_backfill h _) fun filled => .pure _

/-- Taken in, a log with a sound book ends in a report. -/
theorem complete_answers (h : replayer.services.Obliging)
    {takeIn : Marketplace → Call σ Progress} {address : String}
    {marketplace : Marketplace} {progress : Progress} {world found taken : σ}
    (hfind : (replayer.services.marketplaceAt address).run world
      = (.ok (some marketplace), found))
    (htake : (takeIn marketplace).run found = (.ok progress, taken))
    (hsound : progress.book.roster.Sound) :
    ∃ report later,
      (replayer.complete takeIn address).run world = (.ok report, later) := by
  obtain ⟨⟨report, book⟩, finished, hfinish⟩ :=
    answers_finish h address marketplace progress taken
  have hbook : book.roster = progress.book.roster := roster_of_finish hfinish
  obtain ⟨⟨⟩, later, hstore⟩ :=
    answers_persist h.toAccepts (hbook ▸ hsound) finished
  have hprepare := (run_prepare_ok hfind htake).trans hfinish
  refine ⟨report, later, ?_⟩
  unfold complete
  rw [Call.run_bind_ok hprepare]
  exact (Call.run_bind_ok hstore _).trans rfl

-- ======================================================= the whole run

/-- A run that is handed its sets completes, or it meets a set with an unknown
action and ends there, with the tables as they were. -/
theorem runFrom_ends {tables : σ → Tables}
    (hlog : replayer.services.OverLog scene)
    (hsink : replayer.services.StoresIn tables)
    (h : replayer.services.Obliging) (hstandard : replayer.handlers = .standard)
    {sets : List (List Event)} (hsets : ∀ set ∈ sets, set ≠ [])
    {address : String} {host : Host σ} {marketplace : Marketplace} {found : σ}
    (hfind : (replayer.services.marketplaceAt address).run host.world
      = (.ok (some marketplace), found))
    (hfree : host.locks.isLocked address = false) :
    let ran := replayer.runFrom sets address host
    ((∀ e ∈ sets.flatten, EventSet.isSkewed marketplace e = false)
        ∧ ran.1.isCompleted = true)
      ∨ ∃ known set head unknown,
        MeetsSkew marketplace known set head unknown
          ∧ known ++ [set] <+: sets
          ∧ ran.1
            = .failed (.unsupportedAction unknown.identifier head.txHash)
          ∧ scene ran.2.world = (scene host.world).show (known ++ [set])
          ∧ tables ran.2.world = tables host.world := by
  intro ran
  have hscene := (hlog.marketplaceAt address).of_run hfind
  have htables := (hsink.marketplaceAt address).of_run hfind
  let start : Progress := ⟨.empty marketplace, .zero⟩
  rcases dispatchSets_ends hlog h.token hstandard hsets start found with
    ⟨hknown, progress, later, hrun⟩ |
    ⟨known, set, head, unknown, later, hskew, hpart, hrun, hlater⟩
  · have hreach := of_dispatchSets hrun
    have hsound : progress.book.roster.Sound :=
      hreach.roster_eq (hstandard ▸ Registry.builtIn_standard)
        ▸ EventSet.sound_rosterOf
    have htake : (replayer.takeSets sets marketplace).run found
        = (.ok progress, later) := hrun
    obtain ⟨report, last, hbuild⟩ := complete_answers h hfind htake hsound
    obtain ⟨houtcome, -⟩ := guarded_of_free replayer host hfree hbuild
    refine .inl ⟨hknown, ?_⟩
    exact congrArg Outcome.isCompleted houtcome
  · have hbuild : (replayer.rebuildFrom sets address).run host.world
        = (.error (.unsupportedAction unknown.identifier head.txHash), later) :=
      run_complete_error hfind hrun
    obtain ⟨houtcome, hworld⟩ :=
      guarded_of_free replayer host hfree hbuild
    refine .inr ⟨known, set, head, unknown, hskew, hpart, houtcome, ?_, ?_⟩
    · rw [← hscene, ← hlater]
      exact congrArg scene hworld
    · have hkeep : Call.Keeps tables
          (sets.foldlM replayer.dispatchSet start) :=
        .foldlM (keeps_dispatchSet hsink) _ _
      rw [← htables, ← hkeep.of_run hrun]
      exact congrArg tables hworld

/-- So does a run by services in memory that reads its sets from the log. -/
theorem run_ends (config : Config) (token : List Token → String → Option Token)
    (tagsOf : List TokenTags → List String → Nat → List TokenTags)
    (host : Host Memory) (address : String) {marketplace : Marketplace}
    (hfind : host.world.marketplaceAt? address = some marketplace)
    (hfree : host.locks.isLocked address = false) :
    let replayer : Replayer Memory :=
      ⟨config, Memory.obligingServices token tagsOf, .standard⟩
    let ran := replayer.run address host
    let events := (host.world.log.eventsAt address).filter (0 ≤ ·.timestamp)
    ((∀ e ∈ events, EventSet.isSkewed marketplace e = false)
        ∧ ran.1.isCompleted = true)
      ∨ ∃ known set head unknown,
        MeetsSkew marketplace known set head unknown
          ∧ (∀ e ∈ set, e ∈ events)
          ∧ ran.1
            = .failed (.unsupportedAction unknown.identifier head.txHash)
          ∧ ran.2.world.observed = host.world.observed ++ (known ++ [set])
          ∧ ran.2.world.tables = host.world.tables := by
  intro replayer ran events
  have hlike : Memory.Alike host.world.log host.world host.world :=
    ⟨rfl, host.world.pageRequests, rfl⟩
  have hblind : replayer.services.Blind host.world.log
      (Memory.Alike host.world.log) := Memory.blind_obliging token tagsOf _
  have hlog : replayer.services.OverLog Memory.scene :=
    Memory.overLog_obliging token tagsOf
  have hsink : replayer.services.StoresIn Memory.tables :=
    Memory.storesIn_obliging token tagsOf
  have hobliging : replayer.services.Obliging := Memory.obliging token tagsOf
  have hfound : (replayer.services.marketplaceAt address).run host.world
      = (.ok (some marketplace), host.world) := by
    rw [← hfind]
    rfl
  obtain ⟨texts, hflat, houtcome, hworld⟩ :=
    run_agree_deal hblind address hlike
  -- the sets hold the events from time zero on, and nothing else
  have hmem : ∀ e, e ∈ (EventSet.deal texts).flatten ↔ e ∈ events := by
    intro e
    rw [(EventSet.deal_perm texts).mem_iff, hflat,
      (host.world.log.ascending_perm address 0).mem_iff]
  rcases runFrom_ends hlog hsink hobliging rfl
      (fun _ => EventSet.ne_nil_of_mem_deal) hfound hfree with
    ⟨hknown, hcompleted⟩ |
    ⟨known, set, head, unknown, hskew, hpart, hfailed, hshown, hkept⟩
  · refine .inl ⟨fun e he => hknown e ((hmem e).2 he), ?_⟩
    rw [← Outcome.isCompleted_unpaged, houtcome, Outcome.isCompleted_unpaged]
    exact hcompleted
  · have hset : set ∈ EventSet.deal texts :=
      hpart.subset (List.mem_append_right _ List.mem_cons_self)
    have hread : ∀ e ∈ set, e ∈ events :=
      fun e he => (hmem e).1 (List.mem_flatten.2 ⟨set, hset, he⟩)
    refine .inr ⟨known, set, head, unknown, hskew, hread, ?_, ?_, ?_⟩
    · refine Outcome.eq_failed_of_unpaged (houtcome.trans ?_)
      rw [hfailed]
      rfl
    · exact hworld.observed_eq.trans (congrArg Scene.shown hshown)
    · exact hworld.tables_eq.trans hkept

/-- Where every event is within the vocabulary, a run completes. -/
theorem isCompleted_of_known (config : Config)
    (token : List Token → String → Option Token)
    (tagsOf : List TokenTags → List String → Nat → List TokenTags)
    (host : Host Memory) (address : String) {marketplace : Marketplace}
    (hfind : host.world.marketplaceAt? address = some marketplace)
    (hfree : host.locks.isLocked address = false)
    (hknown : ∀ e ∈ (host.world.log.eventsAt address).filter
      (0 ≤ ·.timestamp), EventSet.isSkewed marketplace e = false) :
    (Replayer.run ⟨config, Memory.obligingServices token tagsOf, .standard⟩
      address host).1.isCompleted = true := by
  rcases run_ends config token tagsOf host address hfind hfree with ⟨-, hcompleted⟩ |
    ⟨_, _, _, unknown, hskew, hread, -, -, -⟩
  · exact hcompleted
  · have hunknown := hread unknown (List.mem_of_find?_eq_some hskew.unknown)
    have hskewed := List.find?_some hskew.unknown
    rw [hknown unknown hunknown] at hskewed
    cases hskewed

end Replayer

/-- A run by services in memory that do not fail, over any log, for a
marketplace that is known, under a lock that is free. It completes exactly if
the marketplace emits no event from time zero on that is outside the
vocabulary. If it does emit one, the run names the first such event of the
first set that holds one, by the transaction of the set; it has shown that
set last, and leaves the tables as they were. -/
theorem Replayer.run_skew (config : Config)
    (token : List Token → String → Option Token)
    (tagsOf : List TokenTags → List String → Nat → List TokenTags)
    (host : Host Memory) (address : String) {marketplace : Marketplace}
    (hfind : host.world.marketplaceAt? address = some marketplace)
    (hfree : host.locks.isLocked address = false) :
    let replayer : Replayer Memory :=
      ⟨config, Memory.obligingServices token tagsOf, .standard⟩
    let ran := replayer.run address host
    (ran.1.isCompleted = true ↔ ∀ e ∈ host.world.log.eventsAt address,
        0 ≤ e.timestamp → e.address = marketplace.address →
          EventSet.classOf e ≠ .unknown)
      ∧ (ran.1.isCompleted = false → ∃ known set head unknown,
        ran.1 = .failed (.unsupportedAction unknown.identifier head.txHash)
          ∧ ran.2.world.observed = host.world.observed ++ (known ++ [set])
          ∧ (∀ e ∈ known.flatten, EventSet.isSkewed marketplace e = false)
          ∧ (∀ e ∈ set, e ∈ host.world.log.eventsAt address)
          ∧ set.head? = some head
          ∧ set.find? (EventSet.isSkewed marketplace) = some unknown
          ∧ ran.2.world.tables = host.world.tables) := by
  intro replayer ran
  have hclean : (∀ e ∈ host.world.log.eventsAt address, 0 ≤ e.timestamp →
      e.address = marketplace.address → EventSet.classOf e ≠ .unknown)
        ↔ ∀ e ∈ (host.world.log.eventsAt address).filter (0 ≤ ·.timestamp),
          EventSet.isSkewed marketplace e = false := by
    simp [EventSet.isSkewed]
  rw [hclean]
  rcases run_ends config token tagsOf host address hfind hfree with
    ⟨hknown, hcompleted⟩ |
    ⟨known, set, head, unknown, hskew, hread, hfailed, hshown, hkept⟩
  · refine ⟨iff_of_true hcompleted hknown, fun hnot => ?_⟩
    rw [hcompleted] at hnot
    cases hnot
  · have hnot : ran.1.isCompleted = false := congrArg Outcome.isCompleted hfailed
    refine ⟨iff_of_false (by rw [hnot]; exact Bool.false_ne_true) ?_, fun _ =>
      ⟨known, set, head, unknown, hfailed, hshown, hskew.known,
        fun e he => (List.mem_filter.1 (hread e he)).1, hskew.head,
        hskew.unknown, hkept⟩⟩
    intro hall
    have hunknown := hread unknown (List.mem_of_find?_eq_some hskew.unknown)
    have hskewed := List.find?_some hskew.unknown
    rw [hall unknown hunknown] at hskewed
    cases hskewed

namespace Sample

/-- A listing without topics. -/
def garbled : Event := ⟨3, "novel", none, "listing", "market", []⟩

/-- An event of the same transaction that is not in the vocabulary. -/
def novel : Event := ⟨3, "novel", none, "fuse", "market", []⟩

def skewed : Host Memory :=
  ⟨.empty, (Memory.empty.addMarketplace market).addEvents "market"
    [garbled, novel]⟩

end Sample

/-- The unknown action is named, although it stands behind a malformed
listing. -/
theorem Replayer.run_skew_sample :
    let ran := Replayer.run ⟨Config.standard, Memory.obligingServices
      (fun _ _ => none) (fun _ _ _ => []), .standard⟩ "market" Sample.skewed
    ran.1 = .failed (.unsupportedAction "fuse" "novel")
      ∧ ran.2.world.tables = .empty := by
  intro ran
  have hfind : Sample.skewed.world.marketplaceAt? "market"
      = some Sample.market := rfl
  obtain ⟨hiff, hskew⟩ := Replayer.run_skew .standard (fun _ _ => none)
    (fun _ _ _ => []) Sample.skewed "market" hfind rfl
  have hnot : ran.1.isCompleted = false := by
    rw [← Bool.not_eq_true, hiff]
    exact fun hall => hall Sample.novel (by decide) (by decide) rfl rfl
  obtain ⟨known, set, head, unknown, hfailed, -, -, hread, hhead, hfind,
    htables⟩ := hskew hnot
  have hevents : ∀ e ∈ set, e = Sample.garbled ∨ e = Sample.novel := by
    intro e he
    have hmem : e ∈ [Sample.garbled, Sample.novel] := hread e he
    simpa using hmem
  have hunknown : unknown = Sample.novel := by
    rcases hevents unknown (List.mem_of_find?_eq_some hfind) with rfl | rfl
    · exact absurd (List.find?_some hfind) (by decide)
    · rfl
  have hhash : head.txHash = "novel" := by
    rcases hevents head (List.mem_of_mem_head? hhead) with rfl | rfl <;> rfl
  rw [hunknown, hhash] at hfailed
  exact ⟨hfailed, htables⟩

end MarketReplay
