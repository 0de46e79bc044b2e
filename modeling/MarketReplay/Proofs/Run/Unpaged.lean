/-
A replay without pages.

`Replayer.rebuildFrom` is a replay that is handed its event sets: it reads no
log, and so has no page size. `rebuild_agree` says that a replay of a log is
this replay of the sets that the log's pages are dealt out in, as far as
anyone can tell who does not count pages: it ends in the same way, in a world
like the one the other ends in, and the reports differ at most in the pages
and events read (`Report.unpaged`). If an event that belongs to another's key
shares its time, the sets are the grouping of the log (`run_agree`), whatever
its pages.

The two are compared call by call, in the manner of `Call.Agree`, for
services that cannot tell worlds apart (`Services.Blind`); only the reading
of the log (`readLog_agree`) has calls on one side that the other lacks.
-/
import MarketReplay.Proofs.Run.Completed

namespace MarketReplay

-- ================================================ forgetting the pages

/-- The tally without what counts pages; so for progress, reports and outcomes
below. -/
def Tally.unpaged (tally : Tally) : Tally :=
  { tally with pagesFetched := 0, eventsRead := 0 }

def Progress.unpaged (progress : Progress) : Progress :=
  { progress with tally := progress.tally.unpaged }

def Report.unpaged (report : Report) : Report :=
  { report with toTally := report.toTally.unpaged }

def Outcome.unpaged : Outcome → Outcome
  | completed report => completed report.unpaged
  | alreadyRunning => alreadyRunning
  | failed error => failed error

@[simp] theorem Outcome.isCompleted_unpaged (outcome : Outcome) :
    outcome.unpaged.isCompleted = outcome.isCompleted := by
  cases outcome <;> rfl

/-- A completed run has a report. -/
theorem Outcome.exists_of_isCompleted {σ : Type} {ran : Outcome × Host σ}
    (h : ran.1.isCompleted = true) :
    ∃ report after, ran = (.completed report, after) := by
  obtain ⟨outcome, after⟩ := ran
  cases outcome with
  | completed report => exact ⟨report, after, rfl⟩
  | alreadyRunning => cases h
  | failed error => cases h

/-- A failure names no pages, and can be told from the outcome without them. -/
theorem Outcome.eq_failed_of_unpaged {outcome : Outcome} {error : RunError}
    (h : outcome.unpaged = .failed error) : outcome = .failed error := by
  cases outcome with
  | failed other => exact h
  | completed report => cases h
  | alreadyRunning => cases h

/-- The end of a call as the end of a run. -/
def Outcome.ofResult : Except RunError Report → Outcome
  | .ok report => completed report
  | .error error => failed error

namespace Replayer

variable {σ : Type} {replayer : Replayer σ} {log : EventLog} {like : σ → σ → Prop}

-- ============================================================ one set

/-- A dispatch asks for a token at most, and no page. -/
theorem dispatch_agree (h : replayer.services.BlindReading log like) (book : Book)
    (summary : ActionSummary) :
    Call.Agree like Eq (replayer.dispatch book summary)
      (replayer.dispatch book summary) := by
  unfold dispatch Config.resolve
  refine .bind_eq ?_ fun payment => .liftM _
  cases replayer.config.quote book summary with
  | settled payment => exact .pure rfl
  | inToken identifier nonce =>
      exact .bind_eq (h.token identifier) fun token => .pure rfl

/-- Progress that differs at most in what counts pages. -/
def SameWork (left right : Progress) : Prop := left.unpaged = right.unpaged

/-- One set is taken in the same, however many pages and events were read
before. -/
theorem dispatchSet_agree (h : replayer.services.BlindReading log like)
    {left right : Progress} (hsame : SameWork left right)
    (set : List Event) :
    Call.Agree like SameWork (replayer.dispatchSet left set)
      (replayer.dispatchSet right set) := by
  have hskip : SameWork left.skipSet right.skipSet :=
    congrArg Progress.skipSet hsame
  have htake : ∀ book count,
      SameWork (left.takeSet book count) (right.takeSet book count) :=
    fun book count => congrArg (Progress.takeSet · book count) hsame
  obtain ⟨book, counted⟩ := left
  obtain ⟨_, counts⟩ := right
  obtain rfl : book = _ := (Progress.mk.inj hsame).1
  unfold dispatchSet
  refine .bind (.of_modify fun l r => h.observe set) fun _ _ _ => ?_
  dsimp only
  cases EventSet.summarize book.marketplace set with
  | error e =>
      cases e with
      | unknownAction identifier txHash => exact .throw _
      | decode identifier txHash cause => exact .pure hskip
  | ok summaries =>
      cases summaries with
      | nil => exact .pure hskip
      | cons summary summaries =>
          refine .bind_eq (.foldlM ?_ _ rfl) fun book => .pure (htake book _)
          rintro book _ action rfl
          exact dispatch_agree h book action

/-- Sets are taken in the same, by induction on the sets. -/
theorem dispatchSets_agree (h : replayer.services.BlindReading log like)
    (sets : List (List Event)) {left right : Progress}
    (hsame : SameWork left right) :
    Call.Agree like SameWork (sets.foldlM replayer.dispatchSet left)
      (sets.foldlM replayer.dispatchSet right) :=
  .foldlM (fun _ _ set hsame => dispatchSet_agree h hsame set) sets hsame

-- ============================================================ the log

/-- Some events wait, and the work is the same. -/
def SameWait (wait : List Event) (left : List Event × Progress)
    (right : Progress) : Prop :=
  left.1 = wait ∧ SameWork left.2 right

/-- Processing a buffer is dispatching the sets that leave it. -/
theorem process_agree (h : replayer.services.BlindReading log like) (final : Bool)
    (buffer : List Event) {left right : Progress}
    (hsame : SameWork left right) :
    Call.Agree like (SameWait (EventSet.split final buffer).2)
      (replayer.process final buffer left)
      ((EventSet.split final buffer).1.foldlM replayer.dispatchSet right) :=
  .then_pure (dispatchSets_agree h _ hsame) fun _ _ hwork => ⟨rfl, hwork⟩

/-- Asking for a page is a turn of the pager, and leaves a like world. -/
theorem next_run (h : replayer.services.BlindReading log like) (pager : Pager)
    (l r : σ) (hlike : like l r) :
    ∃ later, (pager.next replayer.services.events.events).run l
      = (.ok (pager.turn log), later) ∧ like later r := by
  unfold Pager.next Pager.turn
  cases pager.request? with
  | none => exact ⟨l, rfl, hlike⟩
  | some request =>
      obtain ⟨later, hpage, hlater⟩ := h.page request hlike
      exact ⟨later, by rw [Call.run_bind_ok hpage]; rfl, hlater⟩

/-- Reading a log takes in the sets that leave the buffer while its pages
arrive, and which pages these are depends on the log only. -/
theorem readLog_agree (h : replayer.services.BlindReading log like)
    {pager : Pager} {unread : List Event} (hstands : pager.Stands log unread) :
    ∃ texts : List (List Event), texts.flatten = unread
      ∧ ∀ pages, unread.length < pages →
        ∀ carry left right, SameWork left right →
          Call.Agree like (SameWait (EventSet.gather carry texts).2)
            (replayer.readLog pages pager carry left)
            ((EventSet.gather carry texts).1.foldlM replayer.dispatchSet
              right) := by
  -- every full page leaves fewer events unread
  induction hlen : unread.length using Nat.strongRecOn
    generalizing pager unread with
  | ind len ih =>
      subst hlen
      rcases hstands.turn with ⟨-, hturn⟩ |
        ⟨safe, unseen, rfl, hne, -, hpage, hbehind⟩
      · -- the last page holds everything that was unread
        refine ⟨[unread], List.flatten_singleton, ?_⟩
        intro pages hpages carry left right hsame
        obtain ⟨pages, rfl⟩ := Nat.exists_eq_add_one_of_ne_zero
          (Nat.ne_zero_of_lt hpages)
        have hcount : SameWork (left.countPage unread.length) right := hsame
        unfold readLog
        rw [EventSet.gather_singleton]
        refine .after _ (next_run h pager) ?_
        rw [hturn]
        exact .then_pure (process_agree h false _ hcount) fun _ _ hwait =>
          hwait
      · have hspent := List.length_pos_iff.2 hne
        rw [List.length_append] at ih ⊢
        obtain ⟨texts, hflat, hrest⟩ :=
          ih unseen.length (by omega) hbehind rfl
        refine ⟨safe :: texts, by rw [List.flatten_cons, hflat], ?_⟩
        intro pages hpages carry left right hsame
        obtain ⟨pages, rfl⟩ := Nat.exists_eq_add_one_of_ne_zero
          (Nat.ne_zero_of_lt hpages)
        have hcount : SameWork (left.countPage pager.pageSize) right := hsame
        unfold readLog
        refine .after _ (next_run h pager) ?_
        dsimp only
        rw [hpage, EventSet.gather, List.foldlM_append]
        refine .bind (process_agree h false _ hcount) ?_
        rintro ⟨rest, reached⟩ next ⟨rfl, hwork⟩
        exact hrest pages (by omega) _ reached next hwork

/-- Replaying a log takes in the sets that its pages are dealt out in, and
these pages depend on the log only. -/
theorem replay_agree (h : replayer.services.BlindReading log like)
    (address : String) :
    ∃ texts : List (List Event), texts.flatten = log.ascending address 0
      ∧ ∀ marketplace : Marketplace, marketplace.address = address →
        Call.Agree like SameWork (replayer.replay marketplace)
          ((EventSet.deal texts).foldlM replayer.dispatchSet
            ⟨.empty marketplace, .zero⟩) := by
  obtain ⟨texts, hflat, hread⟩ := readLog_agree h
    (Pager.stands_start log address replayer.config.pageSize)
  refine ⟨texts, hflat, ?_⟩
  rintro marketplace rfl l r hlike
  unfold replay
  -- the bound on the pages is read from the world, so this step has no fellow
  rw [Call.run_bind_ok (Call.run_get l)]
  have hlen := log.length_ascending_le marketplace.address 0
  have hpages := Nat.lt_succ_of_le (Nat.le_trans hlen (h.bound hlike))
  unfold EventSet.deal
  rw [List.foldlM_append]
  refine Call.Agree.bind (hread _ hpages [] _ _ rfl) ?_ l r hlike
  rintro ⟨carry, reached⟩ next ⟨rfl, hwork⟩
  -- at the end nothing waits, so nothing is counted as dropped
  refine .then_pure (process_agree h true _ hwork) ?_
  rintro ⟨left, last⟩ done ⟨rfl, hdone⟩
  rw [EventSet.split_true]
  exact hdone

-- ======================================================== after the log

/-- Filling tags in asks for no page. -/
theorem backfill_agree (h : replayer.services.BlindReading log like) (book : Book) :
    Call.Agree like Eq (replayer.backfill book) (replayer.backfill book) := by
  unfold backfill
  exact .bind_eq (.mapM (fun request => h.tagsOf request 0) _) fun answers =>
    .pure rfl

/-- Storing asks for no page. -/
theorem persist_agree (h : replayer.services.Blind log like) (book : Book) :
    Call.Agree like Eq (replayer.persist book) (replayer.persist book) := by
  unfold persist
  refine .bind_eq (h.saveAuctions _) fun ids => ?_
  dsimp only
  split
  · exact .bind_eq (.throw _) fun _ => .bind_eq (.liftM _) fun orders =>
      .bind_eq (h.saveOrders orders) fun _ => h.saveOffers _
  · exact .bind_eq (.liftM _) fun orders =>
      .bind_eq (h.saveOrders orders) fun _ => h.saveOffers _

/-- Reports that differ at most in what counts pages. -/
def SameReport (left right : Report) : Prop := left.unpaged = right.unpaged

/-- Such reports, with the same book. -/
def SameReady (left right : Report × Book) : Prop :=
  SameReport left.1 right.1 ∧ left.2 = right.2

/-- From the same work, two replays finish with the same book, and reports that
differ in the pages at most. -/
theorem finish_agree (h : replayer.services.BlindReading log like)
    (address : String) (marketplace : Marketplace) {left right : Progress}
    (hsame : SameWork left right) :
    Call.Agree like SameReady (replayer.finish address marketplace left)
      (replayer.finish address marketplace right) := by
  obtain ⟨book, counted⟩ := left
  obtain ⟨_, counts⟩ := right
  obtain ⟨hbook, htally⟩ := Progress.mk.inj hsame
  obtain rfl : book = _ := hbook
  unfold finish
  refine .bind .get fun l r hlike => ?_
  rw [h.now hlike]
  refine .bind_eq (backfill_agree h _) fun filled => .pure ⟨?_, rfl⟩
  unfold SameReport Report.unpaged
  rw [htally]

-- ======================================================= the whole run

section
variable {takeIn handed : Marketplace → Call σ Progress} {address : String}
  {left right : σ} (hlike : like left right)
  (htake : ∀ marketplace found,
    (replayer.services.marketplaceAt address).run left
      = (.ok (some marketplace), found) → marketplace.address = address →
    Call.Agree like SameWork (takeIn marketplace) (handed marketplace))
include hlike htake

/-- Replays that take in the same are ready with the same; what is stored has
no say in it. -/
theorem ready_sameEnd (h : replayer.services.BlindReading log like) :
    Call.SameEnd like SameReady ((replayer.prepare takeIn address).run left)
      ((replayer.prepare handed address).run right) := by
  refine prepare_sameEnd (h.marketplaceAt address left right hlike) ?_
    fun marketplace one other hsame => finish_agree h address marketplace hsame
  rintro answer _ mid hrun ⟨rfl, haddress⟩
  refine ⟨rfl, ?_⟩
  rintro marketplace rfl
  exact htake marketplace mid hrun (haddress marketplace rfl)

/-- And they end alike, if the sink cannot tell them apart either. -/
theorem complete_sameEnd (h : replayer.services.Blind log like) :
    Call.SameEnd like SameReport ((replayer.complete takeIn address).run left)
      ((replayer.complete handed address).run right) := by
  refine (ready_sameEnd hlike htake h.toBlindReading).bind ?_
  rintro ⟨report, book⟩ ⟨other, _⟩ - - ⟨hreport, rfl⟩
  exact .bind_eq (persist_agree h book) fun _ => .pure hreport

end

/-- A replay of a log is the replay that is handed its sets. -/
theorem rebuild_agree (h : replayer.services.Blind log like)
    (address : String) :
    ∃ texts : List (List Event), texts.flatten = log.ascending address 0
      ∧ Call.Agree like SameReport (replayer.rebuild address)
        (replayer.rebuildFrom (EventSet.deal texts) address) := by
  obtain ⟨texts, hflat, hreplay⟩ := replay_agree h.toBlindReading address
  refine ⟨texts, hflat, fun left right hlike => ?_⟩
  rw [rebuild_eq]
  exact complete_sameEnd hlike (fun marketplace _ _ => hreplay marketplace) h

/-- A call under the lock of an address. -/
def guarded (replayer : Replayer σ) (call : Call σ Report) (address : String)
    (host : Host σ) : Outcome × Host σ :=
  match host.locks.tryAcquire address (replayer.services.lockTime host.world) with
  | none => (.alreadyRunning, host)
  | some (guard, locks) =>
      let (result, world) := call.run host.world
      (.ofResult result, ⟨locks.release guard, world⟩)

/-- A run is the rebuilding of a marketplace under its lock. -/
theorem run_eq (address : String) (host : Host σ) :
    replayer.run address host
      = replayer.guarded (replayer.rebuild address) address host := rfl

/-- Under a lock that is free, a call ends as it ends without. -/
theorem guarded_of_free (replayer : Replayer σ) {address : String}
    (host : Host σ) (hfree : host.locks.isLocked address = false) {call : Call σ Report}
    {result : Except RunError Report} {world : σ}
    (hrun : call.run host.world = (result, world)) :
    (replayer.guarded call address host).1 = .ofResult result
      ∧ (replayer.guarded call address host).2.world = world := by
  unfold guarded Locks.tryAcquire
  rw [hfree, if_neg Bool.false_ne_true]
  dsimp only
  rw [hrun]
  exact ⟨rfl, rfl⟩

/-- Under a lock that is held, no call is made. -/
theorem guarded_of_locked {address : String} {host : Host σ}
    (hlocked : host.locks.isLocked address = true) {call : Call σ Report} :
    replayer.guarded call address host = (.alreadyRunning, host) := by
  unfold guarded Locks.tryAcquire
  rw [hlocked]
  rfl

/-- Under the lock, calls that end in the same way do so still, whenever each
of them takes it. -/
theorem guarded_agree (replayer : Replayer σ) {like : σ → σ → Prop}
    {left right : Call σ Report}
    {host other : Host σ} (hlocks : host.locks = other.locks)
    (hlike : like host.world other.world)
    (hend : Call.SameEnd like SameReport (left.run host.world)
      (right.run other.world)) (address : String) :
    (replayer.guarded left address host).1.unpaged
        = (replayer.guarded right address other).1.unpaged
      ∧ like (replayer.guarded left address host).2.world
        (replayer.guarded right address other).2.world := by
  cases hfree : host.locks.isLocked address with
  | true =>
      rw [guarded_of_locked hfree, guarded_of_locked (hlocks ▸ hfree)]
      exact ⟨rfl, hlike⟩
  | false =>
      have hother : other.locks.isLocked address = false := hlocks ▸ hfree
      cases hl : left.run host.world with
      | mk result world =>
          cases hr : right.run other.world with
          | mk result' later =>
              obtain ⟨hran, hworld⟩ := guarded_of_free replayer host hfree hl
              obtain ⟨hran', hworld'⟩ :=
                guarded_of_free replayer other hother hr
              rw [hran, hran', hworld, hworld']
              rw [hl, hr] at hend
              cases hend with
              | ok answers worlds =>
                  exact ⟨congrArg Outcome.completed answers, worlds⟩
              | error e worlds => exact ⟨rfl, worlds⟩

/-- A run that is handed its event sets. -/
def runFrom (replayer : Replayer σ) (sets : List (List Event))
    (address : String) (host : Host σ) : Outcome × Host σ :=
  replayer.guarded (replayer.rebuildFrom sets address) address host

/-- A run over a log is the run that is handed the sets of the log. -/
theorem run_agree_deal (h : replayer.services.Blind log like)
    (address : String) {host : Host σ} (hlike : like host.world host.world) :
    ∃ texts : List (List Event), texts.flatten = log.ascending address 0
      ∧ (replayer.run address host).1.unpaged
        = (replayer.runFrom (EventSet.deal texts) address host).1.unpaged
      ∧ like (replayer.run address host).2.world
        (replayer.runFrom (EventSet.deal texts) address host).2.world := by
  obtain ⟨texts, hflat, hagree⟩ := rebuild_agree h address
  exact ⟨texts, hflat,
    guarded_agree replayer rfl hlike (hagree _ _ hlike) address⟩

/-- Where an event that belongs to another's key shares its time, these are
the grouping of the log. -/
theorem run_agree (h : replayer.services.Blind log like) {address : String}
    {host : Host σ}
    (hsame : EventSet.SameTime (log.ascending address 0))
    (hlike : like host.world host.world) :
    let sets := EventSet.grouping (log.ascending address 0)
    (replayer.run address host).1.unpaged
        = (replayer.runFrom sets address host).1.unpaged
      ∧ like (replayer.run address host).2.world
        (replayer.runFrom sets address host).2.world := by
  obtain ⟨texts, hflat, hrun⟩ := run_agree_deal h address hlike
  rw [EventSet.deal_eq_grouping
    (hflat ▸ log.ascending_chronological address 0) (hflat ▸ hsame),
    hflat] at hrun
  exact hrun

end Replayer

-- ========================================================== an example

namespace Sample

/-- An event of another contract, before all others. -/
def early : Event := ⟨1, "early", none, "transfer", "elsewhere", []⟩

/-- An event that calls the marketplace. -/
def caller : Event := ⟨2, "caller", none, "transfer", "elsewhere", []⟩

/-- An event that the call emits: an offer is taken back. -/
def called : Event :=
  ⟨2, "called", some "caller", "withdrawOffer", "market",
    ["", "Qw==", "", "AQ=="]⟩

def market : Marketplace := ⟨"sample", "market", .internal, .byAuctionId⟩

/-- A memory in which the events are not stored in order of time. -/
def memory : Memory :=
  (Memory.empty.addMarketplace market).addEvents "market"
    [caller, early, called]

def sets : List (List Event) := [[early], [caller, called]]

def host : Host Memory := ⟨.empty, memory⟩

def replayer (pageSize : Nat) : Replayer Memory :=
  ⟨{ Config.standard with pageSize }, Memory.services, .standard⟩

/-- In the sample log, events that belong together have one time. -/
theorem sameTime : EventSet.SameTime (memory.log.eventsAt "market") := by
  unfold EventSet.SameTime
  decide

theorem ascending_eq :
    memory.log.ascending "market" 0 = [early, caller, called] := by
  have hstored : (memory.log.eventsAt "market").filter (0 ≤ ·.timestamp)
      = [caller, early, called] := rfl
  unfold EventLog.ascending
  rw [hstored]
  simp [List.mergeSort, List.MergeSort.Internal.splitInTwo, early, caller,
    called]

/-- The sample log has two event sets. -/
theorem grouping_eq :
    EventSet.grouping (memory.log.ascending "market" 0) = sets := by
  have hearly : [caller, called].filter (!·.belongsTo early.key)
      = [caller, called] := rfl
  have hcaller : [called].filter (!·.belongsTo caller.key) = [] := rfl
  rw [ascending_eq, EventSet.grouping_cons, hearly, EventSet.grouping_cons,
    hcaller, EventSet.grouping_nil]
  rfl

/-- Handed the sets, a replay takes both in and completes. -/
theorem isCompleted_runFrom (pageSize : Nat) :
    ((replayer pageSize).runFrom sets "market" host).1.isCompleted = true := by
  have hfind : ((replayer pageSize).services.marketplaceAt "market").run memory
      = (.ok (some market), memory) := rfl
  have hsets : (sets.foldlM (replayer pageSize).dispatchSet
        ⟨.empty market, .zero⟩).run memory
      = (.ok ⟨.empty market, ⟨0, 0, 1, 1, 1, 0⟩⟩,
        { memory with observed := sets }) := rfl
  have hfill : ((replayer pageSize).backfill (.empty market)).run
      { memory with observed := sets }
      = (.ok (0, .empty market), { memory with observed := sets }) := by
    unfold Replayer.backfill Book.tagRequests
    rw [show (Book.empty market).untagged = [] from rfl, pieces_nil]
    rfl
  let report : Report :=
    ⟨⟨0, 0, 1, 1, 1, 0⟩, "sample", "market", 0, 0, 0, ⟨0, 0, 0⟩, 0⟩
  have hprepare : ((replayer pageSize).prepare
        ((replayer pageSize).takeSets sets) "market").run memory
      = (.ok (report, .empty market), { memory with observed := sets }) := by
    refine (Replayer.run_prepare_ok hfind hsets).trans ?_
    refine (Call.run_bind_ok (Call.run_get _) _).trans ?_
    exact (Call.run_bind_ok hfill _).trans rfl
  have hrun : ((replayer pageSize).rebuildFrom sets "market").run memory
      = (.ok report, { memory with observed := sets }) :=
    (Call.run_bind_ok hprepare _).trans rfl
  rw [Replayer.runFrom, (Replayer.guarded_of_free _ host rfl hrun).1]
  rfl

/-- So does a replay that reads the log, in pages of any size. -/
theorem isCompleted_run (pageSize : Nat) :
    ((replayer pageSize).run "market" host).1.isCompleted = true := by
  have hblind : (replayer pageSize).services.Blind memory.log
      (Memory.Alike memory.log) := Memory.blind_services memory.log
  have hread : EventSet.SameTime (memory.log.ascending "market" 0) :=
    sameTime.subset fun e he => ((memory.log.mem_ascending "market" 0).1 he).1
  have hlike : Memory.Alike memory.log host.world host.world :=
    ⟨rfl, memory.pageRequests, rfl⟩
  obtain ⟨hagree, -⟩ := Replayer.run_agree hblind hread hlike
  rw [← Outcome.isCompleted_unpaged, hagree, grouping_eq,
    Outcome.isCompleted_unpaged]
  exact isCompleted_runFrom pageSize

/-- The sample replay completes, for any page size. -/
theorem exists_completed (pageSize : Nat) :
    ∃ report after, (replayer pageSize).run "market" host
      = (.completed report, after) :=
  Outcome.exists_of_isCompleted (isCompleted_run pageSize)

end Sample

end MarketReplay
