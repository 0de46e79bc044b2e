/-
A set that is skipped has no influence.

An event set that reports nothing, or is malformed, leaves the book as it is
and is counted (`run_dispatchSet_of_skipped`). The count is never looked at
(`foldlM_skipSet`, `finish_skipSet`). So a replay that is handed such a set
among others ends as it does without the set, and its report has one set more
that was skipped (`rebuildFrom_without`). A log without the events of a set is
a log of the other sets (`EventSet.grouping_without`), so this holds of two
runs over these logs too, though they read other pages.
-/
import MarketReplay.Proofs.EventSet.Removal
import MarketReplay.Proofs.Run.Unpaged

namespace MarketReplay

/-- The set reports nothing, or is malformed. -/
def EventSet.Skipped (marketplace : Marketplace) (set : List Event) : Prop :=
  summarize marketplace set = .ok []
    ∨ ∃ identifier txHash cause,
      summarize marketplace set = .error (.decode identifier txHash cause)

/-- The report with one more set that was skipped; so for outcomes below. -/
def Report.skipSet (report : Report) : Report :=
  { report with setsSkipped := report.setsSkipped + 1 }

def Outcome.skipSet : Outcome → Outcome
  | completed report => completed report.skipSet
  | alreadyRunning => alreadyRunning
  | failed error => failed error

theorem Outcome.unpaged_skipSet (outcome : Outcome) :
    outcome.skipSet.unpaged = outcome.unpaged.skipSet := by
  cases outcome <;> rfl

/-- One skipped set more or less does not make a run complete. -/
theorem Outcome.isCompleted_skipSet (outcome : Outcome) :
    outcome.skipSet.isCompleted = outcome.isCompleted := by
  cases outcome <;> rfl

/-- The outcome of a report that counts one skipped set more. -/
theorem Outcome.ofResult_map_skipSet (result : Except RunError Report) :
    ofResult (result.map Report.skipSet) = (ofResult result).skipSet := by
  cases result <;> rfl

namespace Replayer

variable {σ : Type} {replayer : Replayer σ} {log : EventLog}
  {like : σ → σ → Prop}

-- ============================================================= one set

/-- A skipped set is shown and counted, and that is all. -/
theorem run_dispatchSet_of_skipped {progress : Progress} {set : List Event}
    (h : EventSet.Skipped progress.book.marketplace set) (world : σ) :
    (replayer.dispatchSet progress set).run world
      = (.ok progress.skipSet, replayer.services.observe set world) := by
  unfold dispatchSet
  rw [Call.run_bind_ok (Call.run_modify _ world)]
  rcases h with hnone | ⟨identifier, txHash, cause, hdecode⟩
  · rw [hnone]
    rfl
  · rw [hdecode]
    rfl

/-- A set is taken in the same if one set more was skipped before. -/
theorem dispatchSet_skipSet (progress : Progress) (set : List Event) :
    replayer.dispatchSet progress.skipSet set
      = Progress.skipSet <$> replayer.dispatchSet progress set := by
  unfold dispatchSet
  rw [map_bind]
  refine bind_congr fun _ => ?_
  rw [show progress.skipSet.book.marketplace
    = progress.book.marketplace from rfl]
  cases EventSet.summarize progress.book.marketplace set with
  | error e => cases e <;> rfl
  | ok summaries =>
      cases summaries with
      | nil => rfl
      | cons summary summaries =>
          rw [map_bind]
          exact bind_congr fun book => rfl

/-- Sets are taken in the same if one set more was skipped before, by induction
on the sets. -/
theorem foldlM_skipSet (sets : List (List Event)) (progress : Progress) :
    sets.foldlM replayer.dispatchSet progress.skipSet
      = Progress.skipSet <$> sets.foldlM replayer.dispatchSet progress := by
  induction sets generalizing progress with
  | nil => rfl
  | cons set sets ih =>
      rw [List.foldlM_cons, List.foldlM_cons, dispatchSet_skipSet,
        bind_map_left, map_bind]
      exact bind_congr fun next => ih next

/-- A replay finishes the same if one set more was skipped, and its report
counts that set. -/
theorem finish_skipSet (address : String) (marketplace : Marketplace)
    (progress : Progress) :
    replayer.finish address marketplace progress.skipSet
      = Prod.map Report.skipSet id
        <$> replayer.finish address marketplace progress := by
  unfold finish
  simp only [map_bind]
  rfl

-- ============================================================ all sets

/-- Where one more set is counted as skipped, the report has one more. -/
theorem complete_skipSet (takeIn : Marketplace → Call σ Progress)
    (address : String) :
    replayer.complete (fun marketplace => Progress.skipSet <$> takeIn marketplace)
        address
      = Report.skipSet <$> replayer.complete takeIn address := by
  have hprepare : replayer.prepare
        (fun marketplace => Progress.skipSet <$> takeIn marketplace) address
      = Prod.map Report.skipSet id <$> replayer.prepare takeIn address := by
    unfold prepare
    rw [map_bind]
    refine bind_congr fun found => ?_
    cases found with
    | none => rfl
    | some marketplace =>
        dsimp only
        rw [bind_map_left, map_bind]
        exact bind_congr fun progress => finish_skipSet address marketplace progress
  unfold complete
  rw [hprepare, bind_map_left, map_bind]
  refine bind_congr fun ready => ?_
  rw [map_bind]
  rfl

section
variable (hhandlers : replayer.handlers.BuiltIn) {set : List Event}
  (hobserve : ∀ left right, like left right →
    like (replayer.services.observe set left) right)
include hhandlers hobserve

/-- Taking in a skipped set among others makes no difference but the count. -/
theorem takeSets_without (h : replayer.services.BlindReading log like)
    {marketplace : Marketplace} (hskipped : EventSet.Skipped marketplace set)
    (before behind : List (List Event)) :
    Call.Agree like SameWork
      (replayer.takeSets (before ++ set :: behind) marketplace)
      (Progress.skipSet
        <$> replayer.takeSets (before ++ behind) marketplace) := by
  have hleft : replayer.takeSets (before ++ set :: behind) marketplace
      = replayer.takeSets before marketplace >>= fun reached =>
        replayer.dispatchSet reached set
          >>= behind.foldlM replayer.dispatchSet := by
    unfold takeSets
    rw [List.foldlM_append]
    exact bind_congr fun reached => List.foldlM_cons
  have hright : Progress.skipSet
        <$> replayer.takeSets (before ++ behind) marketplace
      = replayer.takeSets before marketplace >>= fun reached =>
        behind.foldlM replayer.dispatchSet reached.skipSet := by
    unfold takeSets
    rw [List.foldlM_append, map_bind]
    exact bind_congr fun reached => (foldlM_skipSet behind reached).symm
  rw [hleft, hright]
  intro l r hlr
  refine (dispatchSets_agree h before rfl l r hlr).bind ?_
  intro reached other _ hreached hwork
  -- the book is still the one of the marketplace that the set is read for
  have hskip : EventSet.Skipped reached.book.marketplace set := by
    rw [(of_dispatchSets hreached).marketplace_eq hhandlers.orderly]
    exact hskipped
  exact .after reached.skipSet
    (fun world beside hworlds => ⟨_, run_dispatchSet_of_skipped hskip world,
      hobserve world beside hworlds⟩)
    (dispatchSets_agree h behind (congrArg Progress.skipSet hwork))

/-- So it is with a replay that is handed them. -/
theorem rebuildFrom_without (h : replayer.services.Blind log like)
    {address : String} {left right : σ} (hlike : like left right)
    (hskipped : ∀ marketplace later,
      (replayer.services.marketplaceAt address).run left
        = (.ok (some marketplace), later) →
      EventSet.Skipped marketplace set)
    (before behind : List (List Event)) :
    Call.SameEnd like SameReport
      ((replayer.rebuildFrom (before ++ set :: behind) address).run left)
      ((Report.skipSet
        <$> replayer.rebuildFrom (before ++ behind) address).run right) := by
  unfold rebuildFrom
  rw [← complete_skipSet]
  refine complete_sameEnd hlike (fun marketplace found hfind _ => ?_) h
  exact takeSets_without hhandlers hobserve h.toBlindReading
    (hskipped marketplace found hfind) before behind

end

/-- The lock does not look into the report. -/
theorem guarded_map_skipSet (replayer : Replayer σ) (call : Call σ Report)
    (address : String) (host : Host σ) :
    replayer.guarded (Report.skipSet <$> call) address host
      = ((replayer.guarded call address host).1.skipSet,
        (replayer.guarded call address host).2) := by
  unfold guarded
  cases host.locks.tryAcquire address
      (replayer.services.lockTime host.world) with
  | none => rfl
  | some taken =>
      rw [Call.run_map]
      cases call.run host.world with
      | mk result world =>
          exact congrArg (·, _) (Outcome.ofResult_map_skipSet result)

/-- So it is for a whole run. -/
theorem runFrom_without (h : replayer.services.Blind log like)
    (hhandlers : replayer.handlers.BuiltIn) {set : List Event}
    (hobserve : ∀ left right, like left right →
      like (replayer.services.observe set left) right)
    {address : String} (locks : Locks Int) {left right : σ}
    (hlike : like left right)
    (hskipped : ∀ marketplace later,
      (replayer.services.marketplaceAt address).run left
        = (.ok (some marketplace), later) →
      EventSet.Skipped marketplace set)
    (before behind : List (List Event)) :
    let ran := replayer.runFrom (before ++ set :: behind) address ⟨locks, left⟩
    let rest := replayer.runFrom (before ++ behind) address ⟨locks, right⟩
    ran.1.unpaged = rest.1.unpaged.skipSet
      ∧ like ran.2.world rest.2.world := by
  intro ran rest
  have hend := rebuildFrom_without hhandlers hobserve h hlike hskipped before
    behind
  have hrest : replayer.guarded
      (Report.skipSet <$> replayer.rebuildFrom (before ++ behind) address)
        address ⟨locks, right⟩ = (rest.1.skipSet, rest.2) :=
    guarded_map_skipSet replayer _ address ⟨locks, right⟩
  have hsame : (⟨locks, left⟩ : Host σ).locks
      = (⟨locks, right⟩ : Host σ).locks := rfl
  have hruns := guarded_agree replayer hsame hlike hend address
  rw [hrest, Outcome.unpaged_skipSet] at hruns
  exact hruns

end Replayer

-- =============================================================== memory

namespace Memory

/-- Two memories that differ at most in their logs, in the pages asked for and
in the sets seen. -/
def Beside (log : EventLog) (left right : Memory) : Prop :=
  left.log = log ∧ ∃ other requests observed,
    right = { left with log := other, pageRequests := requests, observed }

theorem Beside.tables_eq {log : EventLog} {left right : Memory}
    (h : Beside log left right) : left.tables = right.tables := by
  obtain ⟨-, other, requests, observed, rfl⟩ := h
  rfl

/-- The sets that were observed are not compared. -/
theorem Beside.observe {log : EventLog} {left right : Memory}
    (h : Beside log left right) (sets : List (List Event)) :
    Beside log { left with observed := left.observed ++ sets } right := by
  obtain ⟨hlog, other, requests, observed, rfl⟩ := h
  exact ⟨hlog, other, requests, observed, rfl⟩

/-- Services in memory do not notice which pages are asked for, nor which sets
were observed. -/
theorem blind_beside
    (token : List Token → String → Except RunError (Option Token))
    (tagsOf : List TokenTags → List String → Nat →
      Except RunError (List TokenTags)) (log : EventLog) :
    (servicesBy token tagsOf).Blind log (Beside log) where
  page := by
    rintro request left right ⟨rfl, other, requests, observed, rfl⟩
    exact ⟨_, rfl, rfl, other, requests, observed, rfl⟩
  bound := by
    rintro left right ⟨rfl, -⟩
    exact Nat.le_refl _
  now := by
    rintro left right ⟨-, other, requests, observed, rfl⟩
    rfl
  observe := by
    rintro set left right ⟨hlog, other, requests, observed, rfl⟩
    exact ⟨hlog, other, requests, observed ++ [set], rfl⟩
  marketplaceAt := by
    rintro address left right ⟨hlog, other, requests, observed, rfl⟩
    refine .ok ⟨rfl, fun marketplace hfind => ?_⟩
      ⟨hlog, other, requests, observed, rfl⟩
    exact address_of_marketplaceAt? hfind
  token := by
    rintro identifier left right ⟨hlog, other, requests, observed, rfl⟩
    rw [run_token, run_token]
    exact .of_like _ ⟨hlog, other, requests, observed, rfl⟩
  tagsOf := by
    rintro request offset left right ⟨hlog, other, requests, observed, rfl⟩
    rw [run_tagsOf, run_tagsOf]
    exact .of_like _ ⟨hlog, other, requests, observed, rfl⟩
  saveAuctions := by
    rintro auctions left right ⟨hlog, other, requests, observed, rfl⟩
    exact .ok rfl ⟨hlog, other, requests, observed, rfl⟩
  saveOrders := by
    rintro orders left right ⟨hlog, other, requests, observed, rfl⟩
    show Call.SameEnd _ _ ((sink.saveOrders orders).run _)
      ((sink.saveOrders orders).run _)
    rw [run_saveOrders, run_saveOrders]
    exact .of_like _ ⟨hlog, other, requests, observed, rfl⟩
  saveOffers := by
    rintro offers left right ⟨hlog, other, requests, observed, rfl⟩
    exact .ok rfl ⟨hlog, other, requests, observed, rfl⟩

/-- The memory with fewer events under an address. -/
def without (memory : Memory) (address : String) (events : List Event) :
    Memory :=
  { memory with log := memory.log.without address events }

end Memory

/-- Two runs by services in memory, with pages of any size, over a log in which
an event that belongs to another's key shares its time, and over the same log
without the events of one set of its grouping, where this set reports nothing
or is malformed. The other sets are grouped as before. The runs end in the same
way and leave the same tables behind, and the reports differ at most in the
pages and events read, and in the one set more that the first one skips. -/
theorem Replayer.run_without_skipped (config : Config)
    (token : List Token → String → Except RunError (Option Token))
    (tagsOf : List TokenTags → List String → Nat →
      Except RunError (List TokenTags))
    {handlers : Registry} (hhandlers : handlers.BuiltIn) (host : Host Memory)
    (address : String)
    (hsame : EventSet.SameTime (host.world.log.eventsAt address))
    {set : List Event}
    (hset : set ∈ EventSet.grouping (host.world.log.ascending address 0))
    (hskipped : ∀ marketplace,
      host.world.marketplaceAt? address = some marketplace →
      EventSet.Skipped marketplace set) :
    let replayer : Replayer Memory :=
      ⟨config, Memory.servicesBy token tagsOf, handlers⟩
    let other : Host Memory := ⟨host.locks, host.world.without address set⟩
    let ran := replayer.run address host
    let rest := replayer.run address other
    (∃ before behind,
        EventSet.grouping (host.world.log.ascending address 0)
            = before ++ set :: behind
          ∧ EventSet.grouping (other.world.log.ascending address 0)
            = before ++ behind)
      ∧ ran.1.unpaged = rest.1.unpaged.skipSet
      ∧ ran.2.world.tables = rest.2.world.tables := by
  intro replayer other ran rest
  have hread : EventSet.SameTime (host.world.log.ascending address 0) :=
    hsame.subset fun e he => ((host.world.log.mem_ascending address 0).1 he).1
  have hfewer : other.world.log.ascending address 0
      = (host.world.log.ascending address 0).filter (· ∉ set) :=
    host.world.log.ascending_without address set 0
  have hstill : EventSet.SameTime (other.world.log.ascending address 0) := by
    rw [hfewer]
    exact hread.subset List.filter_sublist.subset
  obtain ⟨before, behind, hall, hothers⟩ := EventSet.grouping_without hset
  rw [← hfewer] at hothers
  -- each run is the run that is handed its sets, and these two are compared
  have hblind : replayer.services.Blind host.world.log
      (Memory.Alike host.world.log) := Memory.blind_servicesBy token tagsOf _
  have hblind' : replayer.services.Blind other.world.log
      (Memory.Alike other.world.log) := Memory.blind_servicesBy token tagsOf _
  obtain ⟨hran, hworld⟩ := run_agree hblind hread
    ⟨rfl, host.world.pageRequests, rfl⟩
  obtain ⟨hrest, hworld'⟩ := run_agree hblind' hstill
    ⟨rfl, other.world.pageRequests, rfl⟩
  rw [hall] at hran hworld
  rw [hothers] at hrest hworld'
  have hapart : replayer.services.Blind host.world.log
      (Memory.Beside host.world.log) := Memory.blind_beside token tagsOf _
  have hbeside : Memory.Beside host.world.log host.world other.world :=
    ⟨rfl, other.world.log, host.world.pageRequests, host.world.observed, rfl⟩
  have hobserve : ∀ left right, Memory.Beside host.world.log left right →
      Memory.Beside host.world.log (replayer.services.observe set left) right :=
    fun left right hlike => hlike.observe [set]
  have hfound : ∀ marketplace later,
      (replayer.services.marketplaceAt address).run host.world
        = (.ok (some marketplace), later) →
      EventSet.Skipped marketplace set := fun marketplace later hfind =>
    hskipped marketplace (Except.ok.inj (congrArg Prod.fst hfind))
  obtain ⟨houtcome, hworlds⟩ := runFrom_without hapart hhandlers hobserve
    host.locks hbeside hfound before behind
  refine ⟨⟨before, behind, hall, hothers⟩, ?_, ?_⟩
  · rw [hran, houtcome, hrest]
  · rw [hworld.tables_eq, hworlds.tables_eq, hworld'.tables_eq]

/-- The sample log, in pages of one event, without the event that has nothing
to do with the marketplace. -/
theorem Replayer.run_without_skipped_sample :
    let other : Host Memory :=
      ⟨.empty, Sample.memory.without "market" [Sample.early]⟩
    let ran := (Sample.replayer 1).run "market" Sample.host
    let rest := (Sample.replayer 1).run "market" other
    EventSet.SameTime (Sample.host.world.log.eventsAt "market")
      ∧ [Sample.early] ∈ EventSet.grouping
        (Sample.host.world.log.ascending "market" 0)
      ∧ EventSet.Skipped Sample.market [Sample.early]
      ∧ other.world.log.eventsAt "market" = [Sample.caller, Sample.called]
      ∧ rest.1.isCompleted = true
      ∧ ran.1.unpaged = rest.1.unpaged.skipSet
      ∧ ran.2.world.tables = rest.2.world.tables := by
  intro other ran rest
  have hset : [Sample.early] ∈ EventSet.grouping
      (Sample.host.world.log.ascending "market" 0) := by
    rw [show Sample.host.world.log = Sample.memory.log from rfl,
      Sample.grouping_eq]
    exact List.mem_cons_self
  have hskipped : EventSet.Skipped Sample.market [Sample.early] := .inl rfl
  have hfound : ∀ marketplace,
      Sample.host.world.marketplaceAt? "market" = some marketplace →
      EventSet.Skipped marketplace [Sample.early] := by
    intro marketplace hfind
    cases hfind
    exact hskipped
  obtain ⟨-, houtcome, htables⟩ := Replayer.run_without_skipped
    { Config.standard with pageSize := 1 } Memory.tokenAmong Memory.tagsAmong
    Registry.builtIn_standard Sample.host "market" Sample.sameTime hset hfound
  have hcompleted : rest.1.isCompleted = true := by
    rw [← Outcome.isCompleted_unpaged, ← Outcome.isCompleted_skipSet]
    refine (congrArg Outcome.isCompleted houtcome.symm).trans ?_
    rw [Outcome.isCompleted_unpaged]
    exact Sample.isCompleted_run 1
  exact ⟨Sample.sameTime, hset, hskipped, rfl, hcompleted, houtcome, htables⟩

end MarketReplay
