/-
The page size does not matter.

A run by the services in memory is the run that is handed the grouping of the
log (`rebuild_agree`), and that one has no page size to differ in. Two runs
that differ in nothing else therefore show the same sets, end in the same way
and leave the same tables behind (`Replayer.run_pageSize`); what they show is
the grouping, or as much of it as came before a failure.
-/
import MarketReplay.Proofs.Run.Unpaged

namespace MarketReplay

namespace Replayer

variable {σ : Type} {replayer : Replayer σ} {scene : σ → Scene}

-- ================================================================ shown

/-- A replay that is handed its sets shows the first of them, and all of them
if nothing fails. -/
theorem shows_rebuildFrom (h : replayer.services.OverLog scene)
    (sets : List (List Event)) (address : String) :
    Call.Shows scene sets (replayer.rebuildFrom sets address) := by
  have hprepare : Call.Shows scene sets
      (replayer.prepare (replayer.takeSets sets) address) := by
    unfold prepare
    refine .keeps_bind (h.marketplaceAt address) fun found => ?_
    cases found with
    | none => exact .throw _
    | some marketplace =>
        exact .bind_keeps (shows_dispatchSets h sets _) fun progress =>
          keeps_finish h.tagsOf address marketplace progress
  exact hprepare.bind_keeps fun ready =>
    .bind (keeps_persist h _) fun _ => .pure _

/-- So does the whole run, and a run that finds the lock taken shows
nothing. -/
theorem shows_runFrom (h : replayer.services.OverLog scene)
    (sets : List (List Event)) (address : String) (host : Host σ) :
    let ran := replayer.runFrom sets address host
    ∃ shown, shown <+: sets
      ∧ scene ran.2.world = (scene host.world).show shown
      ∧ (ran.1.isCompleted = true → shown = sets) := by
  intro ran
  cases hfree : host.locks.isLocked address with
  | true =>
      have hran : ran = (.alreadyRunning, host) := guarded_of_locked hfree
      rw [hran]
      exact ⟨[], List.nil_prefix, (Scene.show_nil _).symm, nofun⟩
  | false =>
      obtain ⟨shown, hpart, hscene, hall⟩ :=
        shows_rebuildFrom h sets address host.world
      cases hrun : (replayer.rebuildFrom sets address).run host.world with
      | mk result world =>
          obtain ⟨hran, hworld⟩ := guarded_of_free replayer host hfree hrun
          have hran : ran.1 = .ofResult result := hran
          rw [hrun] at hscene hall
          refine ⟨shown, hpart, (congrArg scene hworld).trans hscene, ?_⟩
          rw [hran]
          cases result with
          | ok report => exact fun _ => hall report rfl
          | error e => nofun

end Replayer

/-- Two runs by services in memory that differ in the page size only, over a
log in which an event that belongs to another's key shares its time. They end
in the same way, up to the pages and events read, and leave the same tables
behind. Both show the grouping of the log from time zero on, all of it if they
complete, and otherwise as much of it as came before the failure. -/
theorem Replayer.run_pageSize (config : Config)
    (token : List Token → String → Except RunError (Option Token))
    (tagsOf : List TokenTags → List String → Nat →
      Except RunError (List TokenTags))
    (handlers : Registry) (host : Host Memory) (address : String)
    (hsame : EventSet.SameTime (host.world.log.eventsAt address))
    (pageSize other : Nat) :
    let replayer (pageSize : Nat) : Replayer Memory :=
      ⟨{ config with pageSize }, Memory.servicesBy token tagsOf, handlers⟩
    let left := (replayer pageSize).run address host
    let right := (replayer other).run address host
    let sets := EventSet.grouping (host.world.log.ascending address 0)
    left.1.unpaged = right.1.unpaged
      ∧ left.2.world.tables = right.2.world.tables
      ∧ ∃ shown, shown <+: sets
        ∧ left.2.world.observed = host.world.observed ++ shown
        ∧ right.2.world.observed = host.world.observed ++ shown
        ∧ (left.1.isCompleted = true → shown = sets) := by
  intro replayer left right sets
  have hsub : EventSet.SameTime (host.world.log.ascending address 0) :=
    hsame.subset fun e he => ((host.world.log.mem_ascending address 0).1 he).1
  have hlike : Memory.Alike host.world.log host.world host.world :=
    ⟨rfl, host.world.pageRequests, rfl⟩
  -- the run that both are compared with, and what it shows
  let handed := (replayer 0).runFrom sets address host
  have hagree : ∀ pageSize,
      ((replayer pageSize).run address host).1.unpaged = handed.1.unpaged
        ∧ Memory.Alike host.world.log
          ((replayer pageSize).run address host).2.world handed.2.world := by
    intro pageSize
    have hblind : (replayer pageSize).services.Blind host.world.log
        (Memory.Alike host.world.log) := Memory.blind_servicesBy token tagsOf _
    exact run_agree hblind hsub hlike
  have hscene : (replayer 0).services.OverLog Memory.scene :=
    Memory.overLog_servicesBy token tagsOf
  obtain ⟨shown, hpart, hshown, hall⟩ := shows_runFrom hscene sets address host
  obtain ⟨hleft, -, _, hl⟩ := hagree pageSize
  obtain ⟨hright, -, _, hr⟩ := hagree other
  have hobserved : handed.2.world.observed = host.world.observed ++ shown :=
    congrArg Scene.shown hshown
  refine ⟨hleft.trans hright.symm,
    (congrArg Memory.tables hl).trans (congrArg Memory.tables hr).symm,
    shown, hpart, (congrArg Memory.observed hl).trans hobserved,
    (congrArg Memory.observed hr).trans hobserved, fun hcompleted => ?_⟩
  refine hall ?_
  rw [← Outcome.isCompleted_unpaged] at hcompleted ⊢
  rw [← hleft]
  exact hcompleted

/-- The sample log, in pages of one event and of three. -/
theorem Replayer.run_pageSize_sample :
    let small := (Sample.replayer 1).run "market" Sample.host
    let large := (Sample.replayer 3).run "market" Sample.host
    EventSet.SameTime (Sample.host.world.log.eventsAt "market")
      ∧ small.1.unpaged = large.1.unpaged
      ∧ small.2.world.tables = large.2.world.tables
      ∧ small.2.world.observed = Sample.sets
      ∧ large.2.world.observed = Sample.sets := by
  obtain ⟨houtcome, htables, shown, -, hsmall, hlarge, hall⟩ :=
    Replayer.run_pageSize Config.standard Memory.tokenAmong Memory.tagsAmong
      .standard Sample.host "market" Sample.sameTime 1 3
  have hshown : shown = Sample.sets :=
    (hall (Sample.isCompleted_run 1)).trans Sample.grouping_eq
  rw [hshown] at hsmall hlarge
  exact ⟨Sample.sameTime, houtcome, htables, hsmall, hlarge⟩

end MarketReplay
