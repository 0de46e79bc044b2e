/-
The event sets of a completed replay.

Whatever the log is, a completed replay deals all of it out: each event once,
each set in the order of the log, and the sets in the order of their first
events (`completed_deals`). The report accounts for them, and with handlers
like the built-in ones the records that are stored are in order of time.

If belonging to a key is having it, and the events of a key share a time, the
sets are the keys: one set for each, with all its events (`completed_keys`).
Neither statement mentions the page size.
-/
import MarketReplay.Proofs.EventSet.Dealing
import MarketReplay.Proofs.Run.Unpaged

namespace MarketReplay

variable {σ : Type} {replayer : Replayer σ} {scene : σ → Scene}
  {address : String} {report : Report} {host after : Host σ}

-- =========================================================== any log

/-- What a completed replay makes of any log, where `placed` holds the events
from time zero on in the order in which they are read, each with its place.

Each event is in exactly one of the sets that are shown. A set is not empty,
holds a part of the log in its order, and belongs to the key of its first
event; the first events of the sets stand at increasing places, so the actions
that the sets report are in order of time. No event is dropped, and every set
is dispatched or skipped. With orderly handlers the sets that report something
are those counted as dispatched, the actions counted are those that they
report, and the book that is stored lists its orders and its offers in order of
time. -/
theorem Replayer.completed_deals (h : replayer.services.OverLog scene)
    (hrun : replayer.run address host = (.completed report, after)) :
    let log := (scene host.world).log
    let placed := (log.ascending address 0).zipIdx
    ∃ (marketplace : Marketplace) (progress : Progress) (book : Book)
        (sets : List (List EventSet.Placed)),
      let shown := sets.map (·.map Prod.fst)
      let actions := shown.flatMap (EventSet.actions marketplace)
      replayer.Course address host.world marketplace progress book after.world
        ∧ scene after.world = (scene host.world).show shown
        ∧ shown.flatten.Perm
          ((log.eventsAt address).filter (0 ≤ ·.timestamp))
        ∧ sets.flatten.Perm placed
        ∧ (∀ set ∈ sets, set.Sublist placed
          ∧ ∃ head, set.head? = some head
            ∧ ∀ e ∈ set, e.1.belongsTo head.1.key = true)
        ∧ (EventSet.firsts sets).Pairwise (·.2 < ·.2)
        ∧ (actions.map (·.timestamp)).Pairwise (· ≤ ·)
        ∧ report.eventsDropped = 0
        ∧ report.setsDispatched + report.setsSkipped = shown.length
        ∧ (replayer.handlers.Orderly →
          report.setsDispatched
              = shown.countP (EventSet.reports marketplace)
            ∧ report.actionsDispatched = actions.length
            ∧ (book.orders.map (·.timestamp)).Pairwise (· ≤ ·)
            ∧ (book.offers.map (·.timestamp)).Pairwise (· ≤ ·)) := by
  intro log placed
  obtain ⟨marketplace, progress, book, course, htally⟩ :=
    of_rebuild (of_run hrun)
  obtain ⟨texts, hflat, hreach, hscene, hbook⟩ := course.taken h
  -- the pages that the log came in decide the sets, but not that these deal
  -- it out
  obtain ⟨sets, hsets, hdealt⟩ := EventSet.exists_dealt texts
  rw [hflat] at hdealt
  rw [hsets] at hreach hscene
  have hperm := hdealt.perm
  have hordered := hdealt.ordered
  rw [List.append_nil] at hperm hordered
  have htimes := EventSet.actions_chronological marketplace
    (hdealt.firsts_chronological (log.ascending_chronological address 0))
  obtain ⟨hcount, hdropped⟩ := hreach.sets_counted
  rw [← htally] at hcount hdropped
  refine ⟨marketplace, progress, book, sets, course, hscene, ?_, hperm,
    fun set hmem => ⟨hdealt.set_sublist set hmem, hdealt.led set hmem⟩,
    hordered, htimes, hdropped, ?_, fun horderly => ?_⟩
  · have hevents := hperm.map Prod.fst
    rw [List.map_flatten, List.zipIdx_map_fst] at hevents
    exact hevents.trans (log.ascending_perm address 0)
  · rw [hcount]
    exact Nat.zero_add _
  · obtain ⟨hdispatched, hactions⟩ := hreach.actions_counted horderly
    rw [← htally] at hdispatched hactions
    obtain ⟨last, hlast⟩ := hreach.ordered_of_empty horderly htimes
    rw [← hbook] at hlast
    exact ⟨hdispatched.trans (Nat.zero_add _),
      hactions.trans (Nat.zero_add _), hlast.orders, hlast.offers⟩

/-- The sample log, dealt out. -/
theorem Replayer.completed_deals_sample :
    ∃ report after,
      (Sample.replayer 2).run "market" Sample.host
          = (.completed report, after)
        ∧ after.world.observed.flatten.Perm
          [Sample.caller, Sample.early, Sample.called]
        ∧ report.eventsDropped = 0
        ∧ report.setsDispatched + report.setsSkipped
          = after.world.observed.length
        ∧ report.setsDispatched
          = after.world.observed.countP (EventSet.reports Sample.market)
        ∧ report.actionsDispatched = (after.world.observed.flatMap
          (EventSet.actions Sample.market)).length := by
  obtain ⟨report, after, hrun⟩ := Sample.exists_completed 2
  obtain ⟨marketplace, _, _, sets, ⟨hfind, -, -, -⟩, hscene, hperm, -, -, -,
    -, hdropped, hcount, hactions⟩ :=
    Replayer.completed_deals Memory.overLog_services hrun
  have hshown : after.world.observed = sets.map (·.map Prod.fst) :=
    congrArg Scene.shown hscene
  have hmarket : Sample.market = marketplace := by
    cases hfind
    rfl
  rw [← hshown] at hperm hcount hactions
  rw [← hmarket] at hactions
  obtain ⟨hdispatched, hreported, -⟩ := hactions Registry.orderly_standard
  exact ⟨report, after, hrun, hperm, hdropped, hcount, hdispatched, hreported⟩

-- ============================================================= by keys

/-- What a completed replay makes of a log in which belonging to a key is
having it, and the events of a key share a time. It shows one set for each key
that occurs from time zero on, in the order in which the keys occur first when
the log is read, and the set holds all events of the key as they are stored. -/
theorem Replayer.completed_keys (h : replayer.services.OverLog scene)
    (hrun : replayer.run address host = (.completed report, after))
    (hbelongs : ∀ e ∈ (scene host.world).log.eventsAt address,
      ∀ f ∈ (scene host.world).log.eventsAt address,
        f.belongsTo e.key = true ↔ f.key = e.key)
    (htime : ∀ e ∈ (scene host.world).log.eventsAt address,
      ∀ f ∈ (scene host.world).log.eventsAt address,
        f.key = e.key → f.timestamp = e.timestamp) :
    let log := (scene host.world).log
    let keys := ((log.ascending address 0).map Event.key).eraseDups
    scene after.world = (scene host.world).show
      (keys.map fun key => (log.eventsAt address).filter (·.key == key)) := by
  intro log keys
  obtain ⟨_, _, _, course, -⟩ := of_rebuild (of_run hrun)
  obtain ⟨texts, hflat, -, hscene, -⟩ := course.taken h
  have hmem : ∀ e ∈ texts.flatten, e ∈ log.eventsAt address := by
    intro e he
    rw [hflat] at he
    exact ((log.mem_ascending address 0).1 he).1
  have hsame : EventSet.SameTime texts.flatten := by
    intro e he f hf hbelong
    have hkey := (hbelongs e (hmem e he) f (hmem f hf)).1 hbelong
    exact htime e (hmem e he) f (hmem f hf) hkey
  rw [hscene, EventSet.deal_eq_grouping
      (hflat ▸ log.ascending_chronological address 0) hsame,
    EventSet.grouping_eq_keys fun e he f hf =>
      hbelongs e (hmem e he) f (hmem f hf), hflat]
  refine congrArg _ (List.map_congr_left fun key hkey => ?_)
  -- one event of the key is read, so all of them are
  rw [List.mem_eraseDups] at hkey
  obtain ⟨e, he, rfl⟩ := List.mem_map.1 hkey
  exact log.ascending_filter_key address 0 he fun f hf =>
    htime e ((log.mem_ascending address 0).1 he).1 f hf

/-- The sample log, by keys. -/
theorem Replayer.completed_keys_sample :
    ∃ report after,
      (Sample.replayer 2).run "market" Sample.host
          = (.completed report, after)
        ∧ after.world.observed = Sample.sets := by
  obtain ⟨report, after, hrun⟩ := Sample.exists_completed 2
  have hscene := Replayer.completed_keys Memory.overLog_services hrun
    (by decide) (by decide)
  dsimp only at hscene
  rw [show (Memory.scene Sample.host.world).log = Sample.memory.log from rfl,
    Sample.ascending_eq] at hscene
  exact ⟨report, after, hrun, congrArg Scene.shown hscene⟩

end MarketReplay
