/-
Running again on the same tables.

A replay reads everything from the log again, so what it builds does not
depend on what is stored (`ready_sameEnd`). The storing does: it puts rows
into places that an earlier run may have taken. That it ends with the same
tables as on empty ones rests on three facts. An earlier run over the
beginning of the log was dealt the first of the sets (`grouping_of_grown`), so
the roster of its book begins the one of the later book (`rosterOf_begins`),
whatever was paid and whoever answered. What it stored of that book, all of it
or the first tables only, is the beginning of the rows of the later book
(`rebuild_stored`, `Book.stored_begins`). And a book stored onto the beginning
of its own rows leaves exactly its rows (`persist_stored`).
-/
import MarketReplay.Proofs.Run.Snapshot

namespace MarketReplay

-- ========================================================= earlier rows

/-- The tables hold the first rows of every book with the roster. -/
def Tables.HeadOf (stored : Tables) (roster : Roster) : Prop :=
  ∀ book : Book, book.roster = roster → stored.Begins book.stored

theorem Tables.empty_headOf (roster : Roster) : empty.HeadOf roster :=
  fun book _ => empty_begins book.stored

/-- What begins the rows of one book begins those of any longer one. -/
theorem Tables.Begins.headOf {stored : Tables} {book : Book} {roster : Roster}
    (h : stored.Begins book.stored) (hroster : book.roster.Begins roster) :
    stored.HeadOf roster := by
  rintro longer rfl
  exact h.trans (Book.stored_begins hroster)

-- ============================================================ the sources

namespace Memory

/-- Two memories that differ at most in what they store and in what they took
note of. -/
structure SameSources (log : EventLog) (left right : Memory) : Prop where
  log_left : left.log = log
  log_right : right.log = log
  marketplaces : left.marketplaces = right.marketplaces
  tokens : left.tokens = right.tokens
  tags : left.tags = right.tags
  clock : left.clock = right.clock

theorem reading_servicesBy
    (token : List Token → String → Except RunError (Option Token))
    (tagsOf : List TokenTags → List String → Nat →
      Except RunError (List TokenTags)) (log : EventLog) :
    (servicesBy token tagsOf).BlindReading log (SameSources log) where
  page := by
    intro request left right h
    refine ⟨{ left with pageRequests := left.pageRequests ++ [request] }, ?_,
      { h with }⟩
    rw [← h.log_left]
    rfl
  bound := by
    intro left right h
    rw [← h.log_left]
    exact Nat.le_refl _
  now := fun h => h.clock
  observe := fun set _ _ h => { h with }
  marketplaceAt := by
    intro address left right h
    have hfound : left.marketplaceAt? address = right.marketplaceAt? address :=
      congrArg
        (List.find? fun (entry : Marketplace) => entry.address == address)
        h.marketplaces
    exact .ok ⟨hfound, fun marketplace hfind =>
      address_of_marketplaceAt? hfind⟩ h
  token := by
    intro identifier left right h
    have hanswer : token left.tokens identifier
        = token right.tokens identifier :=
      congrArg (token · identifier) h.tokens
    rw [run_token, run_token, hanswer]
    exact .of_like _ { h with }
  tagsOf := by
    intro request offset left right h
    have hanswer : tagsOf left.tags request offset
        = tagsOf right.tags request offset :=
      congrArg (tagsOf · request offset) h.tags
    rw [run_tagsOf, run_tagsOf, hanswer]
    exact .of_like _ { h with }

end Memory

namespace Replayer

variable {σ : Type} {replayer : Replayer σ} {tables : σ → Tables}
  {log : EventLog} {like : σ → σ → Prop}

-- ====================================================== before the storing

/-- The sets tell which records are in the book. -/
theorem roster_of_prepare (hhandlers : replayer.handlers.BuiltIn)
    {sets : List (List Event)} {address : String} {report : Report}
    {book : Book} {world later : σ}
    (hrun : (replayer.prepare (replayer.takeSets sets) address).run world
      = (.ok (report, book), later)) :
    ∃ marketplace found,
      (replayer.services.marketplaceAt address).run world
          = (.ok (some marketplace), found)
        ∧ book.roster = EventSet.rosterOf marketplace sets := by
  obtain ⟨marketplace, found, progress, taken, hfind, htake, hfinish⟩ :=
    of_prepare hrun
  refine ⟨marketplace, found, hfind, ?_⟩
  rw [roster_of_finish hfinish, (of_dispatchSets htake).roster_eq hhandlers]

-- ============================================================ the storing

/-- A book that is ready is stored onto the beginning of its rows. -/
theorem rebuildFrom_of_prepare (hsink : replayer.services.StoresIn tables)
    (haccepts : replayer.services.Accepts) {sets : List (List Event)}
    {address : String} {report : Report} {book : Book} {world mid : σ}
    (hrun : (replayer.prepare (replayer.takeSets sets) address).run world
      = (.ok (report, book), mid))
    (hsound : book.roster.Sound)
    (hbegins : (tables world).Begins book.stored) :
    ∃ later, (replayer.rebuildFrom sets address).run world
        = (.ok report, later)
      ∧ tables later = book.stored := by
  obtain ⟨⟨⟩, later, hpersist⟩ := answers_persist haccepts hsound mid
  have hkeeps : Call.Keeps tables
      (replayer.prepare (replayer.takeSets sets) address) :=
    keeps_prepare hsink.tagsOf (hsink.marketplaceAt address) fun marketplace =>
      .foldlM (keeps_dispatchSet hsink) _ _
  rw [← hkeeps.of_run hrun] at hbegins
  refine ⟨later, ?_, (persist_stored hsink hsound hpersist hbegins).2 rfl⟩
  unfold rebuildFrom complete
  rw [Call.run_bind_ok hrun]
  exact (Call.run_bind_ok hpersist _).trans rfl

/-- Two replays of the same sets whose tables begin what they make: they end
alike, and with the same tables if they complete. -/
theorem rebuildFrom_onto (hreading : replayer.services.BlindReading log like)
    (hsink : replayer.services.StoresIn tables)
    (haccepts : replayer.services.Accepts)
    (hhandlers : replayer.handlers.BuiltIn) {sets : List (List Event)}
    {address : String} {left right : σ} (hlike : like left right)
    {marketplace : Marketplace}
    (hfind : ∀ found later,
      (replayer.services.marketplaceAt address).run left
        = (.ok (some found), later) → found = marketplace)
    (hleft : (tables left).HeadOf (EventSet.rosterOf marketplace sets))
    (hright : (tables right).HeadOf (EventSet.rosterOf marketplace sets)) :
    (∃ error l r,
      (replayer.rebuildFrom sets address).run left = (.error error, l)
        ∧ (replayer.rebuildFrom sets address).run right = (.error error, r))
      ∨ ∃ (report other : Report) (book : Book) (l r : σ),
        (replayer.rebuildFrom sets address).run left = (.ok report, l)
          ∧ (replayer.rebuildFrom sets address).run right = (.ok other, r)
          ∧ SameReport report other
          ∧ book.roster = EventSet.rosterOf marketplace sets
          ∧ tables l = book.stored ∧ tables r = book.stored := by
  let prepared := replayer.prepare (replayer.takeSets sets) address
  have hend : Call.SameEnd like SameReady (prepared.run left)
      (prepared.run right) :=
    ready_sameEnd hlike
      (fun marketplace _ _ _ => dispatchSets_agree hreading sets rfl) hreading
  cases hl : prepared.run left with
  | mk result mid =>
      cases hr : prepared.run right with
      | mk result' mid' =>
          rw [hl, hr] at hend
          cases hend with
          | error error _ =>
              exact .inl ⟨error, mid, mid', Call.run_bind_error hl _,
                Call.run_bind_error hr _⟩
          | @ok a b _ _ answers _ =>
              obtain ⟨report, book⟩ := a
              obtain ⟨other, _⟩ := b
              obtain ⟨hreport, hbook⟩ := answers
              obtain rfl : book = _ := hbook
              obtain ⟨found, later, hfound, hroster⟩ :=
                roster_of_prepare hhandlers hl
              rw [hfind found later hfound] at hroster
              have hsound : book.roster.Sound :=
                hroster ▸ EventSet.sound_rosterOf
              obtain ⟨l, hrunl, hstoredl⟩ := rebuildFrom_of_prepare hsink
                haccepts hl hsound (hleft book hroster)
              obtain ⟨r, hrunr, hstoredr⟩ := rebuildFrom_of_prepare hsink
                haccepts hr hsound (hright book hroster)
              exact .inr ⟨report, other, book, l, r, hrunl, hrunr, hreport,
                hroster, hstoredl, hstoredr⟩

/-- So do two runs. -/
theorem runFrom_onto (hreading : replayer.services.BlindReading log like)
    (hsink : replayer.services.StoresIn tables)
    (haccepts : replayer.services.Accepts)
    (hhandlers : replayer.handlers.BuiltIn) {sets : List (List Event)}
    {address : String} (locks : Locks Int) {left right : σ}
    (hlike : like left right) {marketplace : Marketplace}
    (hfind : ∀ found later,
      (replayer.services.marketplaceAt address).run left
        = (.ok (some found), later) → found = marketplace)
    (hleft : (tables left).HeadOf (EventSet.rosterOf marketplace sets))
    (hright : (tables right).HeadOf (EventSet.rosterOf marketplace sets)) :
    let ran := replayer.runFrom sets address ⟨locks, left⟩
    let other := replayer.runFrom sets address ⟨locks, right⟩
    ran.1.unpaged = other.1.unpaged
      ∧ (ran.1.isCompleted = true → ∃ book : Book,
        book.roster = EventSet.rosterOf marketplace sets
          ∧ tables ran.2.world = book.stored
          ∧ tables other.2.world = book.stored) := by
  intro ran other
  cases hfree : locks.isLocked address with
  | true =>
      have hran : ran = (.alreadyRunning, ⟨locks, left⟩) :=
        guarded_of_locked hfree
      have hother : other = (.alreadyRunning, ⟨locks, right⟩) :=
        guarded_of_locked hfree
      rw [hran, hother]
      exact ⟨rfl, nofun⟩
  | false =>
      rcases rebuildFrom_onto hreading hsink haccepts hhandlers hlike hfind
          hleft hright with ⟨error, l, r, hl, hr⟩ |
        ⟨report, _, book, l, r, hl, hr, hreport, hroster, hstored, hother⟩
      · obtain ⟨hran, -⟩ := guarded_of_free replayer ⟨locks, left⟩ hfree hl
        obtain ⟨hother, -⟩ := guarded_of_free replayer ⟨locks, right⟩ hfree hr
        have hran : ran.1 = .failed error := hran
        refine ⟨congrArg Outcome.unpaged (hran.trans hother.symm), ?_⟩
        rw [hran]
        nofun
      · obtain ⟨hran, hworld⟩ := guarded_of_free replayer ⟨locks, left⟩ hfree hl
        obtain ⟨hran', hworld'⟩ := guarded_of_free replayer ⟨locks, right⟩ hfree hr
        refine ⟨?_, fun _ => ⟨book, hroster, ?_, ?_⟩⟩
        · exact (congrArg Outcome.unpaged hran).trans
            ((congrArg Outcome.completed hreport).trans
              (congrArg Outcome.unpaged hran').symm)
        · exact (congrArg tables hworld).trans hstored
        · exact (congrArg tables hworld').trans hother

-- ============================================================== two runs

/-- A run on empty tables leaves the first rows of every book that more sets
make, however it ends. -/
theorem headOf_run {scene : σ → Scene} (hlog : replayer.services.OverLog scene)
    (hsink : replayer.services.StoresIn tables)
    (hhandlers : replayer.handlers.BuiltIn) {address : String}
    {host : Host σ} (hempty : tables host.world = .empty)
    {marketplace : Marketplace}
    (hfind : ∀ found later,
      (replayer.services.marketplaceAt address).run host.world
        = (.ok (some found), later) → found = marketplace)
    (hsame : EventSet.SameTime ((scene host.world).log.ascending address 0))
    (more : List (List Event)) :
    (tables (replayer.run address host).2.world).HeadOf
      (EventSet.rosterOf marketplace
        (EventSet.grouping ((scene host.world).log.ascending address 0)
          ++ more)) := by
  have hnone := Tables.empty_headOf (EventSet.rosterOf marketplace
    (EventSet.grouping ((scene host.world).log.ascending address 0) ++ more))
  rw [run_eq]
  cases hfree : host.locks.isLocked address with
  | true =>
      rw [guarded_of_locked hfree, hempty]
      exact hnone
  | false =>
      cases hrun : (replayer.rebuild address).run host.world with
      | mk result later =>
          rw [(guarded_of_free replayer host hfree hrun).2]
          rcases rebuild_stored hsink hlog hhandlers hrun with hkept |
            ⟨found, _, texts, book, hfound, hflat, hroster, hstored⟩
          · rw [hkept, hempty]
            exact hnone
          · rw [hempty] at hstored
            have hbegins := hstored (Tables.empty_begins book.stored)
            refine hbegins.headOf ?_
            rw [hroster, hfind found _ hfound, EventSet.deal_eq_grouping
              (hflat ▸ (scene host.world).log.ascending_chronological address 0)
              (hflat ▸ hsame), hflat]
            exact EventSet.rosterOf_begins more

end Replayer

/-- Runs by services in memory that differ in the tables only, where these
begin what the log makes: they end alike, and with the same tables if they
complete. -/
theorem Memory.run_onto (config : Config)
    (token : List Token → String → Except RunError (Option Token))
    (tagsOf : List TokenTags → List String → Nat →
      Except RunError (List TokenTags))
    {handlers : Registry} (hbuiltIn : handlers.BuiltIn)
    {host : Host Memory} {address : String} {marketplace : Marketplace}
    (hfind : host.world.marketplaceAt? address = some marketplace)
    (hsame : EventSet.SameTime (host.world.log.ascending address 0))
    {stored other : Tables}
    (hstored : stored.HeadOf (EventSet.rosterOf marketplace
      (EventSet.grouping (host.world.log.ascending address 0))))
    (hother : other.HeadOf (EventSet.rosterOf marketplace
      (EventSet.grouping (host.world.log.ascending address 0)))) :
    let onto (tables : Tables) := Replayer.run
      ⟨config, servicesBy token tagsOf, handlers⟩ address
      ⟨host.locks, { host.world with tables }⟩
    (onto stored).1.unpaged = (onto other).1.unpaged
      ∧ ((onto stored).1.isCompleted = true → ∃ book : Book,
        book.roster = EventSet.rosterOf marketplace
            (EventSet.grouping (host.world.log.ascending address 0))
          ∧ (onto stored).2.world.tables = book.stored
          ∧ (onto other).2.world.tables = book.stored) := by
  intro onto
  let replayer : Replayer Memory :=
    ⟨config, servicesBy token tagsOf, handlers⟩
  let sets := EventSet.grouping (host.world.log.ascending address 0)
  let handed (tables : Tables) := replayer.runFrom sets address
    ⟨host.locks, { host.world with tables }⟩
  -- whatever the tables are, the log is read as the same sets
  have hread : ∀ tables, (onto tables).1.unpaged = (handed tables).1.unpaged
      ∧ (onto tables).2.world.tables = (handed tables).2.world.tables := by
    intro tables
    have hblind : replayer.services.Blind host.world.log
        (Alike host.world.log) := blind_servicesBy token tagsOf _
    have hlike : Alike host.world.log { host.world with tables }
        { host.world with tables } := ⟨rfl, host.world.pageRequests, rfl⟩
    obtain ⟨houtcome, hworld⟩ := @Replayer.run_agree _ replayer _ _ hblind
      address ⟨host.locks, { host.world with tables }⟩ hsame hlike
    exact ⟨houtcome, hworld.tables_eq⟩
  have hreading : replayer.services.BlindReading host.world.log
      (SameSources host.world.log) := reading_servicesBy token tagsOf _
  have hsources : SameSources host.world.log
      { host.world with tables := stored }
      { host.world with tables := other } := ⟨rfl, rfl, rfl, rfl, rfl, rfl⟩
  have hfound : ∀ found later, (replayer.services.marketplaceAt address).run
      { host.world with tables := stored } = (.ok (some found), later) →
        found = marketplace := by
    intro found later hrun
    have hanswer := Except.ok.inj (congrArg Prod.fst hrun)
    exact Option.some.inj (hanswer.symm.trans hfind)
  have hsink : replayer.services.StoresIn Memory.tables :=
    storesIn_servicesBy token tagsOf
  obtain ⟨houtcome, hcompleted⟩ := Replayer.runFrom_onto hreading hsink
    (accepts_servicesBy token tagsOf) hbuiltIn host.locks hsources hfound hstored
    hother
  refine ⟨(hread stored).1.trans (houtcome.trans (hread other).1.symm), ?_⟩
  intro hdone
  rw [← Outcome.isCompleted_unpaged, (hread stored).1,
    Outcome.isCompleted_unpaged] at hdone
  obtain ⟨book, hroster, hleft, hright⟩ := hcompleted hdone
  exact ⟨book, hroster, (hread stored).2.trans hleft,
    (hread other).2.trans hright⟩

/-- A log that grows by later events is grouped as before, and then on. -/
theorem EventSet.grouping_of_grown {log grown : EventLog} {address : String}
    {further : List Event}
    (hgrown : grown.eventsAt address = log.eventsAt address ++ further)
    (hlater : ∀ e ∈ log.eventsAt address, ∀ f ∈ further,
      e.timestamp < f.timestamp)
    (hsame : SameTime (grown.eventsAt address)) :
    ∃ more, grouping (grown.ascending address 0)
      = grouping (log.ascending address 0) ++ more := by
  obtain ⟨rest, hread, hrest⟩ := log.ascending_of_grown address 0 hgrown
    fun e he f hf => Int.le_of_lt (hlater e he f hf)
  refine ⟨grouping rest, ?_⟩
  rw [hread]
  refine grouping_append_of_apart fun e he f hf => ?_
  -- what belongs to an earlier event would share its time
  have hearly := ((log.mem_ascending address 0).1 he).1
  have hlt := hlater e hearly f (hrest hf)
  rw [← Bool.not_eq_true]
  intro hbelongs
  have htime := hsame e (hgrown ▸ List.mem_append_left _ hearly) f
    (hgrown ▸ List.mem_append_right _ (hrest hf)) hbelongs
  omega

/-- Two runs, one after the other. The first, by any services that keep the
contracts, starts on empty tables and ends in any way. The second, by services
in memory, starts on the tables that the first leaves behind, over a log that
may have grown by later events. The marketplace is the same, and an event that
belongs to another's key shares its time.

The second run ends as a single run would that starts on empty tables. If it
completes, it leaves the same tables behind as that one, and the auctions
that were stored before keep their rows and numbers. Then one more run changes
nothing. -/
theorem Replayer.run_again {σ : Type} (first : Replayer σ) {scene : σ → Scene}
    {tables : σ → Tables} (hlog : first.services.OverLog scene)
    (hsink : first.services.StoresIn tables)
    (hhandlers : first.handlers.BuiltIn) (address : String)
    (before : Host σ) (hempty : tables before.world = .empty)
    (config : Config)
    (token : List Token → String → Except RunError (Option Token))
    (tagsOf : List TokenTags → List String → Nat →
      Except RunError (List TokenTags))
    {handlers : Registry} (hbuiltIn : handlers.BuiltIn)
    (host : Host Memory) {marketplace : Marketplace}
    (hfind : host.world.marketplaceAt? address = some marketplace)
    (hfound : ∀ found later,
      (first.services.marketplaceAt address).run before.world
        = (.ok (some found), later) → found = marketplace)
    {further : List Event}
    (hgrown : host.world.log.eventsAt address
      = (scene before.world).log.eventsAt address ++ further)
    (hlater : ∀ e ∈ (scene before.world).log.eventsAt address,
      ∀ f ∈ further, e.timestamp < f.timestamp)
    (hsame : EventSet.SameTime (host.world.log.eventsAt address))
    (hstored : host.world.tables
      = tables (first.run address before).2.world) :
    let second : Replayer Memory :=
      ⟨config, Memory.servicesBy token tagsOf, handlers⟩
    let onto (tables : Tables) :=
      second.run address ⟨host.locks, { host.world with tables }⟩
    let rerun := second.run address host
    let single := onto .empty
    rerun.1.unpaged = single.1.unpaged
      ∧ (rerun.1.isCompleted = true →
        rerun.2.world.tables = single.2.world.tables
          ∧ host.world.tables.auctions.map (fun row => (row.key, row.id))
            <+: rerun.2.world.tables.auctions.map
              (fun row => (row.key, row.id))
          ∧ (onto single.2.world.tables).1.isCompleted = true
          ∧ (onto single.2.world.tables).2.world.tables
            = single.2.world.tables) := by
  intro second onto rerun single
  obtain ⟨more, hsets⟩ := EventSet.grouping_of_grown hgrown hlater hsame
  have hread : EventSet.SameTime (host.world.log.ascending address 0) :=
    hsame.subset fun e he => ((host.world.log.mem_ascending address 0).1 he).1
  have hfirst : EventSet.SameTime
      ((scene before.world).log.ascending address 0) :=
    hsame.subset fun e he => hgrown ▸ List.mem_append_left _
      (((scene before.world).log.mem_ascending address 0).1 he).1
  have hhead : host.world.tables.HeadOf (EventSet.rosterOf marketplace
      (EventSet.grouping (host.world.log.ascending address 0))) := by
    rw [hsets, hstored]
    exact headOf_run hlog hsink hhandlers hempty hfound hfirst more
  obtain ⟨houtcome, hcompleted⟩ := Memory.run_onto config token tagsOf hbuiltIn hfind
    hread hhead (Tables.empty_headOf _)
  refine ⟨houtcome, fun hdone => ?_⟩
  obtain ⟨book, hroster, hrerun, hsingle⟩ := hcompleted hdone
  have hrow : rerun.2.world.tables = book.stored := hrerun
  have hall : single.2.world.tables = book.stored := hsingle
  -- the rows of the book are all of its rows, so once more changes nothing
  have hfull : book.stored.HeadOf (EventSet.rosterOf marketplace
      (EventSet.grouping (host.world.log.ascending address 0))) :=
    (Tables.Begins.refl book.stored).headOf (hroster ▸ .refl _)
  obtain ⟨hagain, hsettled⟩ := Memory.run_onto config token tagsOf hbuiltIn hfind hread
    (Tables.empty_headOf _) hfull
  have hsingledone : single.1.isCompleted = true := by
    rw [← Outcome.isCompleted_unpaged, ← houtcome, Outcome.isCompleted_unpaged]
    exact hdone
  obtain ⟨other, hother, hsingle', hlast⟩ := hsettled hsingledone
  rw [hall]
  refine ⟨hrow, ?_, ?_, hlast.trans (hsingle'.symm.trans hall)⟩
  · rw [hrow]
    exact (hhead book hroster).auctions
  · rw [← Outcome.isCompleted_unpaged, ← hagain, Outcome.isCompleted_unpaged]
    exact hsingledone

namespace Sample

/-- Services in memory whose sink takes auctions and then no orders. -/
def faulty : Services Memory :=
  { trader.services with
    sink := { Memory.sink with
      saveOrders := fun _ => throw (.persistence (.refused "full")) } }

theorem overLog_faulty : faulty.OverLog Memory.scene :=
  { Memory.overLog_obliging (fun _ _ => none) fun _ _ _ => [] with
    saveOrders := fun _ => .throw _ }

theorem storesIn_faulty : faulty.StoresIn Memory.tables :=
  { Memory.storesIn_obliging (fun _ _ => none) fun _ _ _ => [] with
    saveOrders := fun _ _ world => .inr ⟨_, world, rfl, rfl⟩ }

/-- The sample log before the offer. -/
def morning : Host Memory :=
  ⟨.empty, (Memory.empty.addMarketplace market).addEvents "market"
    [listed, bidden]⟩

/-- A first run, by the faulty services. -/
def firstRun : Outcome × Host Memory :=
  Replayer.run ⟨.standard, faulty, .standard⟩ "market" morning

/-- The whole sample log, with the tables of the first run. -/
def evening : Host Memory :=
  ⟨.empty, { trading.world with tables := firstRun.2.world.tables }⟩

end Sample

/-- A run after one that failed between auctions and orders. -/
theorem Replayer.run_again_sample :
    let rerun := Sample.trader.run "market" Sample.evening
    let single := Sample.trader.run "market" Sample.trading
    rerun.1.isCompleted = true
      ∧ rerun.1.unpaged = single.1.unpaged
      ∧ rerun.2.world.tables = single.2.world.tables
      ∧ Sample.firstRun.2.world.tables.auctions.map
          (fun row => (row.key, row.id))
        <+: rerun.2.world.tables.auctions.map
          (fun row => (row.key, row.id)) := by
  intro rerun single
  have hfind : Sample.evening.world.marketplaceAt? "market"
      = some Sample.market := rfl
  have hdone : rerun.1.isCompleted = true :=
    isCompleted_of_known .standard (fun _ _ => none) (fun _ _ _ => [])
      Sample.evening "market" hfind rfl (by decide)
  have hgrown : Sample.evening.world.log.eventsAt "market"
      = Sample.morning.world.log.eventsAt "market" ++ [Sample.offered] := rfl
  obtain ⟨houtcome, hcompleted⟩ := Replayer.run_again
    ⟨.standard, Sample.faulty, .standard⟩ Sample.overLog_faulty
    Sample.storesIn_faulty Registry.builtIn_standard "market" Sample.morning
    rfl .standard (fun _ _ => .ok none) (fun _ _ _ => .ok [])
    Registry.builtIn_standard Sample.evening hfind
    (fun found later hrun =>
      (Option.some.inj (Except.ok.inj (congrArg Prod.fst hrun))).symm)
    hgrown (by decide) Sample.sameTime_trading rfl
  obtain ⟨htables, hrows, -, -⟩ := hcompleted hdone
  exact ⟨hdone, houtcome, htables, hrows⟩

end MarketReplay
