/-
What is known of a replay that completed.

Each part of a replay has one lemma here, `of_` its name. It takes a run that
answered apart and says what was done, and for services over a log
(`Services.OverLog`) what became of the scene. That a run answered is all that
is known of the services' answers: a failure anywhere ends the run without
one. What each part shows is said ahead of all that, since it does not depend
on how the part ends.

The reading of the log is the only loop (`of_readLog`). A pager stands in
front of the unread events, a turn hands some of them out, and the sets that
leave the buffer meanwhile are those that `EventSet.gather` names; the bound on
the number of pages is never what stops it, because each full page spends an
event. A whole run is put together from its parts as a `Course`, and
`Course.taken` is what the statements about event sets start from.
-/
import MarketReplay.Proofs.EventSet.Grouping
import MarketReplay.Proofs.Run.Contract
import MarketReplay.Proofs.Run.Prepare
import MarketReplay.Proofs.Run.Progress
import MarketReplay.Proofs.Store.Paging

namespace MarketReplay.Replayer

open Call (of_run_bind)

variable {σ : Type} {replayer : Replayer σ} {scene : σ → Scene}

-- =========================================================== the scene

/-- A dispatch calls the token service only. -/
theorem keeps_dispatch {τ : Type} {view : σ → τ}
    (h : ∀ identifier, Call.Keeps view (replayer.services.token identifier))
    (book : Book) (summary : ActionSummary) :
    Call.Keeps view (replayer.dispatch book summary) := by
  unfold dispatch Config.resolve
  refine .bind ?_ fun payment => .liftM _
  cases replayer.config.quote book summary with
  | settled payment => exact .pure payment
  | inToken identifier nonce =>
      exact .bind (h identifier) fun _ => .pure _

/-- A set is shown before anything else is done with it. -/
theorem shows_dispatchSet (h : replayer.services.OverLog scene)
    (progress : Progress) (set : List Event) :
    Call.Shows scene [set] (replayer.dispatchSet progress set) := by
  unfold dispatchSet
  refine .bind_keeps (fun world => ?_) fun _ => ?_
  · exact ⟨[set], List.prefix_rfl, h.observe set world, fun _ _ => rfl⟩
  · dsimp only
    split
    · exact .throw _
    · exact .pure _
    · exact .pure _
    · exact .bind (.foldlM (fun book summary => keeps_dispatch h.token book summary)
        _ _) fun book => .pure _

/-- Sets are shown one after another, by induction on the sets. -/
theorem shows_dispatchSets (h : replayer.services.OverLog scene)
    (sets : List (List Event)) (progress : Progress) :
    Call.Shows scene sets (sets.foldlM replayer.dispatchSet progress) := by
  induction sets generalizing progress with
  | nil => exact .of_keeps (.pure progress)
  | cons set sets ih =>
      rw [List.foldlM_cons]
      exact .bind (shows_dispatchSet h progress set) ih

/-- Processing a buffer shows the sets that leave it. -/
theorem shows_process (h : replayer.services.OverLog scene) (final : Bool)
    (buffer : List Event) (progress : Progress) :
    Call.Shows scene (EventSet.split final buffer).1
      (replayer.process final buffer progress) :=
  .bind_keeps (shows_dispatchSets h _ progress) fun _ => .pure _

/-- Storing shows nothing. -/
theorem keeps_persist (h : replayer.services.OverLog scene) (book : Book) :
    Call.Keeps scene (replayer.persist book) := by
  unfold persist
  refine .bind (h.saveAuctions _) fun ids => ?_
  dsimp only
  split
  · exact .bind (.throw _) fun _ => .bind (.liftM _) fun orders =>
      .bind (h.saveOrders orders) fun _ => h.saveOffers _
  · exact .bind (.liftM _) fun orders =>
      .bind (h.saveOrders orders) fun _ => h.saveOffers _

-- ============================================================ the sets

/-- A dispatch that answered went to the handlers with some payment. -/
theorem of_dispatch {book next : Book} {summary : ActionSummary}
    {world later : σ}
    (hrun : (replayer.dispatch book summary).run world = (.ok next, later)) :
    ∃ payment, replayer.handlers.dispatch book summary payment = .ok next := by
  obtain ⟨payment, mid, -, hlift⟩ := of_run_bind hrun
  rw [Call.run_liftM] at hlift
  exact ⟨payment, (Prod.mk.inj hlift).1⟩

/-- Dispatches that answered all went to the handlers, in order. -/
theorem of_dispatches {book after : Book} {summaries : List ActionSummary}
    {world later : σ}
    (hrun : (summaries.foldlM replayer.dispatch book).run world
      = (.ok after, later)) :
    replayer.handlers.Dispatches book summaries after := by
  induction summaries generalizing book world with
  | nil =>
      cases hrun
      exact .nil _
  | cons summary summaries ih =>
      rw [List.foldlM_cons] at hrun
      obtain ⟨next, mid, hfirst, hrest⟩ := of_run_bind hrun
      obtain ⟨payment, hstep⟩ := of_dispatch hfirst
      exact .cons hstep (ih hrest)

/-- A set that was taken in was skipped, or had its actions dispatched. -/
theorem of_dispatchSet {progress after : Progress} {set : List Event}
    {world later : σ}
    (hrun : (replayer.dispatchSet progress set).run world
      = (.ok after, later)) :
    progress.Reaches replayer.handlers [set] after := by
  unfold dispatchSet at hrun
  obtain ⟨_, shown, -, hrun⟩ := of_run_bind hrun
  -- what the set reports decides what is done with it
  cases hsum : EventSet.summarize progress.book.marketplace set with
  | error e =>
      have hnone : EventSet.actions progress.book.marketplace set = [] := by
        rw [EventSet.actions, hsum]
      rw [hsum] at hrun
      cases e with
      | unknownAction identifier txHash => cases hrun
      | decode identifier txHash cause =>
          cases hrun
          exact .skip hnone (.refl _)
  | ok summaries =>
      have hactions : EventSet.actions progress.book.marketplace set
          = summaries := by
        rw [EventSet.actions, hsum]
      rw [hsum] at hrun
      cases summaries with
      | nil =>
          cases hrun
          exact .skip hactions (.refl _)
      | cons summary summaries =>
          obtain ⟨book, mid, hfold, hrun⟩ := of_run_bind hrun
          cases hrun
          have hdeeds := of_dispatches hfold
          have hreported : EventSet.actions progress.book.marketplace set ≠ [] :=
            hactions ▸ List.cons_ne_nil summary summaries
          rw [← hactions] at hdeeds ⊢
          exact .take hreported hdeeds (.refl _)

/-- Sets that were taken in were taken in one after another. -/
theorem of_dispatchSets {progress after : Progress}
    {sets : List (List Event)} {world later : σ}
    (hrun : (sets.foldlM replayer.dispatchSet progress).run world
      = (.ok after, later)) :
    progress.Reaches replayer.handlers sets after := by
  induction sets generalizing progress world with
  | nil =>
      cases hrun
      exact .refl _
  | cons set sets ih =>
      rw [List.foldlM_cons] at hrun
      obtain ⟨next, mid, hfirst, hrest⟩ := of_run_bind hrun
      exact (of_dispatchSet hfirst).trans (ih hrest)

/-- A buffer that was processed has taken in and shown the sets that left it,
and waits with the rest. -/
theorem of_process (h : replayer.services.OverLog scene) {final : Bool}
    {buffer left : List Event} {progress after : Progress} {world later : σ}
    (hrun : (replayer.process final buffer progress).run world
      = (.ok (left, after), later)) :
    left = (EventSet.split final buffer).2
      ∧ progress.Reaches replayer.handlers (EventSet.split final buffer).1
        after
      ∧ scene later = (scene world).show (EventSet.split final buffer).1 := by
  have hscene := (shows_process h final buffer progress).of_run hrun
  unfold process at hrun
  obtain ⟨reached, mid, hsets, hrun⟩ := of_run_bind hrun
  cases hrun
  exact ⟨rfl, of_dispatchSets hsets, hscene⟩

-- ============================================================ the log

/-- A turn that answered is the turn over the log, and shows nothing. -/
theorem of_next (h : replayer.services.OverLog scene) {pager : Pager}
    {turned : Page × Pager} {world later : σ}
    (hrun : (pager.next replayer.services.events.events).run world
      = (.ok turned, later)) :
    turned = pager.turn (scene world).log ∧ scene later = scene world := by
  unfold Pager.next at hrun
  unfold Pager.turn
  cases hrequest : pager.request? with
  | none =>
      rw [hrequest] at hrun
      cases hrun
      exact ⟨rfl, rfl⟩
  | some request =>
      rw [hrequest] at hrun
      obtain ⟨events, mid, hfetch, hrun⟩ := of_run_bind hrun
      cases hrun
      rw [h.page hfetch]
      exact ⟨rfl, (h.events request).of_run hfetch⟩

/-- The log is read to its end, in pages that hold the unread events. -/
theorem of_readLog (h : replayer.services.OverLog scene) {pages : Nat}
    {pager : Pager} {carry unread left : List Event}
    {progress after : Progress} {world later : σ}
    (hstands : pager.Stands (scene world).log unread)
    (hpages : unread.length < pages)
    (hrun : (replayer.readLog pages pager carry progress).run world
      = (.ok (left, after), later)) :
    ∃ texts : List (List Event), texts.flatten = unread
      ∧ left = (EventSet.gather carry texts).2
      ∧ progress.Reaches replayer.handlers (EventSet.gather carry texts).1
        after
      ∧ scene later
        = (scene world).show (EventSet.gather carry texts).1 := by
  induction pages generalizing pager carry unread progress world with
  | zero => omega
  | succ pages ih =>
      unfold readLog at hrun
      obtain ⟨turned, asked, hnext, hrun⟩ := of_run_bind hrun
      obtain ⟨hturned, hasked⟩ := of_next h hnext
      obtain ⟨⟨rest, reached⟩, mid, hprocess, hrun⟩ := of_run_bind hrun
      obtain ⟨hrest, hreach, hmid⟩ := of_process h hprocess
      rw [hasked] at hmid
      have hcount := Progress.Reaches.page turned.1.fetched hreach
      rcases hstands.turn with ⟨-, hturn⟩ |
        ⟨safe, unseen, rfl, hne, -, hpage, hbehind⟩
      · -- the last page holds everything that was unread
        rw [hturn] at hturned
        subst hturned
        cases hrun
        refine ⟨[unread], List.flatten_singleton, ?_⟩
        rw [EventSet.gather_singleton]
        exact ⟨hrest, hcount, hmid⟩
      · -- a full page leaves fewer events than pages
        rw [← hturned] at hpage hbehind
        rw [hpage] at hrun hcount hrest hmid
        have hspent := List.length_pos_iff.2 hne
        rw [List.length_append] at hpages
        have hlog : (scene mid).log = (scene world).log := by
          rw [hmid]
          rfl
        obtain ⟨texts, hflat, hleft, hmore, hlater⟩ :=
          ih (hlog.symm ▸ hbehind) (by omega) hrun
        rw [hrest] at hleft hmore hlater
        refine ⟨safe :: texts, by rw [List.flatten_cons, hflat], hleft,
          hcount.trans hmore, ?_⟩
        rw [hlater, hmid, Scene.show_show]
        rfl

/-- The whole log is taken in, in some pages, and nothing is left. -/
theorem of_replay (h : replayer.services.OverLog scene)
    {marketplace : Marketplace} {progress : Progress} {world later : σ}
    (hrun : (replayer.replay marketplace).run world
      = (.ok progress, later)) :
    ∃ texts : List (List Event),
      texts.flatten = (scene world).log.ascending marketplace.address 0
      ∧ Progress.Reaches replayer.handlers ⟨.empty marketplace, .zero⟩
        (EventSet.deal texts) progress
      ∧ scene later = (scene world).show (EventSet.deal texts) := by
  unfold replay at hrun
  obtain ⟨_, _, hget, hrun⟩ := of_run_bind hrun
  cases hget
  obtain ⟨⟨carry, read⟩, mid, hread, hrun⟩ := of_run_bind hrun
  obtain ⟨⟨left, last⟩, _, hlast, hrun⟩ := of_run_bind hrun
  -- there are more pages than events, so the reading is not cut short
  have hlen := (scene world).log.length_ascending_le marketplace.address 0
  obtain ⟨texts, hflat, rfl, hreach, hmid⟩ := of_readLog h
    (Pager.stands_start (scene world).log marketplace.address _)
    (Nat.lt_succ_of_le (Nat.le_trans hlen (h.bound world))) hread
  obtain ⟨rfl, hfinal, hlater⟩ := of_process h hlast
  cases hrun
  refine ⟨texts, hflat, ?_, ?_⟩
  · have hall := hreach.trans hfinal
    rw [EventSet.split_true]
    exact hall
  · rw [hlater, hmid, Scene.show_show]
    rfl

-- ======================================================= the whole run

/-- The course of a run that completes: the marketplace that it finds, the
progress that it makes of the log, and the book that it stores in the end. -/
inductive Course (replayer : Replayer σ) (address : String) (world : σ)
    (marketplace : Marketplace) (progress : Progress) (book : Book)
    (later : σ) : Prop
  | intro {found replayed filled : σ} {tagged : Nat}
      (find : (replayer.services.marketplaceAt address).run world
        = (.ok (some marketplace), found))
      (replay : (replayer.replay marketplace).run found
        = (.ok progress, replayed))
      (fill : (replayer.backfill (progress.book.expire
          (replayer.services.now replayed))).run replayed
        = (.ok (tagged, book), filled))
      (store : (replayer.persist book).run filled = (.ok (), later))

/-- A replay that answers has run its course, and reports on it. -/
theorem of_rebuild_report {address : String} {report : Report}
    {world later : σ}
    (hrun : (replayer.rebuild address).run world = (.ok report, later)) :
    ∃ marketplace progress book,
      replayer.Course address world marketplace progress book later
        ∧ report.toTally = progress.tally
        ∧ report.marketplaceKey = marketplace.key
        ∧ report.auctionsPersisted = book.auctions.length
        ∧ report.ordersPersisted = book.orders.length
        ∧ report.offersPersisted = book.offers.length := by
  rw [rebuild_eq, complete] at hrun
  obtain ⟨⟨ready, book⟩, filled, hprepare, hrun⟩ := of_run_bind hrun
  obtain ⟨⟨⟩, _, hpersist, hrun⟩ := of_run_bind hrun
  cases hrun
  obtain ⟨marketplace, found, progress, replayed, hfind, hreplay, hfinish⟩ :=
    of_prepare hprepare
  obtain ⟨⟨tagged, hfill⟩, hreport⟩ := of_finish hfinish
  exact ⟨marketplace, progress, book, .intro hfind hreplay hfill hpersist,
    hreport⟩

/-- A rebuilding that answered has gone through all of its parts, and reports
what was counted on the way. -/
theorem of_rebuild {address : String} {report : Report} {world later : σ}
    (hrun : (replayer.rebuild address).run world = (.ok report, later)) :
    ∃ marketplace progress book,
      replayer.Course address world marketplace progress book later
        ∧ report.toTally = progress.tally := by
  obtain ⟨marketplace, progress, book, course, htally, -⟩ :=
    of_rebuild_report hrun
  exact ⟨marketplace, progress, book, course, htally⟩

/-- A run that completed is a rebuilding that answered. -/
theorem of_run {address : String} {report : Report} {host after : Host σ}
    (hrun : replayer.run address host = (.completed report, after)) :
    (replayer.rebuild address).run host.world = (.ok report, after.world) := by
  unfold run at hrun
  cases hlock : host.locks.tryAcquire address
      (replayer.services.lockTime host.world) with
  | none => rw [hlock] at hrun; cases hrun
  | some taken =>
      rw [hlock] at hrun
      cases hdone : (replayer.rebuild address).run host.world with
      | mk result world =>
          simp only [hdone] at hrun
          cases result with
          | ok done => cases hrun; rfl
          | error e => cases hrun

/-- Over its course a run shows all sets of the log and takes them in; what
comes after the log leaves the times of the book alone. -/
theorem Course.taken {address : String} {world later : σ}
    {marketplace : Marketplace} {progress : Progress} {book : Book}
    (course : replayer.Course address world marketplace progress book later)
    (h : replayer.services.OverLog scene) :
    ∃ texts, texts.flatten = (scene world).log.ascending address 0
      ∧ Progress.Reaches replayer.handlers ⟨.empty marketplace, .zero⟩
        (EventSet.deal texts) progress
      ∧ scene later = (scene world).show (EventSet.deal texts)
      ∧ book.timeline = progress.book.timeline := by
  obtain ⟨hfind, hreplay, hfill, hstore⟩ := course
  obtain ⟨texts, hflat, hreach, hreplayed⟩ := of_replay h hreplay
  obtain ⟨answers, hbook⟩ := of_backfill hfill
  -- the log is read in a later world, but is the one of the first
  rw [(h.marketplaceAt address).of_run hfind] at hflat hreplayed
  rw [h.address hfind] at hflat
  refine ⟨texts, hflat, hreach, ?_, ?_⟩
  · rw [(keeps_persist h book).of_run hstore,
      (keeps_backfill h.tagsOf _).of_run hfill, hreplayed]
  · rw [hbook, Book.timeline_fillTags, Book.timeline_expire]

/-- Neither a sweep nor filling in tags changes which records there are. -/
theorem roster_of_backfill {book filled : Book} {tagged : Nat} {now : Int}
    {world later : σ}
    (hfill : (replayer.backfill (book.expire now)).run world
      = (.ok (tagged, filled), later)) :
    filled.roster = book.roster := by
  obtain ⟨answers, rfl⟩ := of_backfill hfill
  rw [Book.roster_fillTags, Book.roster_expire]

/-- Neither the sweep nor the tags make or move a record. -/
theorem roster_of_finish {address : String} {marketplace : Marketplace}
    {progress : Progress} {report : Report} {book : Book} {world later : σ}
    (hrun : (replayer.finish address marketplace progress).run world
      = (.ok (report, book), later)) :
    book.roster = progress.book.roster := by
  obtain ⟨⟨tagged, hfill⟩, -⟩ := of_finish hrun
  exact roster_of_backfill hfill

/-- With the built-in handlers the sets alone tell which records the book
holds in the end. -/
theorem roster_of_fill (h : replayer.services.OverLog scene)
    (hhandlers : replayer.handlers.BuiltIn) {address : String}
    {world found replayed filled : σ} {marketplace : Marketplace}
    {progress : Progress} {book : Book} {tagged : Nat} {now : Int}
    (hfind : (replayer.services.marketplaceAt address).run world
      = (.ok (some marketplace), found))
    (hreplay : (replayer.replay marketplace).run found
      = (.ok progress, replayed))
    (hfill : (replayer.backfill (progress.book.expire now)).run replayed
      = (.ok (tagged, book), filled)) :
    ∃ texts, texts.flatten = (scene world).log.ascending address 0
      ∧ book.roster
        = EventSet.rosterOf marketplace (EventSet.deal texts) := by
  obtain ⟨texts, hflat, hreach, -⟩ := of_replay h hreplay
  rw [(h.marketplaceAt address).of_run hfind, h.address hfind] at hflat
  refine ⟨texts, hflat, ?_⟩
  rw [roster_of_backfill hfill, hreach.roster_eq hhandlers]

end MarketReplay.Replayer
