/-
Replays that do not complete.

A replay that fails has failed in one of two stretches. Before the storing
nothing was handed to the sink (`watched_prepare`), so a failure there leaves
no record behind. The storing has three steps, each of which needs the one
before (`Sink.Fails`): where the auctions are refused, or not numbered one by
one, neither orders nor offers are handed over. Whatever the end, the lock is
given up, and no other lock was touched (`release_of_tryAcquire`).

What was called is read off the watched replay; that it ends as the replay
itself does is part of the result.
-/
import MarketReplay.Proofs.Run.Unpaged
import MarketReplay.Proofs.Run.Watched

namespace MarketReplay

variable {σ : Type}

-- ================================================================ the lock

/-- Giving up a lock that was just taken leaves the locks as they were. -/
theorem Locks.release_of_tryAcquire {τ : Type} {locks taken : Locks τ} {name : String}
    {now : τ} {guard : Guard τ}
    (h : locks.tryAcquire name now = some (guard, taken)) :
    taken.release guard = locks := by
  unfold tryAcquire at h
  split at h
  case isTrue => cases h
  case isFalse hfree =>
    cases h
    have hothers : ∀ other ∈ locks.guards, (other.name != name) = true := by
      intro other hmem
      rw [bne_iff_ne]
      rintro rfl
      exact hfree (List.find?_isSome.2 ⟨other, hmem, beq_self_eq_true _⟩)
    unfold release
    dsimp only
    rw [List.filter_cons_of_neg (by simp), List.filter_eq_self.2 hothers]

-- ============================================================= the storing

/-- The storing of a book fails, after these calls of the sink. -/
inductive Sink.Fails (sink : Sink σ) (book : Book) (world : σ) (error : RunError) :
    List ServiceCall → Prop
  /-- The auctions are refused. -/
  | auctions {later : σ}
      (hsave : (sink.saveAuctions book.auctions).run world = (.error error, later)) :
      Fails sink book world error [.saveAuctions book.auctions]
  /-- The auctions and their numbers do not pair up. -/
  | count {ids : List Int} {listed : σ}
      (hsave : (sink.saveAuctions book.auctions).run world = (.ok ids, listed))
      (hcount : ids.length ≠ book.auctions.length)
      (herror : error = .persistence (.idCount ids.length book.auctions.length)) :
      Fails sink book world error [.saveAuctions book.auctions]
  /-- An order refers to no auction of the book. -/
  | binding {ids : List Int} {listed : σ}
      (hsave : (sink.saveAuctions book.auctions).run world = (.ok ids, listed))
      (hcount : ids.length = book.auctions.length)
      (hbind : book.orders.mapM (Order.bind ids) = .error error) :
      Fails sink book world error [.saveAuctions book.auctions]
  /-- The orders are refused. -/
  | orders {ids : List Int} {listed later : σ} {orders : List Order}
      (hsave : (sink.saveAuctions book.auctions).run world = (.ok ids, listed))
      (hcount : ids.length = book.auctions.length)
      (hbind : book.orders.mapM (Order.bind ids) = .ok orders)
      (horders : (sink.saveOrders orders).run listed = (.error error, later)) :
      Fails sink book world error [.saveAuctions book.auctions, .saveOrders orders]
  /-- The offers are refused. -/
  | offers {ids : List Int} {listed ordered later : σ} {orders : List Order}
      (hsave : (sink.saveAuctions book.auctions).run world = (.ok ids, listed))
      (hcount : ids.length = book.auctions.length)
      (hbind : book.orders.mapM (Order.bind ids) = .ok orders)
      (horders : (sink.saveOrders orders).run listed = (.ok (), ordered))
      (hoffers : (sink.saveOffers book.offers).run ordered = (.error error, later)) :
      Fails sink book world error
        [.saveAuctions book.auctions, .saveOrders orders, .saveOffers book.offers]

theorem Sink.Fails.filter {sink : Sink σ} {book : Book} {world : σ} {error : RunError}
    {stored : List ServiceCall} (h : sink.Fails book world error stored) :
    stored.filter (·.isStoring) = stored := by
  cases h <;> rfl

/-- The orders of a book under the numbers that its auctions got, if these
pair up. -/
def Book.bindOrders (book : Book) (ids : List Int) : Except RunError (List Order) :=
  if ids.length ≠ book.auctions.length then
    .error (.persistence (.idCount ids.length book.auctions.length))
  else book.orders.mapM (Order.bind ids)

theorem Book.bindOrders_of_ne {book : Book} {ids : List Int}
    (h : ids.length ≠ book.auctions.length) :
    book.bindOrders ids
      = .error (.persistence (.idCount ids.length book.auctions.length)) :=
  if_pos h

theorem Book.bindOrders_of_eq {book : Book} {ids : List Int}
    (h : ids.length = book.auctions.length) :
    book.bindOrders ids = book.orders.mapM (Order.bind ids) :=
  if_neg (not_not_intro h)

namespace Replayer

variable (replayer : Replayer σ)

theorem persist_eq (book : Book) :
    replayer.persist book = (do
      let ids ← replayer.services.sink.saveAuctions book.auctions
      let orders ← (book.bindOrders ids : Except RunError (List Order))
      replayer.services.sink.saveOrders orders
      replayer.services.sink.saveOffers book.offers) := by
  unfold persist Book.bindOrders
  refine bind_congr fun ids => ?_
  dsimp only
  split <;> rfl

theorem watched_persist_eq (book : Book) :
    replayer.watched.persist book = (do
      let sink := replayer.services.sink
      let ids ← (sink.saveAuctions book.auctions).noted (.saveAuctions book.auctions)
      let orders ← (book.bindOrders ids : Except RunError (List Order))
      (sink.saveOrders orders).noted (.saveOrders orders)
      (sink.saveOffers book.offers).noted (.saveOffers book.offers)) :=
  replayer.watched.persist_eq book

/-- The storing ends alike whether it is watched or not. -/
theorem watched_persist {book : Book} {world later : σ}
    {result : Except RunError Unit}
    (hrun : (replayer.persist book).run world = (result, later))
    (calls : List ServiceCall) :
    ∃ stored, (replayer.watched.persist book).run ⟨world, calls⟩
        = (result, ⟨later, calls ++ stored⟩)
      ∧ ∀ error, result = .error error →
        replayer.services.sink.Fails book world error stored := by
  rw [persist_eq] at hrun
  rw [watched_persist_eq]
  dsimp only
  rcases Call.run_bind_cases hrun with ⟨error, hsave, rfl⟩ | ⟨ids, listed, hsave, hrun⟩
  case inl =>
    rw [Call.run_bind_error (Call.run_noted hsave calls)]
    refine ⟨_, rfl, ?_⟩
    rintro _ ⟨⟩
    exact .auctions hsave
  rw [Call.run_bind_ok (Call.run_noted hsave calls)]
  -- the numbers must be as many as the auctions before orders are bound
  by_cases hcount : ids.length = book.auctions.length
  case neg =>
    rw [Book.bindOrders_of_ne hcount] at hrun ⊢
    cases hrun
    refine ⟨_, rfl, ?_⟩
    rintro _ ⟨⟩
    exact .count hsave hcount rfl
  rw [Book.bindOrders_of_eq hcount] at hrun ⊢
  cases hbind : book.orders.mapM (Order.bind ids) with
  | error error =>
    rw [hbind] at hrun
    cases hrun
    refine ⟨_, rfl, ?_⟩
    rintro _ ⟨⟩
    exact .binding hsave hcount hbind
  | ok orders =>
    rw [hbind, Call.run_bind_ok (Call.run_liftM _ _)] at hrun
    rw [Call.run_bind_ok (Call.run_liftM _ _)]
    -- the orders may fail; the offers end it one way or the other
    rcases Call.run_bind_cases hrun with ⟨error, horders, rfl⟩ |
      ⟨⟨⟩, ordered, horders, hoffers⟩
    · rw [Call.run_bind_error (Call.run_noted horders _), List.append_assoc]
      refine ⟨_, rfl, ?_⟩
      rintro _ ⟨⟩
      exact .orders hsave hcount hbind horders
    · rw [Call.run_bind_ok (Call.run_noted horders _), Call.run_noted hoffers,
        List.append_assoc, List.append_assoc]
      refine ⟨_, rfl, ?_⟩
      rintro error rfl
      exact .offers hsave hcount hbind horders hoffers

-- ========================================================== the whole run

/-- A replay fails, after these calls of the sink. -/
inductive Fails (replayer : Replayer σ) (address : String) (world : σ)
    (error : RunError) : List ServiceCall → Prop
  /-- Before the storing: the registry does not answer or does not know the
  address, a page or a token or tags could not be fetched, an action is not in
  the vocabulary or has no handler. -/
  | unprepared {later : σ}
      (hprepare : (replayer.prepare replayer.replay address).run world
        = (.error error, later)) :
      Fails replayer address world error []
  | unstored {report : Report} {book : Book} {mid : σ} {stored : List ServiceCall}
      (hprepare : (replayer.prepare replayer.replay address).run world
        = (.ok (report, book), mid))
      (hstore : replayer.services.sink.Fails book mid error stored) :
      Fails replayer address world error stored

/-- A rebuild ends alike whether it is watched or not, and fails only in the
ways above. -/
theorem watched_rebuild {address : String} {world later : σ}
    {result : Except RunError Report}
    (hrun : (replayer.rebuild address).run world = (result, later)) :
    ∃ calls, (replayer.watched.rebuild address).run ⟨world, []⟩
        = (result, ⟨later, calls⟩)
      ∧ ∀ error, result = .error error →
        replayer.Fails address world error (calls.filter (·.isStoring)) := by
  rw [rebuild_eq, complete] at hrun ⊢
  have hagree := replayer.watched_prepare address ⟨world, []⟩ world ⟨rfl, rfl⟩
  cases hwatched : (replayer.watched.prepare replayer.watched.replay
    address).run ⟨world, []⟩ with
  | mk first reached =>
  rw [hwatched] at hagree
  rcases Call.run_bind_cases hrun with ⟨error, hprepare, rfl⟩ |
    ⟨⟨report, book⟩, mid, hprepare, hrun⟩
  · rw [hprepare] at hagree
    cases hagree with
    | error _ hworlds =>
      obtain ⟨rfl, hstored⟩ := hworlds
      rw [Call.run_bind_error hwatched]
      refine ⟨reached.calls, rfl, ?_⟩
      rintro _ ⟨⟩
      rw [show reached.calls.filter (·.isStoring) = [] from hstored]
      exact .unprepared hprepare
  · rw [hprepare] at hagree
    cases hagree with
    | ok hanswer hworlds =>
      subst hanswer
      obtain ⟨rfl, hstored⟩ := hworlds
      rw [Call.run_bind_ok hwatched]
      rcases Call.run_bind_cases hrun with ⟨error, hpersist, rfl⟩ |
        ⟨⟨⟩, after, hpersist, hrun⟩
      · obtain ⟨stored, hrun, hfails⟩ := replayer.watched_persist hpersist reached.calls
        refine ⟨reached.calls ++ stored, Call.run_bind_error hrun _, ?_⟩
        rintro _ ⟨⟩
        have hfails := hfails error rfl
        rw [List.filter_append, hfails.filter,
          show reached.calls.filter (·.isStoring) = [] from hstored]
        exact .unstored hprepare hfails
      · cases hrun
        obtain ⟨stored, hrun, -⟩ := replayer.watched_persist hpersist reached.calls
        refine ⟨reached.calls ++ stored, Call.run_bind_ok hrun _, ?_⟩
        rintro _ ⟨⟩

/-- However a replay ends, the locks are those that were held before. -/
theorem locks_run (address : String) (host : Host σ) :
    (replayer.run address host).2.locks = host.locks := by
  unfold run
  split
  · rfl
  · next guard taken htaken => exact Locks.release_of_tryAcquire htaken

theorem run_of_locked (host : Host σ) {address : String}
    (h : host.locks.isLocked address = true) :
    replayer.run address host = (.alreadyRunning, host) :=
  (replayer.run_eq address host).trans (guarded_of_locked h)

/-- A replay under a lock that is held is refused, and nothing is called. Any
other either completes or fails as said above; watching it changes nothing of
that. In every case the locks are afterwards those that were held before. -/
theorem run_aborted (address : String) (host : Host σ) :
    let ran := replayer.run address host
    let watched := replayer.watched.run address ⟨host.locks, ⟨host.world, []⟩⟩
    watched.1 = ran.1 ∧ watched.2.world.world = ran.2.world
      ∧ ran.2.locks = host.locks
      ∧ (ran.1 = .alreadyRunning ↔ host.locks.isLocked address = true)
      ∧ (ran.1 = .alreadyRunning → ran.2 = host ∧ watched.2.world.calls = [])
      ∧ ∀ error, ran.1 = .failed error →
        replayer.Fails address host.world error watched.2.world.stored := by
  intro ran watched
  cases hfree : host.locks.isLocked address with
  | true =>
    have hran : ran = (.alreadyRunning, host) := run_of_locked replayer host hfree
    have hwatched : watched = (.alreadyRunning, ⟨host.locks, ⟨host.world, []⟩⟩) :=
      run_of_locked replayer.watched _ hfree
    rw [hran, hwatched]
    exact ⟨rfl, rfl, rfl, ⟨fun _ => rfl, fun _ => rfl⟩, fun _ => ⟨rfl, rfl⟩, nofun⟩
  | false =>
    cases hrun : (replayer.rebuild address).run host.world with
    | mk result later =>
    obtain ⟨calls, hcalls, hfails⟩ := replayer.watched_rebuild hrun
    obtain ⟨hran, hworld⟩ := guarded_of_free replayer host hfree hrun
    obtain ⟨hwatched, hseen⟩ :=
      guarded_of_free replayer.watched ⟨host.locks, ⟨host.world, []⟩⟩ hfree hcalls
    have hran : ran.1 = .ofResult result := hran
    have hseen : watched.2.world = ⟨later, calls⟩ := hseen
    have hnot : ran.1 ≠ .alreadyRunning := by
      rw [hran]
      cases result <;> nofun
    refine ⟨hwatched.trans hran.symm, ?_, replayer.locks_run address host,
      ⟨fun h => absurd h hnot, nofun⟩, fun h => absurd h hnot, ?_⟩
    · rw [hseen]
      exact hworld.symm
    · intro error herror
      rw [hseen]
      refine hfails error ?_
      rw [hran] at herror
      cases result with
      | ok report => cases herror
      | error other =>
        cases herror
        rfl

-- An address that the registry does not know ends a replay at its first call.
example :
    let run := (Sample.replayer 2).watched.run "nowhere"
      ⟨.empty, ⟨Sample.memory, []⟩⟩
    run.1 = .failed (.marketplaceNotFound "nowhere")
      ∧ run.2.world.calls = [.marketplaceAt "nowhere"] :=
  ⟨rfl, rfl⟩

end Replayer

end MarketReplay
