/-
Filling in tags in place.

A replay fills tags into the book that it works on. On a desk (`Desk`) the
book lies next to the services, and since the changes that a call makes before
an error stand, the desk shows what a failed call has done to the book.
`Replayer.fillIn` writes the tags there once the last request is answered; so
does `Filling.Step`, where several requests are under way at once. Neither has
written anything before, and a filling that fails never does: it leaves the
book that it found (`run_fillIn`, `FillsTo.cases`).
-/
import MarketReplay.Proofs.Run.Window
import MarketReplay.Run

namespace MarketReplay

variable {σ α β : Type}

-- ============================================================= what is made

/-- What is made of the answers to the requests. -/
def Book.fillWith (book : Book) (answers : List (List TokenTags)) :
    Nat × Book :=
  (book.fillable answers.flatten, book.fillTags answers.flatten)

/-- The book that a filling leaves behind: what it was filled to, or else the
book itself. -/
def Book.leftBy (book : Book) : Except RunError (Nat × Book) → Book
  | .ok (_, filled) => filled
  | .error _ => book

/-- Only the requests are made of the services. -/
theorem Replayer.backfill_eq (replayer : Replayer σ) (book : Book) :
    replayer.backfill book = book.fillWith <$>
      (book.tagRequests replayer.config.metadataBatchSize).mapM
        fun request => replayer.services.tagsOf request 0 :=
  (map_eq_pure_bind ..).symm

-- =========================================================== on a desk

/-- A book that is worked on, and the world of the services. -/
structure Desk (σ : Type) where
  book : Book
  world : σ

/-- A call of a service, which does not get to see the book. -/
def Call.beside (c : Call σ α) : Call (Desk σ) α :=
  ExceptT.mk fun desk =>
    let (result, world) := c.run desk.world
    (result, { desk with world })

/-- One call after another sees nothing of the book either. -/
theorem Call.beside_bind (c : Call σ α) (f : α → Call σ β) :
    (c >>= f).beside = c.beside >>= fun a => (f a).beside := by
  funext desk
  show ((c >>= f).beside).run desk = (c.beside >>= fun a => (f a).beside).run desk
  cases hrun : c.run desk.world with
  | mk result later =>
      have hbeside : c.beside.run desk = (result, { desk with world := later }) := by
        show ((c.run desk.world).1, { desk with world := (c.run desk.world).2 })
          = _
        rw [hrun]
      have hboth : ((c >>= f).beside).run desk
          = (((c >>= f).run desk.world).1,
            { desk with world := ((c >>= f).run desk.world).2 }) := rfl
      rw [hboth]
      cases result with
      | ok a =>
          rw [run_bind_ok hbeside, run_bind_ok hrun]
          rfl
      | error error => rw [run_bind_error hbeside, run_bind_error hrun]

/-- Nor do any number of calls in a row. -/
theorem Call.beside_mapM (f : α → Call σ β) (list : List α) :
    list.mapM (fun a => (f a).beside) = (list.mapM f).beside := by
  induction list with
  | nil => rfl
  | cons a list ih =>
      rw [List.mapM_cons, List.mapM_cons, ih, beside_bind]
      refine bind_congr fun b => ?_
      rw [beside_bind]
      rfl

/-- Fills tags into the book on the desk, and answers how many auctions got
some. -/
def Replayer.fillIn (replayer : Replayer σ) : Call (Desk σ) Nat := do
  let requests := (← get).book.tagRequests replayer.config.metadataBatchSize
  let answers ← requests.mapM fun request =>
    (replayer.services.tagsOf request 0).beside
  let book := (← get).book
  modify fun desk => { desk with book := book.fillTags answers.flatten }
  return book.fillable answers.flatten

/-- The desk after a filling holds the book that the filling leaves behind. -/
theorem Replayer.run_fillIn (replayer : Replayer σ) (book : Book) (world : σ) :
    let ran := (replayer.backfill book).run world
    replayer.fillIn.run ⟨book, world⟩
      = (ran.1.map Prod.fst, ⟨book.leftBy ran.1, ran.2⟩) := by
  intro ran
  let answers := (book.tagRequests replayer.config.metadataBatchSize).mapM
    fun request => replayer.services.tagsOf request 0
  have hran : ran = ((answers.run world).1.map book.fillWith,
      (answers.run world).2) := by
    unfold ran
    rw [backfill_eq, Call.run_map]
  rw [hran]
  unfold fillIn
  rw [Call.run_bind_ok (Call.run_get _)]
  dsimp only
  rw [Call.beside_mapM]
  cases hasked : answers.run world with
  | mk result later =>
      have hbeside : answers.beside.run ⟨book, world⟩
          = (result, (⟨book, later⟩ : Desk σ)) := by
        show ((answers.run world).1, (⟨book, (answers.run world).2⟩ : Desk σ)) = _
        rw [hasked]
      cases result with
      | ok collected => exact (Call.run_bind_ok hbeside _).trans rfl
      | error error => exact Call.run_bind_error hbeside _

-- ======================================================= several at once

/-- Tags that are being filled in: the book, the requests under way, and the
result once there is one. -/
structure Filling where
  book : Book
  window : Window
  result? : Option (Except RunError Nat)

namespace Filling

/-- The requests go on; when they have ended, the answers are written into the
book, or there are none. -/
inductive Step (services : Services Memory) (limit : Nat) :
    Filling → Filling → Prop
  | request {book : Book} {window next : Window}
      (step : Window.Step services limit window next) :
      Step services limit ⟨book, window, none⟩ ⟨book, next, none⟩
  | write {book : Book} {window : Window} {answers : List (List TokenTags)}
      {world : Memory} (ends : window.Ends (.ok answers) world) :
      Step services limit ⟨book, window, none⟩
        ⟨book.fillTags answers.flatten, window,
          some (.ok (book.fillable answers.flatten))⟩
  | fail {book : Book} {window : Window} {error : RunError} {world : Memory}
      (ends : window.Ends (.error error) world) :
      Step services limit ⟨book, window, none⟩
        ⟨book, window, some (.error error)⟩

end Filling

namespace Replayer

variable (replayer : Replayer Memory)

/-- The most requests that may be under way. -/
def limit : Nat := max replayer.config.metadataConcurrency 1

/-- The tags may be filled in with this result: some schedule of the requests,
with as many under way as the settings allow, comes to it. -/
def Backfills (book : Book) (memory : Memory)
    (result : Except RunError (Nat × Book)) (last : Memory) : Prop :=
  ∃ window answers,
    Relation.ReflTransGen (Window.Step replayer.services replayer.limit)
      (.start (book.tagRequests replayer.config.metadataBatchSize) memory)
      window
    ∧ window.Ends answers last ∧ result = answers.map book.fillWith

/-- The filling of a book may come to this, by some schedule. -/
def FillsTo (book : Book) (memory : Memory) (filling : Filling) : Prop :=
  Relation.ReflTransGen (Filling.Step replayer.services replayer.limit)
    ⟨book, .start (book.tagRequests replayer.config.metadataBatchSize) memory,
      none⟩ filling

variable {replayer} {book : Book} {memory : Memory}

/-- Until a filling has ended, the book is as it was; at the end it is the one
that some schedule leaves behind. -/
theorem FillsTo.cases {filling : Filling}
    (h : replayer.FillsTo book memory filling) :
    (filling.result? = none ∧ filling.book = book
        ∧ Relation.ReflTransGen (Window.Step replayer.services replayer.limit)
          (.start (book.tagRequests replayer.config.metadataBatchSize) memory)
          filling.window)
      ∨ ∃ result last, replayer.Backfills book memory result last
        ∧ filling.result? = some (result.map Prod.fst)
        ∧ filling.book = book.leftBy result := by
  induction h with
  | refl => exact .inl ⟨rfl, rfl, .refl⟩
  | tail _ hstep ih =>
      cases hstep with
      | request step =>
          obtain ⟨-, rfl, hreach⟩ | ⟨_, _, -, hresult, -⟩ := ih
          · exact .inl ⟨rfl, rfl, hreach.tail step⟩
          · cases hresult
      | @write _ window answers world ends =>
          obtain ⟨-, rfl, hreach⟩ | ⟨_, _, -, hresult, -⟩ := ih
          · exact .inr ⟨_, world, ⟨window, _, hreach, ends, rfl⟩, rfl, rfl⟩
          · cases hresult
      | @fail _ window error world ends =>
          obtain ⟨-, rfl, hreach⟩ | ⟨_, _, -, hresult, -⟩ := ih
          · exact .inr ⟨_, world, ⟨window, _, hreach, ends, rfl⟩, rfl, rfl⟩
          · cases hresult

/-- Requests go on beside a book that waits for them. -/
theorem fillsTo_of_steps {window : Window}
    (h : Relation.ReflTransGen (Window.Step replayer.services replayer.limit)
      (.start (book.tagRequests replayer.config.metadataBatchSize) memory)
      window) :
    replayer.FillsTo book memory ⟨book, window, none⟩ := by
  induction h with
  | refl => exact .refl
  | tail _ hstep ih => exact .tail ih (.request hstep)

/-- What a schedule comes to, the filling does. -/
theorem Backfills.fillsTo {result : Except RunError (Nat × Book)}
    {last : Memory} (h : replayer.Backfills book memory result last) :
    ∃ window, replayer.FillsTo book memory
      ⟨book.leftBy result, window, some (result.map Prod.fst)⟩ := by
  obtain ⟨window, answers, hreach, hends, rfl⟩ := h
  have hwaits : replayer.FillsTo book memory ⟨book, window, none⟩ :=
    fillsTo_of_steps hreach
  cases answers with
  | ok answers => exact ⟨window, hwaits.tail (.write hends)⟩
  | error error => exact ⟨window, hwaits.tail (.fail hends)⟩

variable (replayer) (book memory)

/-- Some schedule comes to a result, whatever the requests are answered. -/
theorem exists_backfills :
    ∃ result last, replayer.Backfills book memory result last := by
  have hlimit : 0 < replayer.limit :=
    Nat.lt_of_lt_of_le Nat.zero_lt_one (Nat.le_max_right ..)
  obtain ⟨window, answers, last, hreach, hends⟩ :=
    Window.exists_ends replayer.services hlimit (.start _ memory)
  exact ⟨_, last, window, answers, hreach, hends, rfl⟩

/-- In place the filling comes to this result and leaves this book behind,
whether the requests go out one after another or several at once. Before a
schedule has ended, it has not touched the book; and some schedule ends. -/
structure LeavesBook (result : Except RunError Nat) (left : Book) : Prop where
  inTurn : (replayer.fillIn.run ⟨book, memory⟩).1 = result
    ∧ (replayer.fillIn.run ⟨book, memory⟩).2.book = left
  atOnce : ∀ filling, replayer.FillsTo book memory filling →
    (filling.result? = none ∧ filling.book = book)
      ∨ (filling.result? = some result ∧ filling.book = left)
  ends : ∃ filling, replayer.FillsTo book memory filling
    ∧ filling.result? = some result

variable {replayer book memory}

/-- Where every way to make the requests has one result, the book is left by
it. -/
theorem leavesBook {result : Except RunError (Nat × Book)}
    (hrun : ((replayer.backfill book).run memory).1 = result)
    (hall : ∀ other last, replayer.Backfills book memory other last →
      other = result) :
    replayer.LeavesBook book memory (result.map Prod.fst)
      (book.leftBy result) where
  inTurn := by
    rw [run_fillIn, hrun]
    exact ⟨rfl, rfl⟩
  atOnce filling h := by
    obtain ⟨hnone, hbook, -⟩ | ⟨other, last, hfills, hresult, hbook⟩ := h.cases
    · exact .inl ⟨hnone, hbook⟩
    · rw [hall other last hfills] at hresult hbook
      exact .inr ⟨hresult, hbook⟩
  ends := by
    obtain ⟨other, last, hfills⟩ := replayer.exists_backfills book memory
    obtain rfl := hall other last hfills
    obtain ⟨window, hreach⟩ := hfills.fillsTo
    exact ⟨_, hreach, rfl⟩

end Replayer

end MarketReplay
