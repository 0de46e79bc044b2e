/-
What a replay does with event sets, apart from the services.

`Progress.Reaches` says all that can happen on the way from one progress to
another while some sets are taken in: a page is counted, a set that reports
nothing is skipped, or the actions that a set reports are dispatched in order,
each with some payment (`Registry.Dispatches`). What services answer decides
which of these runs takes place; what every run keeps is proved here, by
induction on `Reaches`, and knows nothing of calls.

Two things are kept. The tally accounts for the sets and their actions
(`Reaches.sets_counted`, `Reaches.actions_counted`), and a book lists orders
and offers in order of time if the sets come in order of time
(`Reaches.ordered`). The second needs handlers that do what the built-in ones
do to a timeline (`Registry.Orderly`), and so does the first where it counts
actions, because the marketplace of the book decides what a set reports.

With the built-in handlers the roster of the book is told by the sets alone
(`EventSet.rosterOf`, `Reaches.roster_eq`): all runs over the same sets make
the same records, whatever they are paid in, and more sets make more records
behind these.
-/
import MarketReplay.Proofs.Book.Roster
import MarketReplay.Proofs.Store.Ascending
import MarketReplay.Run

namespace MarketReplay

-- ============================================================== actions

namespace EventSet

/-- The actions that a set reports; none if it cannot be read. -/
def actions (marketplace : Marketplace) (set : List Event) :
    List ActionSummary :=
  match summarize marketplace set with
  | .ok summaries => summaries
  | .error _ => []

/-- Does the set report an action? -/
def reports (marketplace : Marketplace) (set : List Event) : Bool :=
  !(actions marketplace set).isEmpty

/-- An action has the time of the head of its set and the key of its
marketplace. -/
theorem stamp_of_summarizeLog {marketplace : Marketplace} {head : Event}
    {payment : Option (String × Nat)} {log : Event × ActionKind}
    {summary : ActionSummary}
    (h : summarizeLog marketplace head payment log = .ok summary) :
    summary.timestamp = head.timestamp
      ∧ summary.marketplaceKey = marketplace.key := by
  unfold summarizeLog at h
  cases hread : Layout.read ⟨log.1.topics⟩ log.2 with
  | error cause => rw [hread] at h; cases h
  | ok reading =>
      rw [hread] at h
      cases h
      exact ⟨rfl, rfl⟩

/-- Each result comes from an element. -/
theorem exists_of_mem_mapM {α β ε : Type} {f : α → Except ε β}
    {list : List α} {results : List β} (h : list.mapM f = .ok results) :
    ∀ b ∈ results, ∃ a ∈ list, f a = .ok b := by
  induction list generalizing results with
  | nil =>
      rw [List.mapM_nil] at h
      cases h
      simp
  | cons a list ih =>
      rw [List.mapM_cons] at h
      cases hfirst : f a with
      | error e => rw [hfirst] at h; cases h
      | ok first =>
          cases hrest : list.mapM f with
          | error e => rw [hfirst, hrest] at h; cases h
          | ok rest =>
              rw [hfirst, hrest] at h
              cases h
              intro b hb
              rcases List.mem_cons.1 hb with rfl | hb
              · exact ⟨a, List.mem_cons_self, hfirst⟩
              · obtain ⟨c, hc, hfc⟩ := ih hrest b hb
                exact ⟨c, List.mem_cons_of_mem a hc, hfc⟩

/-- A failure comes from an element. -/
theorem exists_of_mapM_error {α β ε : Type} {f : α → Except ε β}
    {list : List α} {error : ε} (h : list.mapM f = .error error) :
    ∃ a ∈ list, f a = .error error := by
  induction list with
  | nil => cases h
  | cons a list ih =>
      rw [List.mapM_cons] at h
      cases hfirst : f a with
      | error e =>
          rw [hfirst] at h
          cases h
          exact ⟨a, List.mem_cons_self, hfirst⟩
      | ok b =>
          cases hrest : list.mapM f with
          | ok rest => rw [hfirst, hrest] at h; cases h
          | error e =>
              rw [hfirst, hrest] at h
              cases h
              obtain ⟨c, hc, hfc⟩ := ih hrest
              exact ⟨c, List.mem_cons_of_mem a hc, hfc⟩

/-- Each action is of the time of the first event of its set, and of the
marketplace. -/
theorem stamp_of_mem_actions {marketplace : Marketplace}
    {set : List Event} {summary : ActionSummary}
    (h : summary ∈ actions marketplace set) :
    ∃ head, set.head? = some head ∧ summary.timestamp = head.timestamp
      ∧ summary.marketplaceKey = marketplace.key := by
  unfold actions summarize at h
  cases set with
  | nil => cases h
  | cons head tail =>
      refine ⟨head, rfl, ?_⟩
      dsimp only at h
      split at h
      next summaries heq =>
        split at heq
        · cases heq
        · obtain ⟨log, -, hlog⟩ := exists_of_mem_mapM heq summary h
          exact stamp_of_summarizeLog hlog
      next => cases h

/-- The actions of sets that begin in order of time are in order of time. -/
theorem actions_chronological (marketplace : Marketplace)
    {sets : List (List Event)}
    (h : Chronological (sets.filterMap List.head?)) :
    ((sets.flatMap (actions marketplace)).map (·.timestamp)).Pairwise
      (· ≤ ·) := by
  induction sets with
  | nil => exact List.Pairwise.nil
  | cons set sets ih =>
      cases set with
      | nil => exact ih h
      | cons head tail =>
          -- the actions of one set share its time; those of later sets follow
          obtain ⟨hhead, hrest⟩ := List.pairwise_cons.1 h
          have htime : ∀ summary ∈ actions marketplace (head :: tail),
              summary.timestamp = head.timestamp := by
            intro summary hmem
            obtain ⟨_, hfirst, htime, -⟩ := stamp_of_mem_actions hmem
            cases hfirst
            exact htime
          rw [List.flatMap_cons, List.map_append]
          refine List.pairwise_append.2 ⟨?_, ih hrest, ?_⟩
          · rw [List.map_eq_replicate_iff.2 htime]
            exact List.pairwise_replicate.2 (.inr (Int.le_refl _))
          · intro time hmem later hlater
            obtain ⟨summary, hsummary, rfl⟩ := List.mem_map.1 hmem
            obtain ⟨other, hother, rfl⟩ := List.mem_map.1 hlater
            obtain ⟨set, hset, hother⟩ := List.mem_flatMap.1 hother
            obtain ⟨first, hfirst, heq, -⟩ := stamp_of_mem_actions hother
            rw [htime summary hsummary, heq]
            exact hhead first (List.mem_filterMap.2 ⟨set, hset, hfirst⟩)

end EventSet

-- ============================================================= handling

namespace Registry

/-- The book after some actions, each handled with some payment. -/
inductive Dispatches (registry : Registry) :
    Book → List ActionSummary → Book → Prop
  | nil (book : Book) : Dispatches registry book [] book
  | cons {book next after : Book} {summary : ActionSummary}
      {rest : List ActionSummary} {payment : Payment}
      (step : registry.dispatch book summary payment = .ok next)
      (run : Dispatches registry next rest after) :
      Dispatches registry book (summary :: rest) after

/-- Every handler leaves the timeline of a book alone, or adds the time of
its action behind the orders or the offers. -/
def Orderly (registry : Registry) : Prop :=
  ∀ handler ∈ registry.handlers, ∀ (book : Book) summary payment,
    book.timeline.Step summary.timestamp
      (handler.apply book summary payment).timeline

/-- The built-in handlers do. -/
theorem BuiltIn.orderly {registry : Registry} (h : registry.BuiltIn) :
    registry.Orderly := by
  intro handler hmem book summary payment
  obtain ⟨kind, rfl⟩ := h handler hmem
  exact Handler.timeline_apply kind book summary payment

/-- The standard handlers are the built-in ones, and so orderly. -/
theorem orderly_standard : standard.Orderly := builtIn_standard.orderly

variable {registry : Registry}

/-- A dispatch leaves the timeline alone, or adds the time of the action. -/
theorem Orderly.dispatch (h : registry.Orderly) {book next : Book}
    {summary : ActionSummary} {payment : Payment}
    (hnext : registry.dispatch book summary payment = .ok next) :
    book.timeline.Step summary.timestamp next.timeline := by
  unfold Registry.dispatch at hnext
  cases hget : registry.get? summary.kind with
  | none => rw [hget] at hnext; cases hnext
  | some handler =>
      rw [hget] at hnext
      cases hnext
      exact h handler (List.mem_of_find?_eq_some hget) book summary payment

namespace Dispatches

variable {book after : Book} {actions : List ActionSummary}

/-- Dispatches do not move a book to another marketplace. -/
theorem marketplace_eq (h : registry.Orderly)
    (run : registry.Dispatches book actions after) :
    after.marketplace = book.marketplace := by
  induction run with
  | nil book => rfl
  | cons step run ih => exact ih.trans (h.dispatch step).marketplace_eq

/-- Actions in order of time leave a book in order of time, and ready for
actions that are not earlier. -/
theorem ordered (h : registry.Orderly)
    (run : registry.Dispatches book actions after) {now : Int}
    (hbook : book.timeline.Ordered now) {later : List Int}
    (htimes : (now :: (actions.map (·.timestamp) ++ later)).Pairwise (· ≤ ·)) :
    ∃ last, after.timeline.Ordered last
      ∧ (last :: later).Pairwise (· ≤ ·) := by
  induction run generalizing now with
  | nil book => exact ⟨now, hbook, htimes⟩
  | cons step run ih =>
      obtain ⟨hnow, hrest⟩ := List.pairwise_cons.1 htimes
      exact ih (hbook.step (hnow _ List.mem_cons_self) (h.dispatch step)) hrest

/-- The built-in handlers make of the roster what the actions say. -/
theorem roster_eq (h : registry.BuiltIn)
    (run : registry.Dispatches book actions after) :
    after.roster
      = actions.foldl (Roster.take book.marketplace.lookup) book.roster := by
  induction run with
  | nil book => rfl
  | @cons book next after summary rest payment step run ih =>
      have hmarketplace : next.marketplace = book.marketplace :=
        (h.orderly.dispatch step).marketplace_eq
      rw [List.foldl_cons, ← h.roster_dispatch step, ← hmarketplace]
      exact ih

end Dispatches

end Registry

-- ========================================================= the records

namespace EventSet

/-- The roster that the actions of some sets make. -/
def rosterOf (marketplace : Marketplace) (sets : List (List Event)) : Roster :=
  (sets.flatMap (actions marketplace)).foldl (Roster.take marketplace.lookup)
    (Book.empty marketplace).roster

variable {marketplace : Marketplace} {sets : List (List Event)}

/-- All actions that are reported to a marketplace are its own. -/
theorem marketplaceKey_of_mem_flatMap {summary : ActionSummary}
    (h : summary ∈ sets.flatMap (actions marketplace)) :
    summary.marketplaceKey = marketplace.key := by
  obtain ⟨set, -, hmem⟩ := List.mem_flatMap.1 h
  obtain ⟨head, -, -, hkey⟩ := stamp_of_mem_actions hmem
  exact hkey

/-- The roster that sets tell of is sound. -/
theorem sound_rosterOf : (rosterOf marketplace sets).Sound :=
  Roster.foldl_take (fun _ => marketplaceKey_of_mem_flatMap)
    (fun _ _ h hs => h.step hs) _ (Book.sound_empty marketplace)

/-- The roster that sets tell of has records of the marketplace only. -/
theorem carries_rosterOf :
    (rosterOf marketplace sets).Carries marketplace.key := by
  refine Roster.foldl_take (fun _ => marketplaceKey_of_mem_flatMap)
    (fun _ _ h hs => h.step hs) _ ⟨?_, ?_, ?_⟩ <;> simp [Book.roster, Book.empty]

/-- More sets add their records behind those that are there. -/
theorem rosterOf_begins (more : List (List Event)) :
    (rosterOf marketplace sets).Begins (rosterOf marketplace (sets ++ more)) := by
  unfold rosterOf
  rw [List.flatMap_append, List.foldl_append]
  exact Roster.foldl_take (fun _ => marketplaceKey_of_mem_flatMap)
    (fun _ _ h hs => h.trans hs.begins) _ (.refl _)

end EventSet

-- ============================================================= progress

namespace Progress

variable (progress : Progress)

def countPage (fetched : Nat) : Progress :=
  { progress with
    tally := { progress.tally with
      pagesFetched := progress.tally.pagesFetched + 1
      eventsRead := progress.tally.eventsRead + fetched } }

def skipSet : Progress :=
  { progress with
    tally := { progress.tally with
      setsSkipped := progress.tally.setsSkipped + 1 } }

def takeSet (book : Book) (actions : Nat) : Progress where
  book
  tally := { progress.tally with
    setsDispatched := progress.tally.setsDispatched + 1
    actionsDispatched := progress.tally.actionsDispatched + actions }

/-- What can happen while some sets are taken in. -/
inductive Reaches (registry : Registry) :
    Progress → List (List Event) → Progress → Prop
  | refl (progress : Progress) : Reaches registry progress [] progress
  | page {before after : Progress} {sets : List (List Event)} (fetched : Nat)
      (run : Reaches registry (before.countPage fetched) sets after) :
      Reaches registry before sets after
  | skip {before after : Progress} {set : List Event}
      {sets : List (List Event)}
      (none : EventSet.actions before.book.marketplace set = [])
      (run : Reaches registry before.skipSet sets after) :
      Reaches registry before (set :: sets) after
  | take {before after : Progress} {book : Book} {set : List Event}
      {sets : List (List Event)}
      (reported : EventSet.actions before.book.marketplace set ≠ [])
      (deeds : registry.Dispatches before.book
        (EventSet.actions before.book.marketplace set) book)
      (run : Reaches registry (before.takeSet book
        (EventSet.actions before.book.marketplace set).length) sets after) :
      Reaches registry before (set :: sets) after

namespace Reaches

variable {registry : Registry} {before middle after : Progress}
  {sets more : List (List Event)}

/-- What is reached in two parts is reached. -/
theorem trans (first : Reaches registry before sets middle)
    (second : Reaches registry middle more after) :
    Reaches registry before (sets ++ more) after := by
  induction first with
  | refl _ => exact second
  | page fetched _ ih => exact .page fetched (ih second)
  | skip none _ ih => exact .skip none (ih second)
  | take reported deeds _ ih => exact .take reported deeds (ih second)

/-- Every set is dispatched or skipped, and no event is dropped. -/
theorem sets_counted (run : Reaches registry before sets after) :
    after.tally.setsDispatched + after.tally.setsSkipped
        = before.tally.setsDispatched + before.tally.setsSkipped + sets.length
      ∧ after.tally.eventsDropped = before.tally.eventsDropped := by
  induction run with
  | refl _ => exact ⟨rfl, rfl⟩
  | page fetched _ ih => exact ih
  | skip none _ ih =>
      obtain ⟨hsets, hdropped⟩ := ih
      refine ⟨?_, hdropped⟩
      dsimp only [skipSet] at hsets
      rw [hsets, List.length_cons]
      omega
  | take reported deeds _ ih =>
      obtain ⟨hsets, hdropped⟩ := ih
      refine ⟨?_, hdropped⟩
      dsimp only [takeSet] at hsets
      rw [hsets, List.length_cons]
      omega

/-- The sets counted as dispatched are those that report something, and the
actions counted are what they report. -/
theorem actions_counted (h : registry.Orderly)
    (run : Reaches registry before sets after) :
    after.tally.setsDispatched = before.tally.setsDispatched
        + sets.countP (EventSet.reports before.book.marketplace)
      ∧ after.tally.actionsDispatched = before.tally.actionsDispatched
        + (sets.flatMap (EventSet.actions before.book.marketplace)).length := by
  induction run with
  | refl _ => exact ⟨rfl, rfl⟩
  | page fetched _ ih => exact ih
  | skip none _ ih =>
      rw [List.flatMap_cons, none, List.nil_append,
        List.countP_cons_of_neg (by simp [EventSet.reports, none])]
      exact ih
  | take reported deeds _ ih =>
      obtain ⟨hsets, hactions⟩ := ih
      rw [takeSet, deeds.marketplace_eq h] at hsets hactions
      rw [List.flatMap_cons, List.length_append, hactions, hsets,
        List.countP_cons_of_pos (by simpa [EventSet.reports] using reported)]
      dsimp only
      omega

/-- Taking sets in does not move a book to another marketplace. -/
theorem marketplace_eq (h : registry.Orderly)
    (run : Reaches registry before sets after) :
    after.book.marketplace = before.book.marketplace := by
  induction run with
  | refl _ => rfl
  | page fetched _ ih => exact ih
  | skip none _ ih => exact ih
  | take reported deeds _ ih => exact ih.trans (deeds.marketplace_eq h)

/-- The roster takes the actions that the sets report, one after another. -/
theorem roster_eq_foldl (h : registry.BuiltIn)
    (run : Reaches registry before sets after) :
    after.book.roster
      = (sets.flatMap (EventSet.actions before.book.marketplace)).foldl
        (Roster.take before.book.marketplace.lookup) before.book.roster := by
  induction run with
  | refl _ => rfl
  | page fetched _ ih => exact ih
  | skip none _ ih =>
      rw [List.flatMap_cons, none, List.nil_append]
      exact ih
  | take reported deeds _ ih =>
      rw [takeSet, deeds.marketplace_eq h.orderly] at ih
      rw [List.flatMap_cons, List.foldl_append, ← deeds.roster_eq h]
      exact ih

/-- The records of a fresh book are told by the sets. -/
theorem roster_eq {marketplace : Marketplace} {tally : Tally}
    (h : registry.BuiltIn)
    (run : Reaches registry ⟨.empty marketplace, tally⟩ sets after) :
    after.book.roster = EventSet.rosterOf marketplace sets :=
  run.roster_eq_foldl h

/-- Sets in order of time leave a book in order of time. -/
theorem ordered (h : registry.Orderly)
    (run : Reaches registry before sets after) {now : Int}
    (hbook : before.book.timeline.Ordered now)
    (htimes : (now :: (sets.flatMap
      (EventSet.actions before.book.marketplace)).map (·.timestamp)).Pairwise
        (· ≤ ·)) :
    ∃ last, after.book.timeline.Ordered last := by
  induction run generalizing now with
  | refl _ => exact ⟨now, hbook⟩
  | page fetched _ ih => exact ih hbook htimes
  | skip none _ ih =>
      rw [List.flatMap_cons, none, List.nil_append] at htimes
      exact ih hbook htimes
  | take reported deeds _ ih =>
      rw [List.flatMap_cons, List.map_append] at htimes
      obtain ⟨last, hafter, hlater⟩ := deeds.ordered h hbook htimes
      -- the sets to come are read for the marketplace that the book has now
      refine ih hafter ?_
      rw [takeSet, deeds.marketplace_eq h]
      exact hlater

/-- So do they with a fresh book, whatever their first time is. -/
theorem ordered_of_empty {marketplace : Marketplace} {tally : Tally}
    (h : registry.Orderly)
    (run : Reaches registry ⟨.empty marketplace, tally⟩ sets after)
    (htimes : ((sets.flatMap
      (EventSet.actions marketplace)).map (·.timestamp)).Pairwise (· ≤ ·)) :
    ∃ last, after.book.timeline.Ordered last := by
  obtain ⟨now, hnow⟩ := Timeline.exists_start htimes
  exact run.ordered h (Book.ordered_empty marketplace now) hnow

end Reaches

end Progress

end MarketReplay
