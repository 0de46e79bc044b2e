/-
A whole reading of a log, by a store that fails now and then.

A caller asks the pager for one page after another and goes on after a
failure; `EventLog.serve` is a store that answers pages of a log except in
the calls that `fault?` names, and counts the calls it gets. `Pager.session`
is what such calls come to, and `session_eq_pages` says all there is to say
of the failures among them: they cost calls and nothing else, so the pages
handed out are the first ones of the log, with the pager right behind them.
What is true of the pages of a log (`Paging`) is then true of every session.
-/
import MarketReplay.Proofs.Run.Call
import MarketReplay.Proofs.Store.Paging

namespace MarketReplay

/-- The answer of a store to a request for a page, unless the call is one
that fails; the state counts the calls. -/
def EventLog.serve (log : EventLog) (fault? : Nat → Option RunError)
    (request : PageRequest) : Call Nat (List Event) := do
  let asked ← get
  set (asked + 1)
  match fault? asked with
  | some error => throw error
  | none => return log.page request

/-- What some calls of a pager in a row came to. -/
structure Session where
  /-- The pages handed out. -/
  pages : List Page
  /-- The pager after the calls. -/
  pager : Pager
  /-- How many calls the store got. -/
  asked : Nat

namespace Pager

variable (log : EventLog) (fault? : Nat → Option RunError)

/-- Some calls of a pager in a row; after one that failed, the next starts
from where the pager was. -/
def session : Nat → Pager → Nat → Session
  | 0, pager, asked => ⟨[], pager, asked⟩
  | calls + 1, pager, asked =>
      match (pager.next (log.serve fault?)).run asked with
      | (.ok (page, pager), asked) =>
          let rest := session calls pager asked
          { rest with pages := page :: rest.pages }
      | (.error _, asked) => session calls pager asked

-- ============================================================= one call

/-- An exhausted pager answers without the store. -/
theorem next_exhausted {pager : Pager} (h : pager.exhausted = true)
    (asked : Nat) :
    (pager.next (log.serve fault?)).run asked
      = (.ok (⟨[], 0, true⟩, pager), asked) := by
  unfold next request?
  rw [if_pos h]
  rfl

/-- A call takes the pager one turn on, or else is one that fails. -/
theorem next_serve (pager : Pager) (asked : Nat) :
    (∃ later, (pager.next (log.serve fault?)).run asked
        = (.ok (pager.turn log), later))
      ∨ ∃ error later, fault? asked = some error
        ∧ (pager.next (log.serve fault?)).run asked
          = (.error error, later) := by
  unfold next turn EventLog.serve
  cases pager.request? with
  | none => exact .inl ⟨asked, rfl⟩
  | some request =>
      cases hfault : fault? asked with
      | some error =>
          refine .inr ⟨error, asked + 1, rfl, Call.run_bind_error ?_ _⟩
          rw [Call.run_bind_ok (Call.run_get asked),
            Call.run_bind_ok (Call.run_set asked _), hfault]
          rfl
      | none =>
          refine .inl ⟨asked + 1, Call.run_bind_ok ?_ _⟩
          rw [Call.run_bind_ok (Call.run_get asked),
            Call.run_bind_ok (Call.run_set asked _), hfault]
          rfl

variable {log fault?}

theorem session_ok {pager : Pager} {asked later : Nat} {turned : Page × Pager}
    (h : (pager.next (log.serve fault?)).run asked = (.ok turned, later))
    (calls : Nat) :
    pager.session log fault? (calls + 1) asked
      = { turned.2.session log fault? calls later with
          pages := turned.1 :: (turned.2.session log fault? calls later).pages } := by
  rw [session, h]

theorem session_error {pager : Pager} {asked later : Nat} {error : RunError}
    (h : (pager.next (log.serve fault?)).run asked = (.error error, later))
    (calls : Nat) :
    pager.session log fault? (calls + 1) asked
      = pager.session log fault? calls later := by
  rw [session, h]

-- ============================================================ all calls

variable (log fault?)

/-- A session hands out the first pages of the log, as many as calls
succeeded. -/
theorem session_eq_pages (calls : Nat) (pager : Pager) (asked : Nat) :
    ∃ count ≤ calls,
      (pager.session log fault? calls asked).pages = pager.pages log count
        ∧ (pager.session log fault? calls asked).pager
          = pager.after log count := by
  induction calls generalizing pager asked with
  | zero => exact ⟨0, Nat.le_refl 0, rfl, rfl⟩
  | succ calls ih =>
      rcases next_serve log fault? pager asked with ⟨later, h⟩ | ⟨_, later, -, h⟩
      · obtain ⟨count, hle, hpages, hpager⟩ := ih (pager.turn log).2 later
        rw [session_ok h]
        refine ⟨count + 1, by omega, ?_, hpager⟩
        rw [pages, ← hpages]
      · obtain ⟨count, hle, hpages, hpager⟩ := ih pager later
        rw [session_error h]
        exact ⟨count, by omega, hpages, hpager⟩

/-- A store that never fails hands out a page in every call. -/
theorem session_faultless (calls : Nat) (pager : Pager) (asked : Nat) :
    (pager.session log (fun _ => none) calls asked).pages
      = pager.pages log calls := by
  induction calls generalizing pager asked with
  | zero => rfl
  | succ calls ih =>
      rcases next_serve log (fun _ => none) pager asked with
        ⟨later, h⟩ | ⟨_, _, hfault, -⟩
      · rw [session_ok h, pages, ih]
      · cases hfault

/-- Sessions add up. -/
theorem session_add (calls more : Nat) (pager : Pager) (asked : Nat) :
    let first := pager.session log fault? calls asked
    let second := first.pager.session log fault? more first.asked
    pager.session log fault? (calls + more) asked
      = ⟨first.pages ++ second.pages, second.pager, second.asked⟩ := by
  induction calls generalizing pager asked with
  | zero =>
      rw [Nat.zero_add]
      rfl
  | succ calls ih =>
      rw [Nat.add_right_comm]
      rcases next_serve log fault? pager asked with ⟨later, h⟩ | ⟨_, later, -, h⟩
      · rw [session_ok h, session_ok h, ih]
        rfl
      · rw [session_error h, session_error h]
        exact ih pager later

/-- Past the end of the log the store is not asked any more. -/
theorem session_exhausted {pager : Pager} (h : pager.exhausted = true)
    (calls asked : Nat) :
    pager.session log fault? calls asked
      = ⟨List.replicate calls ⟨[], 0, true⟩, pager, asked⟩ := by
  induction calls with
  | zero => rfl
  | succ calls ih =>
      rw [session_ok (next_exhausted log fault? h asked), ih,
        List.replicate_succ]

/-- A call that hands out no page leaves the pager where it was. -/
theorem session_failed {calls : Nat} {pager : Pager} {asked : Nat}
    (h : (pager.session log fault? (calls + 1) asked).pages
      = (pager.session log fault? calls asked).pages) :
    (pager.session log fault? (calls + 1) asked).pager
      = (pager.session log fault? calls asked).pager := by
  rw [session_add] at h ⊢
  have hnone := List.append_right_eq_self.1 h
  rcases next_serve log fault? (pager.session log fault? calls asked).pager
    (pager.session log fault? calls asked).asked with
    ⟨later, hrun⟩ | ⟨error, later, -, hrun⟩
  · rw [session_ok hrun] at hnone
    cases hnone
  · show (Pager.session _ _ 1 _ _).pager = _
    rw [session_error hrun]
    rfl

end Pager

-- ============================================================ exactness

/-- A session with any failures, and what it hands out. Failures change
neither the pages nor their order, and leave the pager where it was. Up to the
first last page, the pages hold the events of the log from time zero on, each
once, in order of time and of storing. More successful calls than events reach
a last page; after it all pages are empty and the store is not asked. Between
two events of one time there are only events of that time, up to the page of
the second. -/
theorem Pager.session_exact (log : EventLog) (address : String)
    (pageSize : Nat) (fault? : Nat → Option RunError) (calls : Nat) :
    let start := Pager.start address pageSize
    let made := start.session log fault? calls 0
    let events := (log.eventsAt address).filter (0 ≤ ·.timestamp)
    let handedOut := (upToLast made.pages).flatMap (·.events)
    let ended := ∃ page ∈ made.pages, page.isLast = true
    made.pages <+: (start.session log (fun _ => none) calls 0).pages
      ∧ ((start.session log fault? (calls + 1) 0).pages = made.pages →
        (start.session log fault? (calls + 1) 0).pager = made.pager)
      ∧ (ended → handedOut.Perm events ∧ Chronological handedOut
        ∧ ∀ time, 0 ≤ time → handedOut.filter (·.timestamp = time)
          = (log.eventsAt address).filter (·.timestamp = time))
      ∧ (events.length < made.pages.length → ended)
      ∧ (ended → ∀ more, made.pager.session log fault? more made.asked
        = ⟨List.replicate more ⟨[], 0, true⟩, made.pager, made.asked⟩)
      ∧ ∀ {i j k : Nat} {page middle later : Page}, i ≤ k → k < j →
        made.pages[i]? = some page → made.pages[k]? = some middle →
        made.pages[j]? = some later →
        ∀ e ∈ page.events, ∀ f ∈ later.events, e.timestamp = f.timestamp →
          ∀ g ∈ middle.events, g.timestamp = e.timestamp := by
  intro start made events handedOut ended
  obtain ⟨count, hle, hpages, hpager⟩ :=
    Pager.session_eq_pages log fault? calls start 0
  obtain ⟨hpaging, hover⟩ :=
    (Pager.stands_start log address pageSize).paging count
  have hperm := log.ascending_perm address 0
  have hchron := log.ascending_chronological address 0
  rw [← hpages] at hpaging hover
  rw [← hpager] at hover
  refine ⟨?_, Pager.session_failed log fault?, fun hended => ?_,
    fun hlen => ?_, fun hended more => ?_, ?_⟩
  · rw [Pager.session_faultless]
    exact hpages ▸ Pager.pages_prefix log hle start
  · have hall : handedOut = log.ascending address 0 :=
      hpaging.flatMap_upToLast hended
    rw [hall]
    exact ⟨hperm, hchron, fun time h => log.ascending_filter_time address 0 h⟩
  · exact hpaging.exists_last (hperm.length_eq ▸ hlen)
  · exact Pager.session_exhausted log fault? (hover hended) more made.asked
  · intro i j k page middle later hik hkj hi hk hj e he f hf hef
    exact hpaging.eq_of_between hchron hik hkj hi hk hj he hf hef

end MarketReplay
