/-
The pages of a log: nothing lost, nothing read twice, and no end in sight
only as long as there are events left.

# The invariant

`Pager.Stands log pager unread` says where a pager is, by the events that it
has not handed out yet. A cursor is a time and a number of events to leave
out, so it means the list `ascending` from that time on, with its first
`skip` events dropped; the invariant adds that these are all of the cursor's
own time. That last part is what the two modes of a cursor need from each
other. Moving to a later time forgets `skip`, which is right because nothing
of the later time has been left out so far; staying at the time adds to
`skip`, which is right because everything left out so far is of that time.

# What it buys

`Trims` is all that cutting a full page can do, and `Stands.turn` is the
only step: every full page hands out at least one event and leaves the pager
standing behind it. `Paging` then describes whole readings, and is what the
other files use: the pages of a log are a `Paging` of its events
(`Stands.paging`), so up to the last one they concatenate to the events
(`Paging.flatMap_upToLast`), and each but the last spends one
(`Paging.exists_last`).
-/
import MarketReplay.Proofs.Store.Ascending
import MarketReplay.Store.Pager

namespace MarketReplay

-- ============================================================== one cut

/-- What cutting a full page can come to: a page of one time stays whole and
is left out of the next request, any other loses its last run. -/
inductive Cursor.Trims (cursor : Cursor) :
    List Event → List Event → Cursor → Prop
  | whole {time : Int} {run : List Event} (nonempty : run ≠ [])
      (times : ∀ e ∈ run, e.timestamp = time) :
      Trims cursor run run
        ⟨time, (if cursor.fromTimestamp = time then cursor.skip else 0)
          + run.length⟩
  | cut {time : Int} {safe run : List Event} (nonempty : safe ≠ [])
      (earlier : ∀ e ∈ safe, e.timestamp < time) (reached : run ≠ [])
      (times : ∀ e ∈ run, e.timestamp = time) :
      Trims cursor (safe ++ run) safe ⟨time, 0⟩

/-- No event of a chronological list is later than the last one. -/
theorem Chronological.le_getLast {events : List Event}
    (h : Chronological events) {last : Event}
    (hlast : events.getLast? = some last) {e : Event} (he : e ∈ events) :
    e.timestamp ≤ last.timestamp := by
  obtain ⟨init, rfl⟩ := List.getLast?_eq_some_iff.1 hlast
  rcases List.mem_append.1 he with he | he
  · exact h.le_of_append he (List.mem_singleton.2 rfl)
  · obtain rfl := List.mem_singleton.1 he
    exact Int.le_refl _

/-- A full page in order of time is cut in one of the two ways. -/
theorem Cursor.trim_trims (cursor : Cursor) {page : List Event}
    (hne : page ≠ []) (hpage : Chronological page) :
    cursor.Trims page (cursor.trim page).1 (cursor.trim page).2 := by
  obtain ⟨first, tail, rfl⟩ := List.exists_cons_of_ne_nil hne
  obtain ⟨last, hlast⟩ : ∃ last, (first :: tail).getLast? = some last :=
    ⟨_, List.getLast?_eq_some_getLast hne⟩
  unfold Cursor.trim
  simp only [List.head?_cons, hlast]
  by_cases hsame : first.timestamp = last.timestamp
  · -- first and last agree, so everything between them does
    rw [if_pos hsame]
    refine .whole hne fun e he => ?_
    have hfirst := hpage.head_le he
    have hle := hpage.le_getLast hlast he
    omega
  · rw [if_neg hsame]
    have hsplit := List.takeWhile_append_dropWhile
      (p := (·.timestamp != last.timestamp)) (l := first :: tail)
    have hbefore : ∀ e ∈ (first :: tail).takeWhile
        (·.timestamp != last.timestamp), e.timestamp < last.timestamp := by
      intro e he
      have hne := List.all_eq_true.1 List.all_takeWhile e he
      have hle := hpage.le_getLast hlast
        ((List.takeWhile_sublist _).subset he)
      simp only [bne_iff_ne, ne_eq] at hne
      omega
    have hafter : ∀ e ∈ (first :: tail).dropWhile
        (·.timestamp != last.timestamp), e.timestamp = last.timestamp := by
      intro e he
      have hsub := List.dropWhile_sublist (l := first :: tail)
        (p := (·.timestamp != last.timestamp))
      have hle := hpage.le_getLast hlast (hsub.subset he)
      -- what is left begins with the last time, and nothing gets earlier
      cases hrun : (first :: tail).dropWhile
          (·.timestamp != last.timestamp) with
      | nil => rw [hrun] at he; cases he
      | cons head rest =>
          have hhead := List.head?_dropWhile_not
            (·.timestamp != last.timestamp) (first :: tail)
          rw [hrun] at hhead he hsub
          simp only [List.head?_cons, bne_eq_false_iff_eq] at hhead
          have hge := (hpage.sublist hsub).head_le he
          omega
    have hreached : (first :: tail).dropWhile
        (·.timestamp != last.timestamp) ≠ [] := by
      intro hnil
      rw [hnil, List.append_nil] at hsplit
      have hmem := List.mem_of_getLast? hlast
      rw [← hsplit] at hmem
      exact Int.lt_irrefl _ (hbefore last hmem)
    have hcut : cursor.Trims _ _ _ :=
      .cut (by simp [hsame]) hbefore hreached hafter
    rwa [hsplit] at hcut

-- ============================================================ one page

namespace Pager

/-- The next page of a log, and the pager after it. -/
def turn (log : EventLog) (pager : Pager) : Page × Pager :=
  match pager.request? with
  | some request => pager.receive (log.page request)
  | none => (⟨[], 0, true⟩, pager)

/-- The pager has the events from some place on still to hand out: what its
cursor leaves out is all of the cursor's time, and the rest is unread. -/
structure Stands (log : EventLog) (pager : Pager) (unread : List Event) :
    Prop where
  size_pos : 0 < pager.pageSize
  active : pager.exhausted = false
  from_nonneg : 0 ≤ pager.cursor.fromTimestamp
  place : ∃ seen,
    log.ascending pager.address pager.cursor.fromTimestamp = seen ++ unread
      ∧ seen.length = pager.cursor.skip
      ∧ ∀ e ∈ seen, e.timestamp = pager.cursor.fromTimestamp

/-- A pager starts in front of the whole log. -/
theorem stands_start (log : EventLog) (address : String) (pageSize : Nat) :
    (start address pageSize).Stands log (log.ascending address 0) where
  size_pos := by
    show 0 < max pageSize 1
    omega
  active := rfl
  from_nonneg := Int.le_refl 0
  place := ⟨[], rfl, rfl, by simp⟩

/-- No two events of one time are on both sides of the cut, unless the page
holds that time only. -/
def CutsClean (safe rest : List Event) : Prop :=
  ∀ e ∈ safe, ∀ f ∈ rest, e.timestamp = f.timestamp →
    ∀ g ∈ safe, g.timestamp = e.timestamp

namespace Stands

variable {log : EventLog} {pager : Pager} {unread : List Event}

/-- The unread events are in order of time, and not before the cursor. -/
theorem chronological (h : pager.Stands log unread) :
    Chronological unread
      ∧ ∀ e ∈ unread, pager.cursor.fromTimestamp ≤ e.timestamp := by
  obtain ⟨seen, hplace, -, -⟩ := h.place
  have hsub : unread.Sublist
      (log.ascending pager.address pager.cursor.fromTimestamp) :=
    hplace ▸ List.sublist_append_right seen unread
  refine ⟨(log.ascending_chronological _ _).sublist hsub, fun e he => ?_⟩
  exact ((log.mem_ascending _ _).1 (hsub.subset he)).2

/-- The pager asks, and the store answers the first unread events. -/
theorem turn_eq (h : pager.Stands log unread) :
    pager.turn log = pager.receive (unread.take pager.pageSize) := by
  obtain ⟨seen, hplace, hskip, -⟩ := h.place
  unfold Pager.turn request?
  rw [if_neg (by simp [h.active])]
  show pager.receive (log.page ⟨pager.address, pager.cursor.fromTimestamp,
    pager.cursor.skip, pager.pageSize⟩) = _
  unfold EventLog.page
  rw [hplace, ← hskip, List.drop_left]

/-- A request from a time that has been reached answers what the pager left
out and what it has not read, without what is earlier. -/
theorem ascending_of_reached (h : pager.Stands log unread) {e : Event}
    (he : e ∈ unread) :
    ∃ seen : List Event, seen.length = pager.cursor.skip
      ∧ (∀ e ∈ seen, e.timestamp = pager.cursor.fromTimestamp)
      ∧ log.ascending pager.address e.timestamp
          = seen.filter (e.timestamp ≤ ·.timestamp)
            ++ unread.filter (e.timestamp ≤ ·.timestamp) := by
  obtain ⟨seen, hplace, hskip, hseen⟩ := h.place
  refine ⟨seen, hskip, hseen, ?_⟩
  rw [log.ascending_eq_filter _ _ (h.chronological.2 e he), hplace,
    List.filter_append]

/-- Behind a page of one time the pager stays at that time, or goes there. -/
theorem trim_whole {page rest : List Event} {time : Int}
    (h : pager.Stands log (page ++ rest)) (hne : page ≠ [])
    (htimes : ∀ e ∈ page, e.timestamp = time) :
    { pager with cursor :=
        ⟨time, (if pager.cursor.fromTimestamp = time then pager.cursor.skip
          else 0) + page.length⟩ }.Stands log rest := by
  obtain ⟨first, hfirst⟩ := List.exists_mem_of_ne_nil page hne
  obtain ⟨hchron, hfrom⟩ := h.chronological
  have hle := hfrom first (List.mem_append_left _ hfirst)
  obtain ⟨seen, hskip, hseen, hread⟩ :=
    h.ascending_of_reached (List.mem_append_left _ hfirst)
  rw [htimes first hfirst] at hle hread
  have hkeep : (page ++ rest).filter (time ≤ ·.timestamp) = page ++ rest := by
    refine List.filter_eq_self.2 fun e he => decide_eq_true ?_
    rcases List.mem_append.1 he with he | he
    · exact Int.le_of_eq (htimes e he).symm
    · rw [← htimes first hfirst]
      exact hchron.le_of_append hfirst he
  rw [hkeep] at hread
  refine ⟨h.size_pos, h.active, Int.le_trans h.from_nonneg hle, ?_⟩
  by_cases hsame : pager.cursor.fromTimestamp = time
  · -- what was left out before is of this time too, and still counts
    refine ⟨seen ++ page, ?_, by simp [hsame, hskip], ?_⟩
    · rw [hread, List.append_assoc, List.filter_eq_self.2 fun e he =>
        decide_eq_true (Int.le_of_eq (hsame ▸ (hseen e he).symm))]
    · intro e he
      rcases List.mem_append.1 he with he | he
      · exact (hseen e he).trans hsame
      · exact htimes e he
  · -- what was left out before is earlier, and drops out by itself
    refine ⟨page, ?_, by simp [hsame], htimes⟩
    rw [hread, List.filter_eq_nil_iff.2, List.nil_append]
    intro e he
    rw [hseen e he, decide_eq_true_eq]
    omega

/-- Behind a page that lost its last run the pager goes to that run. -/
theorem trim_cut {safe run rest : List Event} {time : Int}
    (h : pager.Stands log (safe ++ (run ++ rest))) (hne : safe ≠ [])
    (hearlier : ∀ e ∈ safe, e.timestamp < time) (hreached : run ≠ [])
    (htimes : ∀ e ∈ run, e.timestamp = time) :
    (∀ e ∈ run ++ rest, time ≤ e.timestamp)
      ∧ { pager with cursor := ⟨time, 0⟩ }.Stands log (run ++ rest) := by
  obtain ⟨early, hearly⟩ := List.exists_mem_of_ne_nil safe hne
  obtain ⟨first, hfirst⟩ := List.exists_mem_of_ne_nil run hreached
  have hmem : first ∈ safe ++ (run ++ rest) :=
    List.mem_append_right _ (List.mem_append_left _ hfirst)
  obtain ⟨hchron, hfrom⟩ := h.chronological
  have hle := hfrom first hmem
  have hpast := hfrom early (List.mem_append_left _ hearly)
  have hlt := hearlier early hearly
  obtain ⟨seen, -, hseen, hread⟩ := h.ascending_of_reached hmem
  rw [htimes first hfirst] at hle hread
  have hlater : ∀ e ∈ run ++ rest, time ≤ e.timestamp := by
    intro e he
    rcases List.mem_append.1 he with he | he
    · exact Int.le_of_eq (htimes e he).symm
    · rw [← htimes first hfirst]
      exact (hchron.sublist (List.sublist_append_right safe _)).le_of_append
        hfirst he
  refine ⟨hlater, h.size_pos, h.active, Int.le_trans h.from_nonneg hle, ?_⟩
  refine ⟨[], ?_, rfl, by simp⟩
  rw [hread, List.filter_append, List.filter_eq_nil_iff.2,
    List.filter_eq_nil_iff.2,
    List.filter_eq_self.2 fun e he => decide_eq_true (hlater e he)]
  · rfl
  · intro e he
    have hlt := hearlier e he
    rw [decide_eq_true_eq]
    omega
  · intro e he
    rw [hseen e he, decide_eq_true_eq]
    omega

/-- A cut page leaves the pager in front of what it did not hand out. -/
theorem trim {page rest safe : List Event} {cursor : Cursor}
    (h : pager.Stands log (page ++ rest))
    (hcut : pager.cursor.Trims page safe cursor) :
    ∃ later, page ++ rest = safe ++ later ∧ safe ≠ []
      ∧ CutsClean safe later ∧ { pager with cursor }.Stands log later := by
  cases hcut with
  | whole nonempty times =>
      refine ⟨rest, rfl, nonempty, ?_, h.trim_whole nonempty times⟩
      intro e he f _ _ g hg
      rw [times e he, times g hg]
  | @cut time _ run nonempty earlier reached times =>
      rw [List.append_assoc] at h
      obtain ⟨hlater, hstands⟩ := h.trim_cut nonempty earlier reached times
      refine ⟨run ++ rest, List.append_assoc .., nonempty, ?_, hstands⟩
      intro e he f hf hef
      have hlt := earlier e he
      have hge := hlater f hf
      omega

/-- A turn hands out everything if that is less than a page, and otherwise a
part that is cut clean. -/
theorem turn (h : pager.Stands log unread) :
    (unread.length < pager.pageSize
        ∧ pager.turn log = (⟨unread, unread.length, true⟩,
            { pager with exhausted := true }))
      ∨ ∃ safe later, unread = safe ++ later ∧ safe ≠ []
        ∧ CutsClean safe later
        ∧ (pager.turn log).1 = ⟨safe, pager.pageSize, false⟩
        ∧ (pager.turn log).2.Stands log later := by
  rw [h.turn_eq]
  unfold receive
  by_cases hlast : unread.length < pager.pageSize
  · refine .inl ⟨hlast, ?_⟩
    rw [List.take_of_length_le (Nat.le_of_lt hlast), if_pos hlast]
  · have hfull : (unread.take pager.pageSize).length = pager.pageSize := by
      rw [List.length_take]
      omega
    have hne : unread.take pager.pageSize ≠ [] := by
      have hpos := h.size_pos
      rw [← List.length_pos_iff, hfull]
      exact hpos
    rw [hfull, if_neg (Nat.lt_irrefl _)]
    rw [← List.take_append_drop pager.pageSize unread] at h
    obtain ⟨later, hlater, hsafe, hclean, hstands⟩ := h.trim
      (pager.cursor.trim_trims hne
        (h.chronological.1.sublist (List.sublist_append_left _ _)))
    rw [List.take_append_drop] at hlater
    exact .inr ⟨_, later, hlater, hsafe, hclean, rfl, hstands⟩

end Stands

-- =========================================================== all pages

/-- The first pages of a log. -/
def pages (log : EventLog) : Nat → Pager → List Page
  | 0, _ => []
  | count + 1, pager =>
      (pager.turn log).1 :: pages log count (pager.turn log).2

/-- The pager behind the first pages of a log. -/
def after (log : EventLog) : Nat → Pager → Pager
  | 0, pager => pager
  | count + 1, pager => after log count (pager.turn log).2

variable (log : EventLog)

/-- Fewer pages are the first of more pages. -/
theorem pages_prefix {fewer more : Nat} (h : fewer ≤ more) (pager : Pager) :
    pager.pages log fewer <+: pager.pages log more := by
  induction fewer generalizing more pager with
  | zero => exact List.nil_prefix
  | succ fewer ih =>
      obtain ⟨more, rfl⟩ : ∃ m, more = m + 1 := ⟨more - 1, by omega⟩
      unfold pages
      rw [List.prefix_cons_inj]
      exact ih (by omega) _

/-- Past the end of the log, pages are empty and the pager stays. -/
theorem turn_exhausted {pager : Pager} (h : pager.exhausted = true) :
    pager.turn log = (⟨[], 0, true⟩, pager) := by
  unfold turn request?
  rw [if_pos h]

theorem pages_exhausted {pager : Pager} (h : pager.exhausted = true)
    (count : Nat) :
    pager.pages log count = List.replicate count ⟨[], 0, true⟩ := by
  induction count with
  | zero => rfl
  | succ count ih =>
      unfold pages
      rw [turn_exhausted log h, List.replicate_succ, ih]

theorem after_exhausted {pager : Pager} (h : pager.exhausted = true)
    (count : Nat) : pager.after log count = pager := by
  induction count with
  | zero => rfl
  | succ count ih =>
      unfold after
      rw [turn_exhausted log h, ih]

end Pager

/-- Pages up to and with the first that is a last one. -/
def upToLast : List Page → List Page
  | [] => []
  | page :: pages => if page.isLast then [page] else page :: upToLast pages

/-- Pages that hand some events out in order: full pages that are cut clean,
and then, if the reading gets that far, a last page and empty ones. -/
inductive Paging : List Event → List Page → Prop
  | nil (events : List Event) : Paging events []
  | full {safe later : List Event} {pages : List Page} (fetched : Nat)
      (nonempty : safe ≠ []) (clean : Pager.CutsClean safe later)
      (rest : Paging later pages) :
      Paging (safe ++ later) (⟨safe, fetched, false⟩ :: pages)
  | last (events : List Event) (fetched count : Nat) :
      Paging events
        (⟨events, fetched, true⟩ :: List.replicate count ⟨[], 0, true⟩)

/-- The pages of a log hand its unread events out, and a last page leaves the
pager exhausted. -/
theorem Pager.Stands.paging {log : EventLog} {pager : Pager}
    {unread : List Event} (h : pager.Stands log unread) (count : Nat) :
    Paging unread (pager.pages log count)
      ∧ ((∃ page ∈ pager.pages log count, page.isLast = true) →
        (pager.after log count).exhausted = true) := by
  induction count generalizing pager unread with
  | zero => exact ⟨.nil unread, by simp [Pager.pages]⟩
  | succ count ih =>
      unfold Pager.pages Pager.after
      rcases h.turn with ⟨-, hturn⟩ | ⟨safe, later, rfl, hne, hclean, hpage, hstands⟩
      · have hover : { pager with exhausted := true }.exhausted = true := rfl
        rw [hturn, pages_exhausted log hover, after_exhausted log hover]
        exact ⟨.last unread _ count, fun _ => rfl⟩
      · obtain ⟨hrest, hover⟩ := ih hstands
        rw [hpage]
        refine ⟨.full _ hne hclean hrest, ?_⟩
        rintro ⟨page, hmem, hlast⟩
        rcases List.mem_cons.1 hmem with rfl | hmem
        · cases hlast
        · exact hover ⟨page, hmem, hlast⟩

namespace Paging

variable {events : List Event} {pages : List Page}

/-- What the pages hold is the start of the events. -/
theorem flatMap_events (h : Paging events pages) :
    pages.flatMap (·.events) <+: events := by
  induction h with
  | nil events => exact List.nil_prefix
  | @full safe later pages fetched _ _ _ ih =>
      rw [List.flatMap_cons]
      exact (List.prefix_append_right_inj safe).2 ih
  | last events fetched count =>
      -- the pages behind a last one are empty
      have hempty : (List.replicate count (⟨[], 0, true⟩ : Page)).flatMap
          (·.events) = [] := by
        rw [List.flatMap_eq_nil_iff]
        intro page hmem
        rw [List.eq_of_mem_replicate hmem]
      exact ⟨[], by
        rw [List.flatMap_cons, hempty, List.append_nil, List.append_nil]⟩

/-- Up to the first last page, the pages hold the events. -/
theorem flatMap_upToLast (h : Paging events pages)
    (hlast : ∃ page ∈ pages, page.isLast = true) :
    (upToLast pages).flatMap (·.events) = events := by
  induction h with
  | nil events => simp at hlast
  | @full safe later pages fetched _ _ _ ih =>
      obtain ⟨page, hmem, hlast⟩ := hlast
      rcases List.mem_cons.1 hmem with rfl | hmem
      · cases hlast
      -- a full page is not the last, so that one is among the rest
      · rw [upToLast, if_neg Bool.false_ne_true, List.flatMap_cons,
          ih ⟨page, hmem, hlast⟩]
  | last events fetched count =>
      rw [upToLast, if_pos rfl, List.flatMap_singleton]

/-- Every page but a last one spends an event, so more pages than events hold
a last one. -/
theorem exists_last (h : Paging events pages)
    (hlen : events.length < pages.length) :
    ∃ page ∈ pages, page.isLast = true := by
  induction h with
  | nil events => cases hlen
  | @full safe later pages fetched nonempty _ _ ih =>
      have hpos := List.length_pos_iff.2 nonempty
      rw [List.length_append, List.length_cons] at hlen
      obtain ⟨page, hmem, hlast⟩ := ih (by omega)
      exact ⟨page, List.mem_cons_of_mem _ hmem, hlast⟩
  | last events fetched count => exact ⟨_, List.mem_cons_self, rfl⟩

/-- No event of a page is later than one of a page behind it. -/
theorem le_of_lt (h : Paging events pages) (hchron : Chronological events)
    {i j : Nat} {page later : Page} (hij : i < j) (hi : pages[i]? = some page)
    (hj : pages[j]? = some later) {e f : Event} (he : e ∈ page.events)
    (hf : f ∈ later.events) : e.timestamp ≤ f.timestamp := by
  have hpages := hchron.sublist h.flatMap_events.sublist
  obtain ⟨hil, rfl⟩ := List.getElem?_eq_some_iff.1 hi
  obtain ⟨hjl, rfl⟩ := List.getElem?_eq_some_iff.1 hj
  have hpair := (List.pairwise_flatMap.1 hpages).2
  exact List.pairwise_iff_getElem.1 hpair i j hil hjl hij e he f hf

/-- A page whose time goes on behind it holds that time only. -/
theorem eq_of_continued (h : Paging events pages) {i j : Nat}
    {page later : Page} (hij : i < j) (hi : pages[i]? = some page)
    (hj : pages[j]? = some later) {e f : Event} (he : e ∈ page.events)
    (hf : f ∈ later.events) (hef : e.timestamp = f.timestamp) :
    ∀ g ∈ page.events, g.timestamp = e.timestamp := by
  induction h generalizing i j with
  | nil events => simp at hi
  | @full safe rest pages fetched _ clean paging ih =>
      obtain ⟨j, rfl⟩ : ∃ j', j = j' + 1 := ⟨j - 1, by omega⟩
      rw [List.getElem?_cons_succ] at hj
      cases i with
      | zero =>
          rw [List.getElem?_cons_zero, Option.some.injEq] at hi
          subst hi
          have hlater : f ∈ pages.flatMap (·.events) :=
            List.mem_flatMap.2 ⟨later, List.mem_of_getElem? hj, hf⟩
          exact clean e he f (paging.flatMap_events.subset hlater) hef
      | succ i =>
          rw [List.getElem?_cons_succ] at hi
          exact ih (by omega) hi hj
  | last events fetched count =>
      obtain ⟨j, rfl⟩ : ∃ j', j = j' + 1 := ⟨j - 1, by omega⟩
      rw [List.getElem?_cons_succ] at hj
      rw [List.eq_of_mem_replicate (List.mem_of_getElem? hj)] at hf
      cases hf

/-- Between two events of one time there are only events of that time, up to
the page of the second. -/
theorem eq_of_between (h : Paging events pages)
    (hchron : Chronological events) {i j k : Nat} {page middle later : Page}
    (hik : i ≤ k) (hkj : k < j) (hi : pages[i]? = some page)
    (hk : pages[k]? = some middle) (hj : pages[j]? = some later)
    {e f : Event} (he : e ∈ page.events) (hf : f ∈ later.events)
    (hef : e.timestamp = f.timestamp) :
    ∀ g ∈ middle.events, g.timestamp = e.timestamp := by
  intro g hg
  rcases Nat.eq_or_lt_of_le hik with rfl | hik
  · rw [hi, Option.some.injEq] at hk
    subst hk
    exact h.eq_of_continued hkj hi hj he hf hef g hg
  · have hlow := h.le_of_lt hchron hik hi hk he hg
    have hhigh := h.le_of_lt hchron hkj hk hj hg hf
    omega

end Paging

end MarketReplay
