/-
The order in which a log is read.

`EventLog.ascending` filters a log and sorts it, and every page is a stretch
of the result. Three facts say what that list is, whatever the log: it holds
the events from the given time on, each as often as the log does
(`ascending_perm`); no event stands before an earlier one
(`ascending_chronological`); and the events of one time stand as they were
stored (`ascending_filter_time`). Together they leave no choice:
`Chronological.ext` says that a list in order of time is known by its
events of each time.

That uniqueness is also what a reader that starts again in the middle relies
on. `ascending_eq_filter`: reading from a later time on gives the same list
with its start cut off, so the places of events never move between requests.
-/
import MarketReplay.Store.Log

namespace MarketReplay

-- ======================================================= order of time

/-- No event of the list stands before an earlier one. -/
def Chronological (events : List Event) : Prop :=
  events.Pairwise (·.timestamp ≤ ·.timestamp)

namespace Chronological

theorem sublist {events part : List Event} (h : Chronological events)
    (hs : part.Sublist events) : Chronological part :=
  List.Pairwise.sublist hs h

/-- What stands before a cut is no later than what stands after it. -/
theorem le_of_append {before after : List Event}
    (h : Chronological (before ++ after)) {e f : Event} (he : e ∈ before)
    (hf : f ∈ after) : e.timestamp ≤ f.timestamp :=
  (List.pairwise_append.1 h).2.2 e he f hf

/-- The first event of a list is the earliest. -/
theorem head_le {head : Event} {tail : List Event}
    (h : Chronological (head :: tail)) {e : Event} (he : e ∈ head :: tail) :
    head.timestamp ≤ e.timestamp := by
  rcases List.mem_cons.1 he with rfl | he
  · exact Int.le_refl _
  · exact (List.pairwise_cons.1 h).1 e he

/-- A list in order of time is known by its events of each time. -/
theorem ext {left right : List Event} (hl : Chronological left)
    (hr : Chronological right)
    (h : ∀ time, left.filter (·.timestamp = time)
      = right.filter (·.timestamp = time)) : left = right := by
  -- the two lists hold the same events, since every event has a time
  have hmem : ∀ e, e ∈ left ↔ e ∈ right := by
    intro e
    have he := congrArg (e ∈ ·) (h e.timestamp)
    simpa using he
  induction left generalizing right with
  | nil =>
      cases right with
      | nil => rfl
      | cons b _ => exact absurd ((hmem b).2 List.mem_cons_self) (by simp)
  | cons a left ih =>
      cases right with
      | nil => exact absurd ((hmem a).1 List.mem_cons_self) (by simp)
      | cons b right =>
          have hab : a.timestamp ≤ b.timestamp :=
            head_le hl ((hmem b).2 List.mem_cons_self)
          have hba : b.timestamp ≤ a.timestamp :=
            head_le hr ((hmem a).1 List.mem_cons_self)
          have htime : b.timestamp = a.timestamp := Int.le_antisymm hba hab
          have hfirst := h a.timestamp
          simp only [List.filter_cons, htime, decide_true, ↓reduceIte,
            List.cons.injEq] at hfirst
          obtain ⟨rfl, _⟩ := hfirst
          have htail : ∀ time, left.filter (·.timestamp = time)
              = right.filter (·.timestamp = time) := by
            intro time
            have ht := h time
            by_cases hat : a.timestamp = time
            · simpa [List.filter_cons, hat] using ht
            · simpa [List.filter_cons, hat] using ht
          rw [ih (List.pairwise_cons.1 hl).2 (List.pairwise_cons.1 hr).2 htail ?_]
          intro e
          have he := congrArg (e ∈ ·) (htail e.timestamp)
          simpa using he

end Chronological

-- ========================================================== one reading

namespace EventLog

/-- The order that a log is sorted by is transitive. -/
private theorem sortKey_trans (e f g : Event)
    (hef : decide (e.timestamp ≤ f.timestamp) = true)
    (hfg : decide (f.timestamp ≤ g.timestamp) = true) :
    decide (e.timestamp ≤ g.timestamp) = true :=
  decide_eq_true
    (Int.le_trans (of_decide_eq_true hef) (of_decide_eq_true hfg))

/-- The order that a log is sorted by is total. -/
private theorem sortKey_total (e f : Event) :
    (decide (e.timestamp ≤ f.timestamp)
      || decide (f.timestamp ≤ e.timestamp)) = true := by
  simpa using Int.le_total e.timestamp f.timestamp

variable (log : EventLog) (address : String) (time : Int)

theorem ascending_perm :
    (log.ascending address time).Perm
      ((log.eventsAt address).filter (time ≤ ·.timestamp)) :=
  List.mergeSort_perm ..

theorem mem_ascending {e : Event} :
    e ∈ log.ascending address time
      ↔ e ∈ log.eventsAt address ∧ time ≤ e.timestamp := by
  rw [(log.ascending_perm address time).mem_iff, List.mem_filter,
    decide_eq_true_eq]

/-- No reading is longer than the log. -/
theorem length_ascending_le :
    (log.ascending address time).length ≤ log.entries.length := by
  unfold ascending eventsAt
  rw [List.length_mergeSort]
  refine Nat.le_trans (List.length_filter_le ..) ?_
  rw [List.length_map]
  exact List.length_filter_le ..

theorem ascending_chronological :
    Chronological (log.ascending address time) := by
  refine (List.pairwise_mergeSort sortKey_trans sortKey_total _).imp ?_
  intro e f h
  exact of_decide_eq_true h

/-- The events of one time are read as they were stored. -/
theorem ascending_filter_time {when : Int} (h : time ≤ when) :
    (log.ascending address time).filter (·.timestamp = when)
      = (log.eventsAt address).filter (·.timestamp = when) := by
  have hall : ((log.eventsAt address).filter (time ≤ ·.timestamp)).filter
      (·.timestamp = when) = (log.eventsAt address).filter (·.timestamp = when) := by
    rw [List.filter_filter]
    refine List.filter_congr fun e _ => ?_
    by_cases he : e.timestamp = when
    · simp [he, h]
    · simp [he]
  -- they are a chronological part of what is sorted, so sorting keeps them
  have hsub : ((log.eventsAt address).filter (·.timestamp = when)).Sublist
      (log.ascending address time) := by
    refine List.sublist_mergeSort sortKey_trans sortKey_total ?_
      (hall ▸ List.filter_sublist)
    refine List.pairwise_iff_forall_sublist.2 fun {e f} hef => ?_
    have he := (List.mem_filter.1 (hef.subset List.mem_cons_self)).2
    have hf := (List.mem_filter.1 (hef.subset (by simp : f ∈ [e, f]))).2
    rw [decide_eq_true_eq] at he hf ⊢
    exact Int.le_of_eq (he.trans hf.symm)
  have hsame : ((log.eventsAt address).filter (·.timestamp = when)).Sublist
      ((log.ascending address time).filter (·.timestamp = when)) := by
    have := hsub.filter (·.timestamp = when)
    simpa only [List.filter_filter, Bool.and_self] using this
  refine (hsame.eq_of_length ?_).symm
  rw [← hall]
  exact ((log.ascending_perm address time).filter _).length_eq.symm

/-- Nothing is read that is earlier than `time`. -/
theorem ascending_filter_of_lt {when : Int} (h : when < time) :
    (log.ascending address time).filter (·.timestamp = when) = [] := by
  rw [List.filter_eq_nil_iff]
  intro e he
  have := ((log.mem_ascending address time).1 he).2
  simp only [decide_eq_true_eq]
  omega

/-- If the events of a key share a time and one of them is read, all of them
are, as they were stored. -/
theorem ascending_filter_key {key : String} {e : Event}
    (he : e ∈ log.ascending address time)
    (htime : ∀ f ∈ log.eventsAt address, f.key = key →
      f.timestamp = e.timestamp) :
    (log.ascending address time).filter (·.key == key)
      = (log.eventsAt address).filter (·.key == key) := by
  have hnarrow : ∀ events : List Event, events ⊆ log.eventsAt address →
      events.filter (·.key == key) = (events.filter
        (·.timestamp = e.timestamp)).filter (·.key == key) := by
    intro events hsub
    rw [List.filter_filter]
    refine List.filter_congr fun f hf => ?_
    by_cases hkey : f.key = key
    · simp [hkey, htime f (hsub hf) hkey]
    · simp [hkey]
  have hread : log.ascending address time ⊆ log.eventsAt address :=
    fun f hf => ((log.mem_ascending address time).1 hf).1
  rw [hnarrow _ hread, hnarrow _ (List.Subset.refl _),
    log.ascending_filter_time address time
      ((log.mem_ascending address time).1 he).2]

/-- Reading from a later time on is reading the same list from there on. -/
theorem ascending_eq_filter {earlier : Int} (h : earlier ≤ time) :
    log.ascending address time
      = (log.ascending address earlier).filter (time ≤ ·.timestamp) := by
  refine (log.ascending_chronological address time).ext
    ((log.ascending_chronological address earlier).sublist List.filter_sublist) ?_
  intro when
  by_cases hw : time ≤ when
  · rw [ascending_filter_time log address time hw, List.filter_filter,
      ← ascending_filter_time log address earlier (Int.le_trans h hw)]
    refine List.filter_congr fun e _ => ?_
    by_cases he : e.timestamp = when
    · simp [he, hw]
    · simp [he]
  · rw [ascending_filter_of_lt log address time (Int.not_le.1 hw), eq_comm,
      List.filter_eq_nil_iff]
    intro e he
    have := (List.mem_filter.1 he).2
    simp only [decide_eq_true_eq] at this ⊢
    omega

/-- A log that grows by events that are not earlier than the others is read as
before, and then on. -/
theorem ascending_of_grown {other : EventLog} {further : List Event}
    (hgrown : other.eventsAt address = log.eventsAt address ++ further)
    (hlater : ∀ e ∈ log.eventsAt address, ∀ f ∈ further,
      e.timestamp ≤ f.timestamp) :
    ∃ rest, other.ascending address time = log.ascending address time ++ rest
      ∧ rest ⊆ further := by
  let tail : EventLog := ⟨further.map (address, ·)⟩
  have htail : tail.eventsAt address = further := by
    simp [tail, eventsAt, List.filter_map, Function.comp_def]
  have hmem : ∀ f ∈ tail.ascending address time, f ∈ further := by
    intro f hf
    rw [← htail]
    exact ((tail.mem_ascending address time).1 hf).1
  have hboth : Chronological
      (log.ascending address time ++ tail.ascending address time) := by
    refine List.pairwise_append.2 ⟨log.ascending_chronological address time,
      tail.ascending_chronological address time, fun e he f hf => ?_⟩
    exact hlater e ((log.mem_ascending address time).1 he).1 f (hmem f hf)
  refine ⟨tail.ascending address time, ?_, hmem⟩
  refine (other.ascending_chronological address time).ext hboth fun when => ?_
  by_cases hw : time ≤ when
  · rw [List.filter_append, other.ascending_filter_time address time hw,
      log.ascending_filter_time address time hw,
      tail.ascending_filter_time address time hw, hgrown, htail,
      List.filter_append]
  · have hearly := Int.not_le.1 hw
    rw [List.filter_append, other.ascending_filter_of_lt address time hearly,
      log.ascending_filter_of_lt address time hearly,
      tail.ascending_filter_of_lt address time hearly, List.append_nil]

end EventLog

end MarketReplay
