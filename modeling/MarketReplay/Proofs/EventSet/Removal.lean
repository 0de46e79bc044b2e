/-
A log without one of its event sets.

A set is cut out of a log by the key of its first event, and whether an event
belongs to a key does not depend on the events around it. So each event of a
log is in one set only, the first whose key it belongs to, and taking all
events of a set away takes the set out of the grouping and leaves the other
sets as they are, also where its events stood between theirs
(`grouping_without`). Which events of the others were read before which does
not change either, so this says of the whole log what it says of the list that
is read (`EventLog.ascending_without`).
-/
import MarketReplay.Proofs.EventSet.Grouping

namespace MarketReplay

/-- Events that two tests pick are picked in either order. -/
theorem filter_comm (keep also : Event → Bool) (events : List Event) :
    (events.filter keep).filter also = (events.filter also).filter keep := by
  rw [List.filter_filter, List.filter_filter]
  exact List.filter_congr fun e _ => Bool.and_comm ..

namespace EventSet

variable {events set : List Event}

theorem subset_of_mem_grouping (h : set ∈ grouping events) : set ⊆ events := by
  induction events using setInduction with
  | nil => simp at h
  | cons head tail ih =>
      rw [grouping_cons] at h
      rcases List.mem_cons.1 h with rfl | hrest
      · exact List.filter_sublist.subset
      · exact List.Subset.trans (ih hrest)
          (List.filter_sublist.trans (List.sublist_cons_self ..)).subset

/-- The set of the first event is what belongs to its key. -/
theorem filter_notMem_first (head : Event) (tail : List Event) :
    (head :: tail).filter
        (· ∉ (head :: tail).filter (·.belongsTo head.key))
      = tail.filter (!·.belongsTo head.key) := by
  have hout : ∀ e ∈ head :: tail,
      decide (e ∉ (head :: tail).filter (·.belongsTo head.key))
        = !e.belongsTo head.key := by
    intro e he
    simp only [List.mem_filter, he, true_and]
    cases e.belongsTo head.key <;> rfl
  rw [List.filter_congr hout, List.filter_cons_of_neg]
  simp [head.belongsTo_key]

/-- Without its events, a set is out of the grouping, and the others stay. -/
theorem grouping_without (h : set ∈ grouping events) :
    ∃ before behind, grouping events = before ++ set :: behind
      ∧ grouping (events.filter (· ∉ set)) = before ++ behind := by
  induction events using setInduction with
  | nil => simp at h
  | cons head tail ih =>
      rw [grouping_cons] at h
      by_cases hfirst : set = (head :: tail).filter (·.belongsTo head.key)
      · refine ⟨[], grouping (tail.filter (!·.belongsTo head.key)), ?_, ?_⟩
        · rw [grouping_cons, hfirst]
          rfl
        · rw [hfirst, filter_notMem_first]
          rfl
      · have hrest := (List.mem_cons.1 h).resolve_left hfirst
        obtain ⟨before, behind, hall, hwithout⟩ := ih hrest
        -- no event of a later set belongs to the key of the first
        have hapart : ∀ e, e.belongsTo head.key = true → e ∉ set := by
          intro e hbelongs hmem
          have hleft := subset_of_mem_grouping hrest hmem
          simp [hbelongs] at hleft
        refine ⟨(head :: tail).filter (·.belongsTo head.key) :: before, behind,
          ?_, ?_⟩
        · rw [grouping_cons, hall]
          rfl
        · have hkept : (head :: tail).filter (· ∉ set)
              = head :: tail.filter (· ∉ set) :=
            List.filter_cons_of_pos
              (decide_eq_true (hapart head head.belongsTo_key))
          have hset : ((head :: tail).filter (· ∉ set)).filter
              (·.belongsTo head.key)
                = (head :: tail).filter (·.belongsTo head.key) := by
            rw [List.filter_filter]
            refine List.filter_congr fun e _ => ?_
            cases hbelongs : e.belongsTo head.key with
            | false => rfl
            | true => simp [hapart e hbelongs]
          have hothers : (tail.filter (· ∉ set)).filter (!·.belongsTo head.key)
              = (tail.filter (!·.belongsTo head.key)).filter (· ∉ set) :=
            filter_comm ..
          rw [hkept] at hset ⊢
          rw [grouping_cons, hset, hothers, hwithout]
          rfl

end EventSet

namespace EventLog

variable (log : EventLog) (address : String) (events : List Event)

/-- The log without any of these events under an address. -/
def without : EventLog :=
  ⟨log.entries.filter fun entry =>
    !(entry.1 == address && decide (entry.2 ∈ events))⟩

theorem eventsAt_without :
    (log.without address events).eventsAt address
      = (log.eventsAt address).filter (· ∉ events) := by
  unfold without eventsAt
  rw [List.filter_map, List.filter_filter, List.filter_filter]
  refine congrArg (List.map _) (List.filter_congr fun entry _ => ?_)
  cases entry.1 == address <;> simp

/-- The events that are left are read in the order in which they were. -/
theorem ascending_without (time : Int) :
    (log.without address events).ascending address time
      = (log.ascending address time).filter (· ∉ events) := by
  refine ((log.without address events).ascending_chronological address time).ext
    ((log.ascending_chronological address time).sublist List.filter_sublist) ?_
  intro when
  rw [filter_comm]
  by_cases hw : time ≤ when
  · rw [ascending_filter_time _ address time hw,
      ascending_filter_time _ address time hw, eventsAt_without,
      filter_comm]
  · have hearly := Int.not_le.1 hw
    rw [ascending_filter_of_lt _ address time hearly,
      ascending_filter_of_lt _ address time hearly]
    rfl

end EventLog

end MarketReplay
