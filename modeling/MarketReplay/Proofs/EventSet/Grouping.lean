/-
The greedy grouping of a log, and why reading in pages does not change it.

`grouping` takes a whole list of events apart: the first event and everything
that belongs to its key, and then the rest in the same way. A replay never
sees the whole list. It cuts a buffer that grows page by page, `gather`, and
holds a set back while the buffer is nothing but the set, or ends at the
set's time.

If an event that belongs to another's key shares its time (`SameTime`), the
second of these two tests is the one that counts (`grouping_append`): a set
leaves the buffer only when something later than its first event is there
already, and in order of time nothing still to come is of that time, so
nothing still to come belongs to the set. Where the pages were cut does not
enter the argument.

If belonging is having the same key, the grouping is a list of all keys in
order of first appearance, each with all its events (`grouping_eq_keys`).
-/
import MarketReplay.EventSet.Grouping
import MarketReplay.Proofs.Store.Ascending

namespace MarketReplay.EventSet

-- ========================================================== statements

/-- The greedy grouping: all that belongs to the key of the first event, and
then the same with what is left. -/
def grouping : List Event → List (List Event)
  | [] => []
  | head :: tail =>
      (head :: tail).filter (·.belongsTo head.key)
        :: grouping (tail.filter (!·.belongsTo head.key))
termination_by events => events.length
decreasing_by
  simp only [List.unattach_filter, List.unattach_attach, List.length_cons]
  exact Nat.lt_succ_of_le (List.length_filter_le ..)

/-- The sets that leave a buffer while pages arrive, and what waits after the
last of them. -/
def gather : List Event → List (List Event) → List (List Event) × List Event
  | carry, [] => ([], carry)
  | carry, page :: pages =>
      let (sets, rest) := split false (carry ++ page)
      let (more, left) := gather rest pages
      (sets ++ more, left)

/-- All sets of a log that comes in pages: those that leave on the way, and
those that wait until its end. -/
def deal (pages : List (List Event)) : List (List Event) :=
  (gather [] pages).1 ++ (split true (gather [] pages).2).1

/-- An event that belongs to the key of another shares its time. -/
def SameTime (events : List Event) : Prop :=
  ∀ e ∈ events, ∀ f ∈ events, f.belongsTo e.key = true →
    f.timestamp = e.timestamp

theorem SameTime.subset {events part : List Event} (h : SameTime events)
    (hs : part ⊆ events) : SameTime part :=
  fun e he f hf => h e (hs he) f (hs hf)

-- ========================================================== unfolding

/-- Grouping and splitting take the same sets away, so what holds of the rest
after each set holds of the whole list. -/
@[elab_as_elim]
theorem setInduction {motive : List Event → Prop} (nil : motive [])
    (cons : ∀ head tail,
      motive (tail.filter (!·.belongsTo head.key)) → motive (head :: tail))
    (events : List Event) : motive events := by
  induction hlen : events.length using Nat.strongRecOn generalizing events with
  | ind count ih =>
      cases events with
      | nil => exact nil
      | cons head tail =>
          have hle := List.length_filter_le (!·.belongsTo head.key) tail
          rw [List.length_cons] at hlen
          exact cons head tail (ih _ (by omega) _ rfl)

@[simp] theorem grouping_nil : grouping [] = [] := by rw [grouping]

theorem grouping_cons (head : Event) (tail : List Event) :
    grouping (head :: tail)
      = (head :: tail).filter (·.belongsTo head.key)
        :: grouping (tail.filter (!·.belongsTo head.key)) := by
  rw [grouping]

/-- Events that do not belong to the first set wait behind the others. -/
theorem grouping_cons_append {head : Event} {tail later : List Event}
    (hnone : ∀ f ∈ later, f.belongsTo head.key = false) :
    grouping (head :: tail ++ later)
      = (head :: tail).filter (·.belongsTo head.key)
        :: grouping (tail.filter (!·.belongsTo head.key) ++ later) := by
  have hset : later.filter (·.belongsTo head.key) = [] := by
    rw [List.filter_eq_nil_iff]
    exact fun f hf => by rw [hnone f hf]; decide
  have hrest : later.filter (!·.belongsTo head.key) = later := by
    rw [List.filter_eq_self]
    exact fun f hf => by rw [hnone f hf]; rfl
  rw [List.cons_append, grouping_cons, ← List.cons_append,
    List.filter_append, List.filter_append, hset, hrest, List.append_nil]

/-- Events that belong to none of the sets before them are grouped by
themselves. -/
theorem grouping_append_of_apart {events later : List Event}
    (h : ∀ e ∈ events, ∀ f ∈ later, f.belongsTo e.key = false) :
    grouping (events ++ later) = grouping events ++ grouping later := by
  induction events using setInduction with
  | nil => simp
  | cons head tail ih =>
      obtain ⟨hhead, htail⟩ := List.forall_mem_cons.1 h
      have hrest := ih fun e he => htail e (List.mem_filter.1 he).1
      rw [grouping_cons_append hhead, hrest, grouping_cons, List.cons_append]

@[simp] theorem split_nil (final : Bool) : split final [] = ([], []) := by
  rw [split]

theorem split_wait {final : Bool} {head : Event} {tail : List Event}
    (h : (!final && waits head (head :: tail)) = true) :
    split final (head :: tail) = ([], head :: tail) := by
  rw [split, if_pos h]

theorem split_take {final : Bool} {head : Event} {tail : List Event}
    (h : ¬(!final && waits head (head :: tail)) = true) :
    split final (head :: tail)
      = ((head :: tail).filter (·.belongsTo head.key)
          :: (split final (tail.filter (!·.belongsTo head.key))).1,
        (split final (tail.filter (!·.belongsTo head.key))).2) := by
  rw [split, if_neg h]

/-- At the end of a log nothing waits, and splitting is grouping. -/
theorem split_true (events : List Event) :
    split true events = (grouping events, []) := by
  induction events using setInduction with
  | nil => simp
  | cons head tail ih => rw [split_take (by simp), ih, grouping_cons]

-- ============================================================ in pages

/-- A set leaves the buffer only when something later is there. -/
theorem exists_later_of_not_waits {head : Event} {tail : List Event}
    (h : ¬(!false && waits head (head :: tail)) = true) :
    ∃ e ∈ head :: tail, head.timestamp < e.timestamp := by
  rw [Bool.not_false, Bool.true_and] at h
  unfold waits at h
  rw [Bool.or_eq_true, not_or, Bool.not_eq_true', Bool.not_eq_false,
    List.any_eq_true] at h
  obtain ⟨e, he, hlt⟩ := h.2
  exact ⟨e, he, of_decide_eq_true hlt⟩

/-- Cutting the buffer before the rest of the log arrives changes nothing. -/
theorem grouping_append {buffer later : List Event}
    (hchron : Chronological (buffer ++ later))
    (hsame : SameTime (buffer ++ later)) :
    grouping (buffer ++ later)
      = (split false buffer).1
        ++ grouping ((split false buffer).2 ++ later) := by
  induction buffer using setInduction with
  | nil => simp
  | cons head tail ih =>
      by_cases hwait : (!false && waits head (head :: tail)) = true
      · rw [split_wait hwait]
        rfl
      · -- nothing still to come is of the time of `head`, so nothing of its set
        obtain ⟨e, he, hlt⟩ := exists_later_of_not_waits hwait
        have hhead : head ∈ (head :: tail) ++ later :=
          List.mem_append_left _ List.mem_cons_self
        have hnone : ∀ f ∈ later, f.belongsTo head.key = false := by
          intro f hf
          have hle := hchron.le_of_append he hf
          rw [← Bool.not_eq_true]
          intro hbelongs
          have := hsame head hhead f (List.mem_append_right _ hf) hbelongs
          omega
        have hsub : (tail.filter (!·.belongsTo head.key) ++ later).Sublist
            ((head :: tail) ++ later) :=
          (List.filter_sublist.trans (List.sublist_cons_self head tail)).append
            (List.Sublist.refl later)
        have hrec := ih (hchron.sublist hsub) (hsame.subset hsub.subset)
        rw [split_take hwait, grouping_cons_append hnone, hrec]
        rfl

/-- What waits is a part of the buffer, in order. -/
theorem split_sublist (final : Bool) (buffer : List Event) :
    (split final buffer).2.Sublist buffer := by
  induction buffer using setInduction with
  | nil => simp
  | cons head tail ih =>
      by_cases hwait : (!final && waits head (head :: tail)) = true
      · simp only [split_wait hwait, List.Sublist.refl]
      · rw [split_take hwait]
        exact ih.trans (List.filter_sublist.trans (List.sublist_cons_self ..))

theorem gather_singleton (carry page : List Event) :
    gather carry [page] = split false (carry ++ page) := by
  show ((split false (carry ++ page)).1 ++ [], _) = _
  rw [List.append_nil]

/-- However a log comes in pages, the sets that leave on the way and those of
the end are its grouping. -/
theorem gather_grouping {carry : List Event} {pages : List (List Event)}
    (hchron : Chronological (carry ++ pages.flatten))
    (hsame : SameTime (carry ++ pages.flatten)) :
    (gather carry pages).1 ++ grouping (gather carry pages).2
      = grouping (carry ++ pages.flatten) := by
  induction pages generalizing carry with
  | nil => simp [gather]
  | cons page pages ih =>
      rw [List.flatten_cons, ← List.append_assoc] at hchron hsame ⊢
      have hsub : ((split false (carry ++ page)).2 ++ pages.flatten).Sublist
          (carry ++ page ++ pages.flatten) :=
        (split_sublist false (carry ++ page)).append (List.Sublist.refl _)
      rw [grouping_append hchron hsame,
        ← ih (hchron.sublist hsub) (hsame.subset hsub.subset)]
      exact List.append_assoc ..

/-- So all sets of a log are its grouping, whatever its pages are. -/
theorem deal_eq_grouping {pages : List (List Event)}
    (hchron : Chronological pages.flatten) (hsame : SameTime pages.flatten) :
    deal pages = grouping pages.flatten := by
  unfold deal
  rw [split_true]
  exact @gather_grouping [] pages hchron hsame

-- ============================================================= by keys

/-- If belonging is having the same key, there is one set for each key, in
order of first appearance, and it holds all events of the key. -/
theorem grouping_eq_keys {events : List Event}
    (h : ∀ e ∈ events, ∀ f ∈ events,
      f.belongsTo e.key = true ↔ f.key = e.key) :
    grouping events = (events.map Event.key).eraseDups.map fun key =>
      events.filter (·.key == key) := by
  induction events using setInduction with
  | nil => simp
  | cons head tail ih =>
      have hkey : ∀ f ∈ head :: tail,
          f.belongsTo head.key = (f.key == head.key) := by
        intro f hf
        rw [Bool.eq_iff_iff, beq_iff_eq]
        exact h head List.mem_cons_self f hf
      have hothers : tail.filter (!·.belongsTo head.key)
          = tail.filter (!·.key == head.key) :=
        List.filter_congr fun f hf => by
          rw [hkey f (List.mem_cons_of_mem _ hf)]
      have hmem : ∀ f ∈ tail.filter (!·.key == head.key), f ∈ head :: tail :=
        fun f hf => List.mem_cons_of_mem _ (List.mem_filter.1 hf).1
      rw [hothers] at ih
      rw [grouping_cons, List.filter_congr hkey, hothers,
        ih fun e he f hf => h e (hmem e he) f (hmem f hf), List.map_cons,
        List.eraseDups_cons, List.map_cons, List.filter_map]
      refine congrArg _ (List.map_congr_left fun key hk => ?_)
      -- the other sets hold no event of the first key
      rw [List.mem_eraseDups, List.mem_map] at hk
      obtain ⟨f, hf, rfl⟩ := hk
      have hne := (List.mem_filter.1 hf).2
      simp only [Bool.not_eq_true', beq_eq_false_iff_ne] at hne
      rw [List.filter_cons_of_neg (by simpa using hne.symm), List.filter_filter]
      refine List.filter_congr fun g _ => ?_
      by_cases hg : g.key = f.key
      · simp [hg, hne]
      · simp [hg]

end MarketReplay.EventSet
