/-
What a buffer carries over.

`Replayer.process` cuts a whole buffer into sets before it dispatches the first
one. `Replayer.Loop` is the same work done turn by turn: while an event stands
at the front, its set waits, or leaves the buffer and is dispatched. A turn
takes its first event away at least, because an event belongs to its own key,
so after no more turns than there are events the loop has ended, and it ends as
`process` does (`Replayer.exists_loop`).

What leaves and what waits are together the buffer (`EventSet.split_perm`). In
order of time, and if an event that belongs to another's key shares its time,
only the last time of the buffer waits: a set that waits is all that is left, or
nothing later is left, and what has left before it was no later than its first
event (`EventSet.latest_of_mem_split`).
-/
import MarketReplay.Proofs.Run.Unpaged

namespace MarketReplay

-- ============================================================= the buffer

namespace EventSet

/-- Among those that do not belong to its key, the first event is missing. -/
theorem filter_others (head : Event) (tail : List Event) :
    (head :: tail).filter (!·.belongsTo head.key)
      = tail.filter (!·.belongsTo head.key) :=
  List.filter_cons_of_neg (by simp)

/-- The set of the first event and the others are together what was there. -/
theorem filter_append_others_perm (head : Event) (tail : List Event) :
    ((head :: tail).filter (·.belongsTo head.key)
      ++ tail.filter (!·.belongsTo head.key)).Perm (head :: tail) := by
  rw [List.filter_cons_of_pos (Event.belongsTo_key head), List.cons_append]
  exact (List.filter_append_perm (·.belongsTo head.key) tail).cons head

/-- What leaves the buffer and what waits are together the buffer. -/
theorem split_perm (final : Bool) (buffer : List Event) :
    ((split final buffer).1.flatten ++ (split final buffer).2).Perm buffer := by
  induction buffer using setInduction with
  | nil => simp
  | cons head tail ih =>
      by_cases hwait : (!final && waits head (head :: tail)) = true
      · rw [split_wait hwait]
        exact List.Perm.refl _
      · rw [split_take hwait, List.flatten_cons, List.append_assoc]
        exact (ih.append_left _).trans (filter_append_others_perm head tail)

/-- A set that waits is of the last time there is. -/
theorem latest_of_waits {head : Event} {tail : List Event}
    (hchron : Chronological (head :: tail)) (hsame : SameTime (head :: tail))
    (hwaits : waits head (head :: tail) = true) {e f : Event}
    (he : e ∈ head :: tail) (hf : f ∈ head :: tail) :
    f.timestamp ≤ e.timestamp := by
  have hhead : head.timestamp ≤ e.timestamp := hchron.head_le he
  unfold waits at hwaits
  rcases Bool.or_eq_true_iff.1 hwaits with hall | hnone
  · -- the buffer is one set, so it is of one time
    have htime := hsame head List.mem_cons_self f hf (List.all_eq_true.1 hall f hf)
    omega
  · rw [Bool.not_eq_true', List.any_eq_false] at hnone
    have hlate := hnone f hf
    have hle : f.timestamp ≤ head.timestamp := by simpa using hlate
    omega

/-- Only the last time of the buffer waits. -/
theorem latest_of_mem_split {final : Bool} {buffer : List Event}
    (hchron : Chronological buffer) (hsame : SameTime buffer) :
    ∀ e ∈ (split final buffer).2, ∀ f ∈ buffer, f.timestamp ≤ e.timestamp := by
  induction buffer using setInduction with
  | nil => simp
  | cons head tail ih =>
      by_cases hwait : (!final && waits head (head :: tail)) = true
      · rw [split_wait hwait]
        have hwaits := (Bool.and_eq_true_iff.1 hwait).2
        exact fun e he f hf => latest_of_waits hchron hsame hwaits he hf
      · have hsub : (tail.filter (!·.belongsTo head.key)).Sublist (head :: tail) :=
          List.filter_sublist.trans (List.sublist_cons_self head tail)
        have hrest := ih (hchron.sublist hsub) (hsame.subset hsub.subset)
        rw [split_take hwait]
        intro e he f hf
        by_cases hbelongs : f.belongsTo head.key = true
        · -- what leaves now is of the time of the first event
          have htime := hsame head List.mem_cons_self f hf hbelongs
          have hmem := hsub.subset ((split_sublist final _).subset he)
          have hhead := hchron.head_le hmem
          omega
        · have hne : f ≠ head := fun h => hbelongs (h ▸ Event.belongsTo_key head)
          have hothers : f ∈ tail.filter (!·.belongsTo head.key) := by
            rw [List.mem_filter]
            exact ⟨(List.mem_cons.1 hf).resolve_left hne, by simpa using hbelongs⟩
          exact hrest e he f hothers

/-- So of every time before the last, all events have left. -/
theorem split_filter_time_perm {final : Bool} {buffer : List Event}
    (hchron : Chronological buffer) (hsame : SameTime buffer) {time : Int}
    (hearlier : ∃ f ∈ buffer, time < f.timestamp) :
    ((split final buffer).1.flatten.filter (·.timestamp = time)).Perm
      (buffer.filter (·.timestamp = time)) := by
  obtain ⟨f, hf, hlt⟩ := hearlier
  have hnone : (split final buffer).2.filter (·.timestamp = time) = [] := by
    rw [List.filter_eq_nil_iff]
    intro e he
    have hle := latest_of_mem_split hchron hsame e he f hf
    rw [decide_eq_true_eq]
    omega
  have hperm := (split_perm final buffer).filter (·.timestamp = time)
  rwa [List.filter_append, hnone, List.append_nil] at hperm

end EventSet

-- =============================================================== the loop

namespace Replayer

variable {σ : Type} (replayer : Replayer σ) (final : Bool)

/-- The work on a buffer turn by turn, with the sets that were handed over and
how it ended: the buffer is empty, the set of its first event waits, or that
set leaves the buffer and is dispatched, which may fail. -/
inductive Loop : List Event → Progress → σ → List (List Event) →
    Except RunError (List Event × Progress) × σ → Prop
  | done {progress : Progress} {world : σ} :
      Loop [] progress world [] (.ok ([], progress), world)
  | waits {head : Event} {tail : List Event} {progress : Progress} {world : σ}
      (page : final = false)
      (stays : EventSet.waits head (head :: tail) = true) :
      Loop (head :: tail) progress world [] (.ok (head :: tail, progress), world)
  | fails {head : Event} {tail : List Event} {progress : Progress}
      {world later : σ} {error : RunError}
      (goes : final = true ∨ EventSet.waits head (head :: tail) = false)
      (failed : (replayer.dispatchSet progress
        ((head :: tail).filter (·.belongsTo head.key))).run world
          = (.error error, later)) :
      Loop (head :: tail) progress world
        [(head :: tail).filter (·.belongsTo head.key)] (.error error, later)
  | turn {head : Event} {tail : List Event} {progress next : Progress}
      {world later : σ} {sets : List (List Event)}
      {ending : Except RunError (List Event × Progress) × σ}
      (goes : final = true ∨ EventSet.waits head (head :: tail) = false)
      (taken : (replayer.dispatchSet progress
        ((head :: tail).filter (·.belongsTo head.key))).run world
          = (.ok next, later))
      (more : Loop ((head :: tail).filter (!·.belongsTo head.key)) next later
        sets ending) :
      Loop (head :: tail) progress world
        ((head :: tail).filter (·.belongsTo head.key) :: sets) ending

variable {final} {head : Event} {tail : List Event}

theorem goes_iff : (final = true ∨ EventSet.waits head (head :: tail) = false)
    ↔ ¬(!final && EventSet.waits head (head :: tail)) = true := by
  cases final <;> simp

theorem process_nil (progress : Progress) :
    replayer.process final [] progress = pure ([], progress) := by
  unfold process
  rw [EventSet.split_nil]
  rfl

theorem process_wait (h : (!final && EventSet.waits head (head :: tail)) = true)
    (progress : Progress) :
    replayer.process final (head :: tail) progress
      = pure (head :: tail, progress) := by
  unfold process
  rw [EventSet.split_wait h]
  rfl

/-- A set that does not wait is dispatched, and then the others are worked
on. -/
theorem process_take (h : ¬(!final && EventSet.waits head (head :: tail)) = true)
    (progress : Progress) :
    replayer.process final (head :: tail) progress
      = (do
        let next ← replayer.dispatchSet progress
          ((head :: tail).filter (·.belongsTo head.key))
        replayer.process final ((head :: tail).filter (!·.belongsTo head.key)) next) := by
  unfold process
  rw [EventSet.split_take h, EventSet.filter_others]
  dsimp only
  rw [List.foldlM_cons, bind_assoc]

/-- The loop ends as the work on the whole buffer does, within as many turns as
there are events. -/
theorem exists_loop (final : Bool) (buffer : List Event) (progress : Progress)
    (world : σ) : ∃ sets, sets.length ≤ buffer.length
      ∧ replayer.Loop final buffer progress world sets
        ((replayer.process final buffer progress).run world) := by
  induction buffer using EventSet.setInduction generalizing progress world with
  | nil =>
      rw [process_nil]
      exact ⟨[], Nat.le_refl _, .done⟩
  | cons head tail ih =>
      by_cases hwait : (!final && EventSet.waits head (head :: tail)) = true
      · rw [process_wait replayer hwait]
        have hboth := Bool.and_eq_true_iff.1 hwait
        exact ⟨[], Nat.zero_le _, .waits (Bool.not_eq_true' _ ▸ hboth.1) hboth.2⟩
      · have hgoes := goes_iff.2 hwait
        rw [process_take replayer hwait]
        cases hset : (replayer.dispatchSet progress
            ((head :: tail).filter (·.belongsTo head.key))).run world with
        | mk result later =>
            cases result with
            | error error =>
                rw [Call.run_bind_error hset]
                refine ⟨_, ?_, .fails hgoes hset⟩
                exact Nat.succ_le_succ (Nat.zero_le tail.length)
            | ok next =>
                rw [Call.run_bind_ok hset]
                obtain ⟨sets, hlen, hmore⟩ := ih next later
                rw [← EventSet.filter_others] at hmore
                refine ⟨_, ?_, .turn hgoes hset hmore⟩
                exact Nat.succ_le_succ
                  (Nat.le_trans hlen (List.length_filter_le _ tail))

variable {replayer} {buffer rest : List Event} {progress after : Progress}
  {world later : σ} {sets : List (List Event)}

/-- A loop that did not fail has dispatched the complete sets of the buffer,
and leaves what waits. -/
theorem Loop.of_ok (h : replayer.Loop final buffer progress world sets
      (.ok (rest, after), later)) :
    (sets.foldlM replayer.dispatchSet progress).run world = (.ok after, later)
      ∧ EventSet.split final buffer = (sets, rest) := by
  generalize hending : (Except.ok (rest, after), later) = ending at h
  induction h with
  | done =>
      cases hending
      exact ⟨rfl, EventSet.split_nil final⟩
  | waits page stays =>
      cases hending
      refine ⟨rfl, EventSet.split_wait ?_⟩
      rw [page, stays]
      rfl
  | fails goes failed => cases hending
  | turn goes taken more ih =>
      obtain ⟨hfold, hsplit⟩ := ih hending
      rw [EventSet.filter_others] at hsplit
      refine ⟨?_, ?_⟩
      · rw [List.foldlM_cons, Call.run_bind_ok taken]
        exact hfold
      · rw [EventSet.split_take (goes_iff.1 goes), hsplit]

/-- Whatever is in a buffer, the work on it ends within as many turns as there
are events. Unless it fails, it has dispatched some sets in order, and answers
what waits: a part of the buffer in its order, and nothing at the end of the
log; with the sets it is the buffer. If the buffer is in order of time, and an
event that belongs to another's key shares its time, then all that waits is of
the last time in the buffer, and of every time before it all events have been
dispatched, each as often as it was there. -/
theorem process_carries (replayer : Replayer σ) (final : Bool)
    (buffer : List Event) (progress : Progress) (world : σ) :
    ∃ sets, sets.length ≤ buffer.length
      ∧ replayer.Loop final buffer progress world sets
        ((replayer.process final buffer progress).run world)
      ∧ ∀ rest after later,
        (replayer.process final buffer progress).run world
            = (.ok (rest, after), later) →
          (sets.foldlM replayer.dispatchSet progress).run world = (.ok after, later)
            ∧ (final = true → rest = [])
            ∧ rest.Sublist buffer
            ∧ (sets.flatten ++ rest).Perm buffer
            ∧ (Chronological buffer → EventSet.SameTime buffer →
              (∀ e ∈ rest, ∀ f ∈ buffer, f.timestamp ≤ e.timestamp)
                ∧ ∀ time, (∃ f ∈ buffer, time < f.timestamp) →
                  (sets.flatten.filter (·.timestamp = time)).Perm
                    (buffer.filter (·.timestamp = time))) := by
  obtain ⟨sets, hlen, hloop⟩ := replayer.exists_loop final buffer progress world
  refine ⟨sets, hlen, hloop, fun rest after later hrun => ?_⟩
  rw [hrun] at hloop
  obtain ⟨hfold, hsplit⟩ := hloop.of_ok
  have hsets : (EventSet.split final buffer).1 = sets := congrArg Prod.fst hsplit
  have hrest : (EventSet.split final buffer).2 = rest := congrArg Prod.snd hsplit
  refine ⟨hfold, ?_, ?_, ?_, fun hchron hsame => ⟨?_, fun time hearlier => ?_⟩⟩
  · rintro rfl
    rw [← hrest, EventSet.split_true]
  · exact hrest ▸ EventSet.split_sublist final buffer
  · exact hsets ▸ hrest ▸ EventSet.split_perm final buffer
  · exact hrest ▸ EventSet.latest_of_mem_split hchron hsame
  · exact hsets ▸ EventSet.split_filter_time_perm hchron hsame hearlier

end Replayer

namespace Sample

/-- A page that ends in the middle of a time. -/
def page : List Event := [early, caller, called]

theorem split_page : EventSet.split false page = ([[early]], [caller, called]) := by
  have hothers : [caller, called].filter (!·.belongsTo early.key)
      = [caller, called] := rfl
  unfold page
  rw [EventSet.split_take (by decide), hothers, EventSet.split_wait (by decide)]
  rfl

end Sample

/-- The first transaction of the page leaves it, and the second one waits. -/
theorem Replayer.process_carries_sample : ∃ sets after later,
    ((Sample.replayer 3).process false Sample.page ⟨.empty Sample.market, .zero⟩).run
        Memory.empty = (.ok ([Sample.caller, Sample.called], after), later)
      ∧ (Sample.replayer 3).Loop false Sample.page ⟨.empty Sample.market, .zero⟩
        Memory.empty sets (.ok ([Sample.caller, Sample.called], after), later)
      ∧ (sets.flatten.filter (·.timestamp = 1)).Perm [Sample.early] := by
  obtain ⟨sets, -, hloop, hall⟩ := Replayer.process_carries (Sample.replayer 3) false
    Sample.page ⟨.empty Sample.market, .zero⟩ Memory.empty
  obtain ⟨after, later, hrun⟩ : ∃ after later,
      ((Sample.replayer 3).process false Sample.page ⟨.empty Sample.market, .zero⟩).run
        Memory.empty = (.ok ([Sample.caller, Sample.called], after), later) := by
    unfold process
    rw [Sample.split_page]
    exact ⟨_, _, rfl⟩
  obtain ⟨-, -, -, -, htimes⟩ := hall _ after later hrun
  have hchron : Chronological Sample.page := by
    unfold Chronological
    decide
  have hsame : EventSet.SameTime Sample.page := by
    unfold EventSet.SameTime
    decide
  have hearly := (htimes hchron hsame).2 1 ⟨Sample.caller, by decide, by decide⟩
  exact ⟨sets, after, later, hrun, hrun ▸ hloop, hearly⟩

end MarketReplay
