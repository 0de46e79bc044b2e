/-
Which hash the actions of an event set carry.

A set is collected under the key of its first event, the hash of the
transaction that caused it. Its actions and its errors carry the hash that the
first event was emitted under. The two are one unless that event was emitted by
a call that another transaction made; then whatever the set reports goes by the
hash of the call, although the set is that of the transaction. So the hash
depends on which of its events stands first.
-/
import MarketReplay.Proofs.EventSet.Dealing
import MarketReplay.Proofs.Run.Unpaged

namespace MarketReplay

/-- An event is emitted under its own key unless another transaction made the
call that emitted it. -/
theorem Event.txHash_eq_key_iff (event : Event) :
    event.txHash = event.key
      ↔ ∀ origin ∈ event.originTxHash, origin = event.txHash := by
  unfold key
  cases event.originTxHash with
  | none => simp
  | some origin => simp [eq_comm]

/-- The hash that an unreadable set is reported under. -/
def SummaryError.txHash : SummaryError → String
  | .unknownAction _ txHash => txHash
  | .decode _ txHash _ => txHash

namespace EventSet

variable {marketplace : Marketplace} {head : Event}
  {payment : Option (String × Nat)} {log : Event × ActionKind}

-- ================================================================= one log

theorem txHash_of_summarizeLog {summary : ActionSummary}
    (h : summarizeLog marketplace head payment log = .ok summary) :
    summary.txHash = head.txHash := by
  unfold summarizeLog at h
  split at h
  · cases h
  · cases h
    rfl

theorem txHash_of_summarizeLog_error {error : SummaryError}
    (h : summarizeLog marketplace head payment log = .error error) :
    error.txHash = head.txHash := by
  unfold summarizeLog at h
  split at h
  · cases h
    rfl
  · cases h

-- ================================================================= one set

/-- All that a set reports carries the hash that its first event was emitted
under. -/
theorem txHash_of_summarize {set : List Event} (hhead : set.head? = some head) :
    (∀ summaries, summarize marketplace set = .ok summaries →
        ∀ summary ∈ summaries, summary.txHash = head.txHash)
      ∧ ∀ error, summarize marketplace set = .error error →
        error.txHash = head.txHash := by
  obtain ⟨tail, rfl⟩ := List.head?_eq_some_iff.1 hhead
  unfold summarize
  dsimp only
  cases firstUnknown? marketplace (head :: tail) with
  | some event =>
    refine ⟨nofun, ?_⟩
    rintro _ ⟨⟩
    rfl
  | none =>
    refine ⟨fun summaries hread summary hmem => ?_, fun error hread => ?_⟩
    · obtain ⟨log, -, hlog⟩ := exists_of_mem_mapM hread summary hmem
      exact txHash_of_summarizeLog hlog
    · obtain ⟨log, -, hlog⟩ := exists_of_mapM_error hread
      exact txHash_of_summarizeLog_error hlog

-- ================================================================ all sets

/-- However a log comes in pages, each of its sets belongs to the key of its
first event, and all that the set reports carries the hash which that event was
emitted under. This hash is the key just if no other transaction made the call
that emitted the event. -/
theorem txHash_of_mem_deal {pages : List (List Event)} {set : List Event}
    (hset : set ∈ deal pages) (marketplace : Marketplace) :
    ∃ head, set.head? = some head ∧ (∀ e ∈ set, e.belongsTo head.key = true)
      ∧ (∀ summaries, summarize marketplace set = .ok summaries →
        ∀ summary ∈ summaries, summary.txHash = head.txHash)
      ∧ (∀ error, summarize marketplace set = .error error →
        error.txHash = head.txHash)
      ∧ (head.txHash = head.key
        ↔ ∀ origin ∈ head.originTxHash, origin = head.txHash) := by
  obtain ⟨sets, hsets, hdealt⟩ := exists_dealt pages
  rw [hsets] at hset
  obtain ⟨placed, hmem, rfl⟩ := List.mem_map.1 hset
  obtain ⟨first, hfirst, hbelong⟩ := hdealt.led placed hmem
  have hhead : (placed.map Prod.fst).head? = some first.1 := by
    rw [List.head?_map, hfirst]
    rfl
  obtain ⟨hsummaries, herror⟩ := txHash_of_summarize hhead
  refine ⟨first.1, hhead, fun e he => ?_, hsummaries, herror,
    first.1.txHash_eq_key_iff⟩
  obtain ⟨event, hevent, rfl⟩ := List.mem_map.1 he
  exact hbelong event hevent

end EventSet

namespace Sample

/-- The set of the call, with the log of the call itself in front. -/
theorem deal_calledFirst :
    EventSet.deal [[called, caller]] = [[called, caller]] := by
  rw [EventSet.deal_eq_grouping (by unfold Chronological; decide)
    (by unfold EventSet.SameTime; decide)]
  simp [EventSet.grouping_cons, called, caller, Event.belongsTo, Event.key]

end Sample

/-- There the set of a transaction reports an action under the hash of a
call. -/
theorem EventSet.txHash_of_mem_deal_sample :
    [Sample.called, Sample.caller] ∈ deal [[Sample.called, Sample.caller]]
      ∧ ∃ summary, summarize Sample.market [Sample.called, Sample.caller]
          = .ok [summary]
        ∧ summary.txHash = "called" ∧ Sample.called.key = "caller" := by
  have hset : [Sample.called, Sample.caller]
      ∈ deal [[Sample.called, Sample.caller]] := by
    rw [Sample.deal_calledFirst]
    exact List.mem_singleton_self _
  obtain ⟨head, hhead, -, hsummaries, -⟩ := txHash_of_mem_deal hset Sample.market
  cases hhead
  exact ⟨hset, _, rfl, hsummaries _ rfl _ (List.mem_singleton_self _), rfl⟩

/-- The key of a set is not always the hash that its actions carry. -/
theorem EventSet.txHash_ne_key :
    ¬ ∀ (pages : List (List Event)) (set : List Event) (head : Event)
        (marketplace : Marketplace) (summaries : List ActionSummary),
      set ∈ deal pages → set.head? = some head →
        summarize marketplace set = .ok summaries →
          ∀ summary ∈ summaries, summary.txHash = head.key := by
  intro h
  have hkey := h [[Sample.called, Sample.caller]] [Sample.called, Sample.caller]
    Sample.called Sample.market _ (by rw [Sample.deal_calledFirst]; simp) rfl rfl _
    (List.mem_singleton_self _)
  exact absurd hkey (by decide)

end MarketReplay
