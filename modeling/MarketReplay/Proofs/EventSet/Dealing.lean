/-
Every event goes to exactly one set, whatever the log.

Here nothing is assumed of a log: an event may belong to the key of another
one at a different time, or through a chain of origins, so that a set pulls
events forward from anywhere in the buffer. What stays true is said of events
with their places in the log, because two equal events are still two events.

`Dealt read sets carry` is the state of a replay that has read some events,
dispatched some sets and keeps the rest waiting: the sets and what waits are
together a permutation of what was read, each set is a part of it in order and
belongs to the key of its first event, and the first events of the sets stand
in the order of their places, ahead of everything that still waits. Two things
happen to that state, a set is taken off the front of what waits
(`Dealt.take`) and a page arrives (`Dealt.arrive`); splitting a buffer and
gathering pages are nothing but such steps.
-/
import MarketReplay.Proofs.EventSet.Grouping

namespace MarketReplay.EventSet

/-- An event with its place in the log. -/
abbrev Placed := Event × Nat

/-- The first members of some sets. -/
def firsts (sets : List (List Placed)) : List Placed :=
  sets.filterMap List.head?

/-- Some sets were taken from what was read, and the rest waits. -/
structure Dealt (read : List Placed) (sets : List (List Placed))
    (carry : List Placed) : Prop where
  perm : (sets.flatten ++ carry).Perm read
  carry_sublist : carry.Sublist read
  set_sublist : ∀ set ∈ sets, set.Sublist read
  led : ∀ set ∈ sets, ∃ head, set.head? = some head
    ∧ ∀ e ∈ set, e.1.belongsTo head.1.key = true
  ordered : (firsts sets ++ carry).Pairwise (·.2 < ·.2)

namespace Dealt

variable {read carry : List Placed} {sets : List (List Placed)}

theorem nil : Dealt [] [] [] where
  perm := List.Perm.refl []
  carry_sublist := List.Sublist.refl []
  set_sublist := by simp
  led := by simp
  ordered := List.Pairwise.nil

/-- The first event that waits leaves with all that belongs to its key. -/
theorem take {head : Placed} {tail : List Placed}
    (h : Dealt read sets (head :: tail)) :
    Dealt read
      (sets ++ [(head :: tail).filter (·.1.belongsTo head.1.key)])
      (tail.filter (!·.1.belongsTo head.1.key)) := by
  have hset : (head :: tail).filter (·.1.belongsTo head.1.key)
      = head :: tail.filter (·.1.belongsTo head.1.key) :=
    List.filter_cons_of_pos (Event.belongsTo_key head.1)
  have hothers : (tail.filter (!·.1.belongsTo head.1.key)).Sublist tail :=
    List.filter_sublist
  constructor
  case perm =>
    -- the set and the others are a partition of what waited
    have hpart := List.filter_append_perm (·.1.belongsTo head.1.key) tail
    rw [List.flatten_append, List.flatten_singleton, List.append_assoc, hset]
    exact ((hpart.cons head).append_left _).trans h.perm
  case carry_sublist =>
    exact (hothers.trans (List.sublist_cons_self head tail)).trans
      h.carry_sublist
  case set_sublist =>
    intro set hmem
    rcases List.mem_append.1 hmem with hmem | hmem
    · exact h.set_sublist set hmem
    · obtain rfl := List.mem_singleton.1 hmem
      exact List.filter_sublist.trans h.carry_sublist
  case led =>
    intro set hmem
    rcases List.mem_append.1 hmem with hmem | hmem
    · exact h.led set hmem
    · obtain rfl := List.mem_singleton.1 hmem
      refine ⟨head, by rw [hset]; rfl, fun e he => ?_⟩
      exact (List.mem_filter.1 he).2
  case ordered =>
    have hfirsts : firsts (sets ++ [(head :: tail).filter
        (·.1.belongsTo head.1.key)]) = firsts sets ++ [head] := by
      unfold firsts
      rw [List.filterMap_append, hset]
      rfl
    rw [hfirsts, List.append_assoc]
    exact h.ordered.sublist
      ((List.Sublist.refl _).append (hothers.cons_cons head))

/-- What arrives later stands at later places, and waits. -/
theorem arrive {page : List Placed} (h : Dealt read sets carry)
    (hread : (read ++ page).Pairwise (·.2 < ·.2)) :
    Dealt (read ++ page) sets (carry ++ page) := by
  have hleft : read.Sublist (read ++ page) := List.sublist_append_left ..
  constructor
  case perm =>
    rw [← List.append_assoc]
    exact h.perm.append_right page
  case carry_sublist =>
    exact h.carry_sublist.append (List.Sublist.refl page)
  case set_sublist => exact fun set hmem => (h.set_sublist set hmem).trans hleft
  case led => exact h.led
  case ordered =>
    obtain ⟨-, hpage, hacross⟩ := List.pairwise_append.1 hread
    rw [← List.append_assoc]
    -- whatever leads a set or waits has been read before the page
    refine List.pairwise_append.2 ⟨h.ordered, hpage, fun e he f hf => ?_⟩
    refine hacross e ?_ f hf
    rcases List.mem_append.1 he with he | he
    · obtain ⟨set, hmem, hhead⟩ := List.mem_filterMap.1 he
      exact (h.set_sublist set hmem).subset (List.mem_of_head? hhead)
    · exact h.carry_sublist.subset he

/-- Splitting what waits takes sets off its front. -/
theorem split (h : Dealt read sets carry) (final : Bool) :
    ∃ more left,
      EventSet.split final (carry.map Prod.fst)
          = (more.map (·.map Prod.fst), left.map Prod.fst)
        ∧ Dealt read (sets ++ more) left := by
  induction hcarry : carry.map Prod.fst using setInduction
    generalizing sets carry with
  | nil =>
      rw [List.map_eq_nil_iff] at hcarry
      subst hcarry
      exact ⟨[], [], by simp, by simpa using h⟩
  | cons head tail ih =>
      obtain ⟨first, rest, rfl, rfl, rfl⟩ := List.map_eq_cons_iff.1 hcarry
      by_cases hwait : (!final && waits first.1 (first.1 :: rest.map Prod.fst))
          = true
      · refine ⟨[], first :: rest, ?_, by simpa using h⟩
        rw [split_wait hwait]
        rfl
      · have hothers : (rest.map Prod.fst).filter (!·.belongsTo first.1.key)
            = (rest.filter (!·.1.belongsTo first.1.key)).map Prod.fst := by
          rw [List.filter_map]
          rfl
        obtain ⟨more, left, hsplit, hdealt⟩ := ih h.take hothers.symm
        rw [List.append_assoc] at hdealt
        refine ⟨_, left, ?_, hdealt⟩
        rw [split_take hwait, hsplit, ← List.map_cons, List.filter_map]
        rfl

/-- So does gathering pages, while they arrive. -/
theorem gather {pages : List (List Placed)} (h : Dealt read sets carry)
    (hread : (read ++ pages.flatten).Pairwise (·.2 < ·.2)) :
    ∃ more left,
      EventSet.gather (carry.map Prod.fst) (pages.map (·.map Prod.fst))
          = (more.map (·.map Prod.fst), left.map Prod.fst)
        ∧ Dealt (read ++ pages.flatten) (sets ++ more) left := by
  induction pages generalizing read sets carry with
  | nil => exact ⟨[], carry, rfl, by simpa using h⟩
  | cons page pages ih =>
      rw [List.flatten_cons, ← List.append_assoc] at hread ⊢
      obtain ⟨now, rest, hsplit, hnow⟩ :=
        (h.arrive (hread.sublist (List.sublist_append_left ..))).split false
      obtain ⟨more, left, hgather, hdealt⟩ := ih hnow hread
      refine ⟨now ++ more, left, ?_, List.append_assoc .. ▸ hdealt⟩
      rw [List.map_cons, EventSet.gather, ← List.map_append, hsplit]
      dsimp only
      rw [hgather, List.map_append]

end Dealt

/-- The events of some pages with their places in all of them. -/
theorem exists_placed (pages : List (List Event)) (place : Nat) :
    ∃ placed : List (List Placed), placed.map (·.map Prod.fst) = pages
      ∧ placed.flatten = pages.flatten.zipIdx place := by
  induction pages generalizing place with
  | nil => exact ⟨[], rfl, rfl⟩
  | cons page pages ih =>
      obtain ⟨placed, hpages, hflat⟩ := ih (place + page.length)
      refine ⟨page.zipIdx place :: placed, ?_, ?_⟩
      · rw [List.map_cons, List.zipIdx_map_fst, hpages]
      · rw [List.flatten_cons, List.flatten_cons, hflat, List.zipIdx_append]

theorem pairwise_zipIdx (events : List Event) (place : Nat) :
    (events.zipIdx place).Pairwise (·.2 < ·.2) := by
  have h : ((events.zipIdx place).map Prod.snd).Pairwise (· < ·) := by
    rw [List.zipIdx_map_snd]
    exact List.pairwise_lt_range'
  exact List.pairwise_map.1 h

/-- However a log comes in pages, its sets deal all of it out, and nothing is
left. -/
theorem exists_dealt (pages : List (List Event)) :
    ∃ sets, deal pages = sets.map (·.map Prod.fst)
      ∧ Dealt pages.flatten.zipIdx sets [] := by
  obtain ⟨placed, rfl, hflat⟩ := exists_placed pages 0
  have hread := pairwise_zipIdx (placed.map (·.map Prod.fst)).flatten 0
  rw [← hflat] at hread ⊢
  obtain ⟨more, left, hgather, hdealt⟩ := Dealt.nil.gather hread
  obtain ⟨last, none, hsplit, hall⟩ := hdealt.split true
  -- the final split leaves no events, so no places either
  have hnone : none.map Prod.fst = [] := by
    have := congrArg Prod.snd hsplit
    rw [split_true] at this
    exact this.symm
  rw [List.map_eq_nil_iff.1 hnone] at hall
  refine ⟨more ++ last, ?_, by simpa using hall⟩
  rw [List.map_nil] at hgather
  rw [deal, hgather, hsplit, List.map_append]

/-- The sets hold the events of the pages, each once. -/
theorem deal_perm (pages : List (List Event)) :
    (deal pages).flatten.Perm pages.flatten := by
  obtain ⟨sets, hsets, hdealt⟩ := exists_dealt pages
  have hevents := hdealt.perm.map Prod.fst
  rw [List.append_nil, List.map_flatten, List.zipIdx_map_fst] at hevents
  rwa [hsets]

theorem ne_nil_of_mem_deal {pages : List (List Event)} {set : List Event}
    (h : set ∈ deal pages) : set ≠ [] := by
  obtain ⟨sets, hsets, hdealt⟩ := exists_dealt pages
  rw [hsets] at h
  obtain ⟨placed, hmem, rfl⟩ := List.mem_map.1 h
  obtain ⟨head, hhead, -⟩ := hdealt.led placed hmem
  intro hnil
  rw [List.map_eq_nil_iff.1 hnil] at hhead
  cases hhead

/-- Sets dealt from a log in order of time begin in order of time. -/
theorem Dealt.firsts_chronological {events : List Event}
    {sets : List (List Placed)} (h : Dealt events.zipIdx sets [])
    (hchron : Chronological events) :
    Chronological ((sets.map (·.map Prod.fst)).filterMap List.head?) := by
  have hfirsts : (sets.map (·.map Prod.fst)).filterMap List.head?
      = (firsts sets).map Prod.fst := by
    unfold firsts
    rw [List.filterMap_map, List.map_filterMap]
    exact congrArg (List.filterMap · sets) (funext fun set => List.head?_map)
  have hordered := h.ordered
  rw [List.append_nil] at hordered
  rw [hfirsts]
  refine List.pairwise_map.2 (hordered.imp_of_mem fun {e f} he hf hlt => ?_)
  -- the place of a first event is where it stands in the log
  have hplace : ∀ e ∈ firsts sets, events[e.2]? = some e.1 := by
    intro e he
    obtain ⟨set, hmem, hhead⟩ := List.mem_filterMap.1 he
    exact List.mem_zipIdx_iff_getElem?.1
      ((h.set_sublist set hmem).subset (List.mem_of_head? hhead))
  obtain ⟨hel, he⟩ := List.getElem?_eq_some_iff.1 (hplace e he)
  obtain ⟨hfl, hf⟩ := List.getElem?_eq_some_iff.1 (hplace f hf)
  rw [← he, ← hf]
  exact List.pairwise_iff_getElem.1 hchron e.2 f.2 hel hfl hlt

end MarketReplay.EventSet
