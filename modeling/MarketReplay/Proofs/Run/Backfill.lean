/-
Filling in tags does not depend on how the tokens are asked about.

A replay cuts the tokens without tags into requests and has some of them under
way at once. Neither shows in the book: with services in memory every auction
without tags gets those that its token has there (`Memory.tagsFor`), and the
count is of the auctions that changed. The requests one after another
(`run_mapM_tagsOf`) and every schedule of them (`Window.Sound.ends`) come to
the same answers, and the answers tell the tags of every token that was asked
about (`Memory.tells`). Where a request fails no book is answered, and a book
that was to be filled in place is left as it was (`Replayer.LeavesBook`).
-/
import MarketReplay.Proofs.Book.Tagging
import MarketReplay.Proofs.Run.Filling
import MarketReplay.Proofs.Run.Progress

namespace MarketReplay

-- ============================================================ the answers

namespace Memory

variable {memory : Memory}

/-- The tags that the memory has for a token. -/
def tagsFor (memory : Memory) (identifier : String) : List String :=
  ((memory.tags.find? (·.identifier == identifier)).map (·.tags)).getD []

theorem tagsFor_of_find? {identifier : String} {answer : TokenTags}
    (h : memory.tags.find? (·.identifier == identifier) = some answer) :
    answer.identifier = identifier
      ∧ answer.tags = memory.tagsFor identifier := by
  have hsame := List.find?_some h
  unfold tagsFor
  rw [h]
  exact ⟨eq_of_beq hsame, rfl⟩

/-- The answers to some requests tell the tags of all tokens in them. -/
theorem tells (memory : Memory) (requests : List (List String)) :
    Tells memory.tagsFor
      (requests.map fun request => memory.tagsOf request 0).flatten
      requests.flatten := by
  have hmem : ∀ answer, answer ∈ (requests.map fun request =>
      memory.tagsOf request 0).flatten ↔
      ∃ identifier ∈ requests.flatten,
        memory.tags.find? (·.identifier == identifier) = some answer := by
    intro answer
    unfold tagsOf
    simp only [List.drop_zero, List.mem_flatten, List.mem_map,
      exists_exists_and_eq_and, List.mem_filterMap]
    constructor
    · rintro ⟨request, hrequest, identifier, hidentifier, hfound⟩
      exact ⟨identifier, ⟨request, hrequest, hidentifier⟩, hfound⟩
    · rintro ⟨identifier, ⟨request, hrequest, hidentifier⟩, hfound⟩
      exact ⟨request, hrequest, identifier, hidentifier, hfound⟩
  constructor
  · intro answer hanswer
    obtain ⟨identifier, -, hfound⟩ := (hmem answer).1 hanswer
    obtain ⟨rfl, htags⟩ := tagsFor_of_find? hfound
    exact htags
  · intro identifier hidentifier hsome
    cases hfound : memory.tags.find? (·.identifier == identifier) with
    | none =>
        refine absurd ?_ hsome
        unfold tagsFor
        rw [hfound]
        rfl
    | some answer =>
        exact ⟨answer, (hmem answer).2 ⟨identifier, hidentifier, hfound⟩,
          (tagsFor_of_find? hfound).1⟩

end Memory

-- ======================================================== the requests made

/-- One failure among some is enough. -/
theorem exists_mapM_error {α β ε : Type} {f : α → Except ε β} {list : List α}
    {a : α} {error : ε} (hmem : a ∈ list) (h : f a = .error error) :
    ∃ first, list.mapM f = .error first := by
  induction list with
  | nil => cases hmem
  | cons b list ih =>
      rw [List.mapM_cons]
      cases hfirst : f b with
      | error first => exact ⟨first, rfl⟩
      | ok c =>
          rcases List.mem_cons.1 hmem with rfl | hrest
          · rw [h] at hfirst
            cases hfirst
          · obtain ⟨first, hrest⟩ := ih hrest
            rw [hrest]
            exact ⟨first, rfl⟩

section requests

variable (token : List Token → String → Except RunError (Option Token))
  (tagsOf : List TokenTags → List String → Nat →
    Except RunError (List TokenTags))

/-- Requests one after another come to their answers, up to the first that
fails. -/
theorem run_mapM_tagsOf (requests : List (List String)) (memory : Memory) :
    ∃ asked, (requests.mapM fun request =>
        (Memory.servicesBy token tagsOf).tagsOf request 0).run memory
      = (requests.mapM (tagsOf memory.tags · 0),
        { memory with tagRequests := memory.tagRequests ++ asked })
      ∧ asked <+: requests
      ∧ ((∃ answers, requests.mapM (tagsOf memory.tags · 0) = .ok answers) →
        asked = requests) := by
  induction requests generalizing memory with
  | nil =>
      refine ⟨[], ?_, List.nil_prefix, fun _ => rfl⟩
      rw [List.append_nil]
      rfl
  | cons request requests ih =>
      have hrun := Memory.run_tagsOf token tagsOf request 0 memory
      rw [List.mapM_cons, List.mapM_cons]
      cases hfirst : tagsOf memory.tags request 0 with
      | error error =>
          rw [hfirst] at hrun
          refine ⟨[request], ?_, ⟨requests, rfl⟩, nofun⟩
          rw [Call.run_bind_error hrun]
          rfl
      | ok tags =>
          rw [hfirst] at hrun
          -- answers do not depend on the requests heard, so the rest may begin here
          let between : Memory :=
            { memory with tagRequests := memory.tagRequests ++ [request] }
          obtain ⟨asked, hrest, hprefix, hall⟩ := ih between
          have hworld : ({ between with
              tagRequests := between.tagRequests ++ asked } : Memory)
              = { memory with
                tagRequests := memory.tagRequests ++ request :: asked } := by
            rw [List.append_cons]
          rw [hworld] at hrest
          refine ⟨request :: asked, ?_,
            List.cons_prefix_cons.2 ⟨rfl, hprefix⟩, ?_⟩
          · rw [Call.run_bind_ok hrun, ← map_eq_pure_bind, Call.run_map, hrest]
            cases requests.mapM (tagsOf memory.tags · 0) <;> rfl
          · rintro ⟨answers, hanswers⟩
            refine congrArg (request :: ·) (hall ?_)
            cases hothers : requests.mapM (tagsOf memory.tags · 0) with
            | error error => rw [hothers] at hanswers; cases hanswers
            | ok others => exact ⟨others, rfl⟩

end requests

-- ============================================================= the replay

/-- The tokens without tags are asked about, each once, in requests that are
neither empty nor larger than the settings allow. -/
structure Book.AsksFor (book : Book) (size : Nat)
    (requests : List (List String)) : Prop where
  once : requests.flatten.Nodup
  mem_iff : ∀ identifier, identifier ∈ requests.flatten ↔
    ∃ auction ∈ book.auctions,
      auction.tags = [] ∧ auction.identifier = identifier
  length : ∀ request ∈ requests,
    0 < request.length ∧ request.length ≤ max size 1

theorem Book.asksFor_tagRequests (book : Book) (size : Nat) :
    book.AsksFor size (book.tagRequests size) where
  once := book.nodup_flatten_tagRequests size
  mem_iff _ := mem_flatten_tagRequests
  length _ := length_of_mem_tagRequests

/-- The memory has heard of some of the requests, of each once at most. -/
def Memory.AskedAmong (first : Memory) (requests : List (List String))
    (last : Memory) : Prop :=
  ∃ asked unheard, (asked ++ unheard).Perm requests
    ∧ last = { first with tagRequests := first.tagRequests ++ asked }

namespace Replayer

section

variable (config : Config) (handlers : Registry)
  (token : List Token → String → Except RunError (Option Token))
  (tagsOf : List TokenTags → List String → Nat →
    Except RunError (List TokenTags)) (book : Book) (memory : Memory)

/-- One request after another. -/
theorem run_backfill :
    let replayer : Replayer Memory :=
      ⟨config, Memory.servicesBy token tagsOf, handlers⟩
    let requests := book.tagRequests config.metadataBatchSize
    let answers := requests.mapM (tagsOf memory.tags · 0)
    ∃ asked, (replayer.backfill book).run memory
        = (answers.map book.fillWith,
          { memory with tagRequests := memory.tagRequests ++ asked })
      ∧ asked <+: requests
      ∧ ((∃ collected, answers = .ok collected) → asked = requests) := by
  intro replayer requests answers
  obtain ⟨asked, hrun, hasked⟩ := run_mapM_tagsOf token tagsOf requests memory
  refine ⟨asked, ?_, hasked⟩
  rw [backfill_eq, Call.run_map, hrun]

variable {config handlers token tagsOf book memory}

/-- Several at once come to the same. -/
theorem of_backfills {result : Except RunError (Nat × Book)} {last : Memory}
    (h : Backfills ⟨config, Memory.servicesBy token tagsOf, handlers⟩ book
      memory result last) :
    let requests := book.tagRequests config.metadataBatchSize
    let answers := requests.mapM (tagsOf memory.tags · 0)
    result = answers.map book.fillWith
      ∧ memory.AskedAmong requests last
      ∧ ((∃ collected, answers = .ok collected) → ∃ asked,
        asked.Perm requests ∧ last = { memory with
          tagRequests := memory.tagRequests ++ asked }) := by
  intro requests answers
  obtain ⟨window, collected, hreach, hends, rfl⟩ := h
  obtain ⟨handed, asked, hsound⟩ :=
    (Window.sound_start (tagsOf memory.tags · 0) memory requests).steps
      hreach
  obtain ⟨hanswers, hlast, ⟨unheard, hunheard⟩, hall⟩ := hsound.ends hends
  rw [hanswers] at hall
  exact ⟨congrArg _ hanswers, ⟨asked, unheard, hunheard, hlast⟩,
    fun hok => ⟨asked, hall hok, hlast⟩⟩

end

/-- The answers in memory tell the tags of every token that is asked about. -/
theorem fillWith_tagsOf (book : Book) (size : Nat) (memory : Memory) :
    book.fillWith ((book.tagRequests size).map (memory.tagsOf · 0))
      = (book.tagCount memory.tagsFor, book.tagBy memory.tagsFor) := by
  have htells := memory.tells (book.tagRequests size)
  rw [Book.flatten_tagRequests] at htells
  obtain ⟨hbook, hcount⟩ := htells.fillTags_book
  exact Prod.ext hcount hbook

/-- In memory no request fails. -/
theorem mapM_tagsAmong (requests : List (List String)) (memory : Memory) :
    requests.mapM (Memory.tagsAmong memory.tags · 0)
      = .ok (requests.map (memory.tagsOf · 0)) :=
  Window.mapM_of_answered (by rw [List.map_map]; rfl)

/-- Filling in tags with services in memory, one request after another or
several at once. -/
theorem fills_services (config : Config) (handlers : Registry) (book : Book)
    (memory : Memory) :
    let replayer : Replayer Memory := ⟨config, Memory.services, handlers⟩
    let requests := book.tagRequests config.metadataBatchSize
    let filled := (book.tagCount memory.tagsFor, book.tagBy memory.tagsFor)
    (replayer.backfill book).run memory = (.ok filled,
        { memory with tagRequests := memory.tagRequests ++ requests })
      ∧ ∀ result last, replayer.Backfills book memory result last →
        result = .ok filled ∧ ∃ asked, asked.Perm requests
          ∧ last = { memory with
            tagRequests := memory.tagRequests ++ asked } := by
  intro replayer requests filled
  have hanswers := mapM_tagsAmong requests memory
  have hfilled : (requests.mapM (Memory.tagsAmong memory.tags · 0)).map
      book.fillWith = .ok filled := by
    rw [hanswers]
    exact congrArg Except.ok (fillWith_tagsOf book _ memory)
  constructor
  · obtain ⟨asked, hrun, -, hall⟩ := run_backfill config handlers
      Memory.tokenAmong Memory.tagsAmong book memory
    rw [hfilled, hall ⟨_, hanswers⟩] at hrun
    exact hrun
  · intro result last h
    have hservices : Backfills ⟨config, Memory.servicesBy Memory.tokenAmong
        Memory.tagsAmong, handlers⟩ book memory result last := h
    obtain ⟨hresult, -, hall⟩ := of_backfills hservices
    exact ⟨hresult.trans hfilled, hall ⟨_, hanswers⟩⟩

/-- Filling in tags does not depend on how the tokens are asked about. Each
token without tags is asked about once, in requests of a bounded size. Every
auction without tags gets those of its token, nothing else changes, and the
auctions that change are counted; a second filling finds nothing to do. With
services that fail one of the requests it fails, only the requests can be
seen to have happened, and the book is left exactly as it was. All that holds
for every size of the requests and however many of them are under way at
once. -/
theorem backfill_batches (config : Config) (handlers : Registry) (book : Book)
    (memory : Memory) :
    let requests := book.tagRequests config.metadataBatchSize
    let replayer : Replayer Memory := ⟨config, Memory.services, handlers⟩
    let filled := book.tagBy memory.tagsFor
    let later := { memory with tagRequests := memory.tagRequests ++ requests }
    book.AsksFor config.metadataBatchSize requests
    ∧ (replayer.backfill book).run memory
      = (.ok (book.tagCount memory.tagsFor, filled), later)
    ∧ (∃ result last, replayer.Backfills book memory result last)
    ∧ (∀ result last, replayer.Backfills book memory result last →
      result = .ok (book.tagCount memory.tagsFor, filled)
      ∧ ∃ asked, asked.Perm requests ∧ last = { memory with
        tagRequests := memory.tagRequests ++ asked })
    ∧ replayer.LeavesBook book memory (.ok (book.tagCount memory.tagsFor))
      filled
    ∧ (∀ other : Config,
      let again : Replayer Memory := ⟨other, Memory.services, handlers⟩
      ((again.backfill filled).run later).1 = .ok (0, filled)
      ∧ (∀ result last, again.Backfills filled later result last →
        result = .ok (0, filled))
      ∧ again.LeavesBook filled later (.ok 0) filled)
    ∧ ∀ tagsOf : List TokenTags → List String → Nat →
        Except RunError (List TokenTags),
      (∃ request ∈ requests, ∃ error,
        tagsOf memory.tags request 0 = .error error) →
      let faulty : Replayer Memory :=
        ⟨config, Memory.servicesBy Memory.tokenAmong tagsOf, handlers⟩
      ∃ error, (∃ request ∈ requests,
          tagsOf memory.tags request 0 = .error error)
        ∧ ((faulty.backfill book).run memory).1 = .error error
        ∧ memory.AskedAmong requests ((faulty.backfill book).run memory).2
        ∧ (∀ result last, faulty.Backfills book memory result last →
          result = .error error ∧ memory.AskedAmong requests last)
        ∧ faulty.LeavesBook book memory (.error error) book := by
  intro requests replayer filled later
  obtain ⟨hrun, hall⟩ := fills_services config handlers book memory
  refine ⟨book.asksFor_tagRequests _, hrun, replayer.exists_backfills _ _,
    hall, ?_, ?_, ?_⟩
  · exact leavesBook (congrArg Prod.fst hrun)
      fun other last h => (hall other last h).1
  · intro other again
    obtain ⟨hsame, hnone⟩ := book.tagBy_tagBy memory.tagsFor
    obtain ⟨hagain, hagains⟩ := fills_services other handlers filled later
    have htags : later.tagsFor = memory.tagsFor := rfl
    rw [htags, hsame, hnone] at hagain hagains
    have hresult := congrArg Prod.fst hagain
    have hresults : ∀ result last, again.Backfills filled later result last →
        result = .ok (0, filled) := fun result last h => (hagains result last h).1
    exact ⟨hresult, hresults, leavesBook hresult hresults⟩
  · rintro tagsOf ⟨request, hrequest, failure, hfailure⟩ faulty
    obtain ⟨error, herror⟩ := exists_mapM_error
      (f := (tagsOf memory.tags · 0)) hrequest hfailure
    obtain ⟨asked, hrun, ⟨unheard, hprefix⟩, -⟩ := run_backfill config handlers
      Memory.tokenAmong tagsOf book memory
    rw [herror] at hrun
    have hresult : ((faulty.backfill book).run memory).1 = .error error :=
      congrArg Prod.fst hrun
    have hfails : ∀ result last, faulty.Backfills book memory result last →
        result = .error error ∧ memory.AskedAmong requests last := by
      intro result last h
      obtain ⟨hresult, hasked, -⟩ := of_backfills h
      rw [herror] at hresult
      exact ⟨hresult, hasked⟩
    refine ⟨error, EventSet.exists_of_mapM_error herror, hresult, ?_, hfails,
      leavesBook hresult fun result last h => (hfails result last h).1⟩
    rw [hrun]
    exact ⟨asked, unheard, .of_eq hprefix, rfl⟩

end Replayer

end MarketReplay
