/-
Requests that are under way at once.

A replay may have several requests for tags under way, as many as its settings
allow. They are sent in order, they are served in any order, and their answers
are handed on in the order of the requests; the first failure that is handed
on ends it all, whatever is still under way. `Window.Step` is one event of
that kind, and a schedule is any sequence of them.

What comes out does not depend on the schedule, where the service answers each
request by itself (`Window.Sound.ends`): it is what comes out of the requests
one after another. Only the order in which the service hears of them depends
on it. No schedule goes on forever (`Window.left_lt_of_step`), and none is
stuck before its end (`Window.exists_step`).
-/
import Mathlib.Logic.Relation
import MarketReplay.Proofs.Run.Contract

namespace MarketReplay

-- ============================================================ the schedule

/-- A request under way, with its answer once it is served. -/
structure Pending where
  request : List String
  answer? : Option (Except RunError (List TokenTags))

/-- How far some requests have come. -/
structure Window where
  /-- Not sent yet. -/
  waiting : List (List String)
  /-- Under way, the oldest first. -/
  pending : List Pending
  /-- The answers handed on. -/
  collected : List (List TokenTags)
  world : Memory

namespace Window

/-- Before the first request is sent. -/
def start (requests : List (List String)) (world : Memory) : Window :=
  ⟨requests, [], [], world⟩

/-- One more event: a request is sent, if there is room for it, or served, or
the oldest answer is handed on. -/
inductive Step (services : Services Memory) (limit : Nat) :
    Window → Window → Prop
  | send {request : List String} {waiting : List (List String)}
      {pending : List Pending} {collected : List (List TokenTags)}
      {world : Memory} (room : pending.length < limit) :
      Step services limit ⟨request :: waiting, pending, collected, world⟩
        ⟨waiting, pending ++ [⟨request, none⟩], collected, world⟩
  | serve {request : List String} {waiting : List (List String)}
      {before after : List Pending} {collected : List (List TokenTags)}
      {world later : Memory} {answer : Except RunError (List TokenTags)}
      (served : (services.tagsOf request 0).run world = (answer, later)) :
      Step services limit
        ⟨waiting, before ++ ⟨request, none⟩ :: after, collected, world⟩
        ⟨waiting, before ++ ⟨request, some answer⟩ :: after, collected, later⟩
  | collect {request : List String} {tags : List TokenTags}
      {waiting : List (List String)} {pending : List Pending}
      {collected : List (List TokenTags)} {world : Memory} :
      Step services limit
        ⟨waiting, ⟨request, some (.ok tags)⟩ :: pending, collected, world⟩
        ⟨waiting, pending, collected ++ [tags], world⟩

/-- The end: every answer is handed on, or the next one is a failure. -/
inductive Ends : Window → Except RunError (List (List TokenTags)) → Memory →
    Prop
  | done {collected : List (List TokenTags)} {world : Memory} :
      Ends ⟨[], [], collected, world⟩ (.ok collected) world
  | failed {request : List String} {error : RunError}
      {waiting : List (List String)} {pending : List Pending}
      {collected : List (List TokenTags)} {world : Memory} :
      Ends ⟨waiting, ⟨request, some (.error error)⟩ :: pending, collected,
        world⟩ (.error error) world

/-- There are never more requests under way than there is room for. -/
theorem length_pending_le {services : Services Memory} {limit : Nat}
    {requests : List (List String)} {world : Memory} {window : Window}
    (h : Relation.ReflTransGen (Step services limit) (start requests world)
      window) :
    window.pending.length ≤ limit := by
  induction h with
  | refl => exact Nat.zero_le limit
  | tail _ hstep ih =>
      cases hstep with
      | send room =>
          rw [List.length_append, List.length_singleton]
          exact room
      | serve served =>
          rw [List.length_append, List.length_cons] at ih ⊢
          exact ih
      | collect => exact Nat.le_of_succ_le ih

-- ========================================================== all come to it

/-- How many events are left at most. -/
def left (window : Window) : Nat :=
  3 * window.waiting.length + window.pending.length
    + window.pending.countP (·.answer?.isNone)

variable {services : Services Memory} {limit : Nat} {window next : Window}

/-- Each event of a schedule brings its end closer. -/
theorem left_lt_of_step (h : Step services limit window next) :
    next.left < window.left := by
  unfold left
  cases h with
  | send room =>
      simp
      omega
  | serve served => simp
  | collect => simp

/-- Whatever has not come to its end goes on. -/
theorem exists_step (services : Services Memory) (hlimit : 0 < limit)
    (window : Window) :
    (∃ answers world, window.Ends answers world)
      ∨ ∃ next, Step services limit window next := by
  obtain ⟨waiting, pending, collected, world⟩ := window
  cases pending with
  | nil =>
      cases waiting with
      | nil => exact .inl ⟨_, _, .done⟩
      | cons request waiting => exact .inr ⟨_, .send hlimit⟩
  | cons oldest pending =>
      obtain ⟨request, answer⟩ := oldest
      rcases answer with _ | (error | tags)
      · exact .inr ⟨_, @Step.serve services limit request waiting [] pending
          collected world _ _ rfl⟩
      · exact .inl ⟨_, _, .failed⟩
      · exact .inr ⟨_, .collect⟩

/-- So every schedule can be brought to an end. -/
theorem exists_ends (services : Services Memory) (hlimit : 0 < limit)
    (window : Window) :
    ∃ last answers world,
      Relation.ReflTransGen (Step services limit) window last
        ∧ last.Ends answers world := by
  induction hleft : window.left using Nat.strongRecOn
    generalizing window with
  | ind n ih =>
      rcases exists_step services hlimit window with
        ⟨answers, world, hends⟩ | ⟨next, hstep⟩
      · exact ⟨window, answers, world, .refl, hends⟩
      · obtain ⟨last, answers, world, hreach, hends⟩ :=
          ih next.left (hleft ▸ left_lt_of_step hstep) next rfl
        exact ⟨last, answers, world, .head hstep hreach, hends⟩

-- ============================================================= what is true

/-- The requests among these that are served. -/
def served (pending : List Pending) : List (List String) :=
  (pending.filter (·.answer?.isSome)).map (·.request)

/-- The requests served in two parts, one part after the other. -/
theorem served_append (before after : List Pending) :
    served (before ++ after) = served before ++ served after := by
  unfold served
  rw [List.filter_append, List.map_append]

@[simp] theorem served_cons_none (request : List String)
    (pending : List Pending) :
    served (⟨request, none⟩ :: pending) = served pending := rfl

@[simp] theorem served_cons_some (request : List String)
    (answer : Except RunError (List TokenTags)) (pending : List Pending) :
    served (⟨request, some answer⟩ :: pending) = request :: served pending :=
  rfl

section Sound

variable {ask : List String → Except RunError (List TokenTags)}
  {first : Memory} {requests handed asked : List (List String)}

/-- What is true of a window in which requests are answered one like the
other: they are handed on, under way and waiting in order, each answer is the
one to its request, and the service has heard of those that are served, in
some order. -/
structure Sound (ask : List String → Except RunError (List TokenTags))
    (first : Memory) (requests handed asked : List (List String))
    (window : Window) : Prop where
  order : requests
    = handed ++ (window.pending.map (·.request) ++ window.waiting)
  collected : handed.map ask = window.collected.map .ok
  answers : ∀ pending ∈ window.pending, ∀ answer,
    pending.answer? = some answer → answer = ask pending.request
  heard : asked.Perm (handed ++ served window.pending)
  world : window.world
    = { first with tagRequests := first.tagRequests ++ asked }

/-- A window in which nothing was sent yet is sound. -/
theorem sound_start (ask : List String → Except RunError (List TokenTags))
    (first : Memory) (requests : List (List String)) :
    Sound ask first requests [] [] (start requests first) where
  order := rfl
  collected := rfl
  answers := by nofun
  heard := .refl _
  world := by
    show first = _
    rw [List.append_nil]

variable {token : List Token → String → Except RunError (Option Token)}
  {tagsOf : List TokenTags → List String → Nat →
    Except RunError (List TokenTags)}

/-- Each event of a schedule keeps a window sound. -/
theorem Sound.step
    (h : Sound (tagsOf first.tags · 0) first requests handed asked
      window)
    (hstep : Step (Memory.servicesBy token tagsOf) limit window next) :
    ∃ handed asked, Sound (tagsOf first.tags · 0) first requests handed
      asked next := by
  cases hstep with
  | send room =>
      refine ⟨handed, asked, ?_, h.collected, ?_, ?_, h.world⟩
      · simpa using h.order
      · intro pending hmem answer hanswer
        rcases List.mem_append.1 hmem with hold | hnew
        · exact h.answers pending hold answer hanswer
        · rw [List.mem_singleton] at hnew
          rw [hnew] at hanswer
          cases hanswer
      · rw [served_append, served_cons_none]
        rw [show served [] = [] from rfl, List.append_nil]
        exact h.heard
  | @serve request waiting before after collected world later answer served =>
      have hworld : world
          = { first with tagRequests := first.tagRequests ++ asked } := h.world
      -- requests that were heard before left nothing but their names, so the
      -- answer is the one that the first world gives
      rw [Memory.run_tagsOf, hworld] at served
      cases served
      refine ⟨handed, asked ++ [request], ?_, h.collected, ?_, ?_, ?_⟩
      · simpa using h.order
      · intro pending hmem answer hanswer
        rcases List.mem_append.1 hmem with hold | hrest
        · exact h.answers pending (List.mem_append_left _ hold) answer hanswer
        · rcases List.mem_cons.1 hrest with rfl | hold
          · exact (Option.some.inj hanswer).symm
          · exact h.answers pending
              (List.mem_append_right _ (List.mem_cons_of_mem _ hold)) answer
              hanswer
      · -- the service hears of it now, wherever it stands among the requests
        have hheard := h.heard
        rw [served_append, served_cons_none] at hheard
        rw [served_append, served_cons_some]
        refine (hheard.append_right [request]).trans ?_
        rw [← List.append_assoc, ← List.append_assoc]
        exact (List.perm_append_singleton _ _).trans List.perm_middle.symm
      · rw [← List.append_assoc]
  | @collect request tags waiting pending collected world =>
      refine ⟨handed ++ [request], asked, ?_, ?_, ?_, ?_, h.world⟩
      · simpa using h.order
      · have hanswer := h.answers _ List.mem_cons_self _ rfl
        rw [List.map_append, List.map_append, h.collected]
        simp [← hanswer]
      · exact fun pending hmem =>
          h.answers pending (List.mem_cons_of_mem _ hmem)
      · rw [List.append_assoc]
        exact h.heard

/-- And any number of events. -/
theorem Sound.steps (h : Sound (tagsOf first.tags · 0) first requests
      handed asked window)
    (hsteps : Relation.ReflTransGen
      (Step (Memory.servicesBy token tagsOf) limit) window next) :
    ∃ handed asked, Sound (tagsOf first.tags · 0) first requests handed
      asked next := by
  induction hsteps with
  | refl => exact ⟨handed, asked, h⟩
  | tail _ hstep ih =>
      obtain ⟨handed, asked, hbetween⟩ := ih
      exact hbetween.step hstep

/-- The service hears of each request at most once. -/
theorem Sound.exists_unheard
    (h : Sound ask first requests handed asked window) :
    ∃ unheard, (asked ++ unheard).Perm requests := by
  let unserved := window.pending.filter (!·.answer?.isSome)
  have hpending : (served window.pending ++ unserved.map (·.request)).Perm
      (window.pending.map (·.request)) := by
    unfold served
    rw [← List.map_append]
    exact (List.filter_append_perm _ window.pending).map _
  refine ⟨unserved.map (·.request) ++ window.waiting, ?_⟩
  rw [h.order]
  refine (h.heard.append_right _).trans ?_
  rw [List.append_assoc, ← List.append_assoc (served window.pending)]
  exact (hpending.append_right window.waiting).append_left handed

/-- Requests that were all answered make one list of answers. -/
theorem mapM_of_answered {collected : List (List TokenTags)}
    (h : handed.map ask = collected.map .ok) :
    handed.mapM ask = .ok collected := by
  induction handed generalizing collected with
  | nil =>
      obtain rfl : collected = [] := by simpa using h.symm
      rfl
  | cons request handed ih =>
      cases collected with
      | nil => cases h
      | cons tags collected =>
          obtain ⟨hfirst, hrest⟩ := List.cons_eq_cons.1 h
          rw [List.mapM_cons, hfirst, ih hrest]
          rfl

/-- The first failure that is handed on is the failure of all requests. -/
theorem mapM_of_failed {collected : List (List TokenTags)}
    {request : List String} {error : RunError}
    (h : handed.map ask = collected.map .ok)
    (hfailed : ask request = .error error) (rest : List (List String)) :
    (handed ++ request :: rest).mapM ask = .error error := by
  rw [List.mapM_append, mapM_of_answered h, List.mapM_cons, hfailed]
  rfl

/-- What comes out is what the requests come to one after another. The service
has heard of each of them at most once, and of all if none failed. -/
theorem Sound.ends {answers : Except RunError (List (List TokenTags))}
    {last : Memory}
    (h : Sound ask first requests handed asked window)
    (hends : window.Ends answers last) :
    answers = requests.mapM ask
      ∧ last = { first with tagRequests := first.tagRequests ++ asked }
      ∧ (∃ unheard, (asked ++ unheard).Perm requests)
      ∧ ((∃ collected, answers = .ok collected) → asked.Perm requests) := by
  cases hends with
  | done =>
      have horder : requests = handed := by simpa using h.order
      have hheard : asked.Perm requests := by
        rw [horder]
        simpa [served] using h.heard
      refine ⟨?_, h.world, h.exists_unheard, fun _ => hheard⟩
      rw [horder]
      exact (mapM_of_answered h.collected).symm
  | @failed request error waiting pending collected world =>
      have hanswer : Except.error error = ask request :=
        h.answers _ List.mem_cons_self _ rfl
      refine ⟨?_, h.world, h.exists_unheard, nofun⟩
      rw [h.order]
      exact (mapM_of_failed h.collected hanswer.symm _).symm

end Sound

end Window

end MarketReplay
