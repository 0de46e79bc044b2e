/-
Requests under way at the same time, under locks that they share.

A request waits until it asks for the name of its address, which is refused or
taken at once. From then on it runs, until it gives the name back: with an
outcome, or without one because it was cancelled or panicked. Between these
turns of one request stand, in any order, the turns of all others, and
whatever they all do to the world (`Traffic.Act`). The guards of the requests
that run are accounted for in their registries (`Traffic.Sound`), so no two of
them have one address, and one of another address is in nobody's way.

A replay by itself is the schedule in which nothing comes between
(`Traffic.turns_run`).
-/
import MarketReplay.Proofs.Lock.Clones
import MarketReplay.Run

namespace MarketReplay

/-- How far a request has come. -/
inductive Phase
  | waiting
  /-- It holds the name of its address. -/
  | running (guard : Guard Int)
  /-- Without an outcome if it was cut short. -/
  | over (outcome : Option Outcome)

/-- A request to replay the log at an address, under a registry of locks. -/
structure Request (σ : Type) where
  replayer : Replayer σ
  registry : Nat
  address : String
  phase : Phase

namespace Request

variable {σ : Type}

/-- Is the request between taking the name and giving it back? -/
def IsRunning (request : Request σ) : Prop :=
  ∃ guard, request.phase = .running guard

/-- The guard that the request holds. -/
def lease? (request : Request σ) : Option (Lease Int) :=
  match request.phase with
  | .running guard => some ⟨request.registry, guard⟩
  | _ => none

/-- A request has a lease as long as it runs: its guard, in its registry. -/
theorem lease?_eq_some_iff {request : Request σ} {lease : Lease Int} :
    request.lease? = some lease
      ↔ request.phase = .running lease.guard ∧ request.registry = lease.registry := by
  obtain ⟨registry, guard⟩ := lease
  unfold lease?
  cases request.phase <;> simp [and_comm]

/-- The requests are of one address, under one registry. -/
def Rival (request other : Request σ) : Prop :=
  other.registry = request.registry ∧ other.address = request.address

end Request

/-- Requests, the registries that they share, and the world. -/
structure Traffic (σ : Type) where
  registries : Nat → Locks Int
  world : σ
  requests : List (Request σ)

/-- What happens in the traffic. -/
inductive Traffic.Act (σ : Type)
  /-- A request comes in. -/
  | arrive (replayer : Replayer σ) (registry : Nat) (address : String)
  /-- The request at a place asks for its name. -/
  | start (place : Nat)
  /-- Something is done to the world. -/
  | work (later : σ)
  /-- The run at a place ends. -/
  | leave (place : Nat) (outcome : Option Outcome)

namespace Traffic

variable {σ : Type} {traffic : Traffic σ}

/-- No request has come in, and nothing is held. -/
def start (world : σ) : Traffic σ := ⟨fun _ => .empty, world, []⟩

/-- A request asks for the name of its address. -/
def take (traffic : Traffic σ) (place : Nat) (request : Request σ) : Traffic σ :=
  match (traffic.registries request.registry).tryAcquire request.address
      (request.replayer.services.lockTime traffic.world) with
  | none => { traffic with
      requests := traffic.requests.set place
        { request with phase := .over (some .alreadyRunning) } }
  | some (guard, taken) => { traffic with
      registries := Function.update traffic.registries request.registry taken
      requests := traffic.requests.set place { request with phase := .running guard } }

/-- A request gives the name of its address back. -/
def giveUp (traffic : Traffic σ) (place : Nat) (request : Request σ) (guard : Guard Int)
    (outcome : Option Outcome) : Traffic σ :=
  { traffic with
    registries := Function.update traffic.registries request.registry
      ((traffic.registries request.registry).release guard)
    requests := traffic.requests.set place { request with phase := .over outcome } }

/-- One turn; where no request is at the place, or not that far, nothing is
done. -/
def turn (traffic : Traffic σ) : Act σ → Traffic σ
  | .arrive replayer registry address => { traffic with
      requests := traffic.requests ++ [⟨replayer, registry, address, .waiting⟩] }
  | .start place =>
      match traffic.requests[place]? with
      | none => traffic
      | some request =>
          match request.phase with
          | .waiting => traffic.take place request
          | _ => traffic
  | .work later => { traffic with world := later }
  | .leave place outcome =>
      match traffic.requests[place]? with
      | none => traffic
      | some request =>
          match request.phase with
          | .running guard => traffic.giveUp place request guard outcome
          | _ => traffic

/-- Any number of turns, one after another. -/
def turns (traffic : Traffic σ) (acts : List (Act σ)) : Traffic σ :=
  acts.foldl turn traffic

-- ============================================================ the invariant

/-- The guards that requests hold. -/
def leases (requests : List (Request σ)) : List (Lease Int) :=
  requests.filterMap (·.lease?)

/-- The guards that requests hold are accounted for, and have the names of
their addresses. -/
structure Sound (traffic : Traffic σ) : Prop where
  accounted : Lease.Accounted traffic.registries (leases traffic.requests)
  named : ∀ request ∈ traffic.requests, ∀ guard, request.phase = .running guard
    → guard.name = request.address

theorem sound_start (world : σ) : (start world).Sound :=
  ⟨fun _ => Locks.tied_empty, nofun⟩

theorem leases_cons_idle {request : Request σ} {requests : List (Request σ)}
    (h : request.lease? = none) : leases (request :: requests) = leases requests :=
  List.filterMap_cons_none h

theorem leases_cons_running {request : Request σ} {requests : List (Request σ)}
    {guard : Guard Int} (h : request.phase = .running guard) :
    leases (request :: requests) = ⟨request.registry, guard⟩ :: leases requests :=
  List.filterMap_cons_some (Request.lease?_eq_some_iff.2 ⟨h, rfl⟩)

/-- A request is at its place among the others. -/
theorem leases_perm {requests : List (Request σ)} {place : Nat} {request : Request σ}
    (h : requests[place]? = some request) :
    (leases requests).Perm (leases (request :: requests.eraseIdx place)) := by
  obtain ⟨hplace, rfl⟩ := List.getElem?_eq_some_iff.1 h
  exact ((List.getElem_cons_eraseIdx_perm hplace).filterMap _).symm

/-- A request that changes its phase changes its own lease only. -/
theorem leases_set_perm {requests : List (Request σ)} {place : Nat} {request : Request σ}
    (h : requests[place]? = some request) (next : Request σ) :
    (leases (requests.set place next)).Perm (leases (next :: requests.eraseIdx place)) :=
  (List.set_perm_cons_eraseIdx (List.getElem?_eq_some_iff.1 h).1 next).filterMap _

/-- A request that goes on keeps the traffic sound if the others' guards are
still accounted for beside its own. -/
theorem Sound.set {registries : Nat → Locks Int} {place : Nat} {request next : Request σ}
    (h : traffic.Sound) (hrequest : traffic.requests[place]? = some request)
    (haccounted : Lease.Accounted traffic.registries
        (leases (request :: traffic.requests.eraseIdx place))
      → Lease.Accounted registries (leases (next :: traffic.requests.eraseIdx place)))
    (hnamed : ∀ guard, next.phase = .running guard → guard.name = next.address) :
    Sound ⟨registries, traffic.world, traffic.requests.set place next⟩ where
  accounted :=
    (haccounted (h.accounted.of_perm (leases_perm hrequest))).of_perm
      (leases_set_perm hrequest next).symm
  named other hmem := by
    obtain hmem | rfl := List.mem_or_eq_of_mem_set hmem
    · exact h.named other hmem
    · exact hnamed

/-- Asking for a name keeps traffic sound, if the name is given or refused. -/
theorem Sound.take {place : Nat} {request : Request σ} (h : traffic.Sound)
    (hrequest : traffic.requests[place]? = some request)
    (hphase : request.phase = .waiting) : (traffic.take place request).Sound := by
  have hidle : request.lease? = none := by
    unfold Request.lease?
    rw [hphase]
  unfold Traffic.take
  cases htaken : (traffic.registries request.registry).tryAcquire request.address
      (request.replayer.services.lockTime traffic.world) with
  | none =>
      refine h.set hrequest (fun haccounted => ?_) nofun
      rw [leases_cons_idle hidle] at haccounted
      exact haccounted
  | some grant =>
      obtain ⟨guard, taken⟩ := grant
      refine h.set hrequest (fun haccounted => ?_) ?_
      · rw [leases_cons_idle hidle] at haccounted
        rw [leases_cons_running rfl]
        exact haccounted.take htaken
      · intro held hheld
        cases hheld
        obtain ⟨-, rfl, -⟩ := Locks.tryAcquire_eq_some_iff.1 htaken
        rfl

/-- Giving a name back keeps traffic sound, with an outcome or without one. -/
theorem Sound.giveUp {place : Nat} {request : Request σ} {guard : Guard Int}
    (h : traffic.Sound) (hrequest : traffic.requests[place]? = some request)
    (hphase : request.phase = .running guard) (outcome : Option Outcome) :
    (traffic.giveUp place request guard outcome).Sound := by
  refine h.set hrequest (fun haccounted => ?_) nofun
  rw [leases_cons_running hphase] at haccounted
  exact haccounted.giveUp

/-- One turn keeps traffic sound, whoever takes it. -/
theorem Sound.turn (h : traffic.Sound) (act : Act σ) : (traffic.turn act).Sound := by
  cases act with
  | arrive replayer registry address =>
      have hleases : leases (traffic.requests ++ [⟨replayer, registry, address, .waiting⟩])
          = leases traffic.requests := by
        unfold leases
        rw [List.filterMap_append]
        exact List.append_nil _
      refine ⟨hleases ▸ h.accounted, fun request hmem guard hphase => ?_⟩
      obtain hmem | hmem := List.mem_append.1 hmem
      · exact h.named request hmem guard hphase
      · cases List.mem_singleton.1 hmem
        cases hphase
  | start place =>
      unfold Traffic.turn
      dsimp only
      split
      · exact h
      next request hrequest =>
        split
        next hphase => exact h.take hrequest hphase
        · exact h
  | work later => exact ⟨h.accounted, h.named⟩
  | leave place outcome =>
      unfold Traffic.turn
      dsimp only
      split
      · exact h
      next request hrequest =>
        split
        next hphase => exact h.giveUp hrequest hphase outcome
        · exact h

/-- Turns in any order keep traffic sound. -/
theorem Sound.turns (h : traffic.Sound) (acts : List (Act σ)) :
    (traffic.turns acts).Sound := by
  induction acts generalizing traffic with
  | nil => exact h
  | cons act acts ih => exact ih (h.turn act)

-- ============================================================ what follows

/-- Two requests that run are of different addresses, or under different
registries. -/
theorem Sound.apart (h : traffic.Sound) :
    traffic.requests.Pairwise fun request other =>
      request.IsRunning → other.IsRunning → ¬ request.Rival other := by
  have hleases := List.pairwise_filterMap.1 h.accounted.apart
  refine hleases.imp_of_mem fun {request other} hrequest hother hdistinct => ?_
  intro hruns hotherRuns hrival
  obtain ⟨guard, hphase⟩ := hruns
  obtain ⟨otherGuard, hotherPhase⟩ := hotherRuns
  obtain ⟨hregistry, haddress⟩ := hrival
  have hname : guard.name = otherGuard.name := by
    rw [h.named request hrequest guard hphase, h.named other hother otherGuard hotherPhase,
      haddress]
  exact hdistinct ⟨request.registry, guard⟩ (Request.lease?_eq_some_iff.2 ⟨hphase, rfl⟩)
    ⟨other.registry, otherGuard⟩ (Request.lease?_eq_some_iff.2 ⟨hotherPhase, rfl⟩)
    hregistry.symm hname

/-- The address of a request is held just if a rival of it runs. -/
theorem Sound.isLocked_iff (h : traffic.Sound) (request : Request σ) :
    (traffic.registries request.registry).isLocked request.address = true
      ↔ ∃ other ∈ traffic.requests, other.IsRunning ∧ request.Rival other := by
  rw [(h.accounted request.registry).isLocked_iff]
  constructor
  · intro hheld
    obtain ⟨guard, hmem, hname⟩ := hheld
    obtain ⟨lease, hlease, hregistry, rfl⟩ := Lease.mem_guardsAt.1 hmem
    obtain ⟨other, hother, hsome⟩ := List.mem_filterMap.1 hlease
    obtain ⟨hphase, hsame⟩ := Request.lease?_eq_some_iff.1 hsome
    exact ⟨other, hother, ⟨lease.guard, hphase⟩, hsame.trans hregistry,
      (h.named other hother _ hphase).symm.trans hname⟩
  · intro hruns
    obtain ⟨other, hother, ⟨guard, hphase⟩, hregistry, haddress⟩ := hruns
    have hlease : ⟨other.registry, guard⟩ ∈ leases traffic.requests :=
      List.mem_filterMap.2 ⟨other, hother, Request.lease?_eq_some_iff.2 ⟨hphase, rfl⟩⟩
    exact ⟨guard, Lease.mem_guardsAt.2 ⟨_, hlease, hregistry, rfl⟩,
      (h.named other hother guard hphase).trans haddress⟩

/-- A request that waits takes its name when it is its turn. -/
theorem turn_start {place : Nat} {request : Request σ}
    (hrequest : traffic.requests[place]? = some request)
    (hphase : request.phase = .waiting) :
    traffic.turn (.start place) = traffic.take place request := by
  unfold turn
  dsimp only
  rw [hrequest]
  dsimp only
  rw [hphase]

/-- A request that asks for its name is refused if a rival runs, and runs
otherwise. -/
theorem Sound.start {place : Nat} {request : Request σ} (h : traffic.Sound)
    (hrequest : traffic.requests[place]? = some request)
    (hphase : request.phase = .waiting) :
    let rivals := ∃ other ∈ traffic.requests, other.IsRunning ∧ request.Rival other
    let started := (traffic.turn (.start place)).requests[place]?
    (rivals → started = some { request with phase := .over (some .alreadyRunning) })
      ∧ (¬ rivals → started = some { request with
          phase := .running
            ⟨request.address, request.replayer.services.lockTime traffic.world⟩ }) := by
  intro rivals started
  have hplace := (List.getElem?_eq_some_iff.1 hrequest).1
  have hstarted : started = (traffic.take place request).requests[place]? := by
    unfold started
    rw [turn_start hrequest hphase]
  rw [hstarted]
  unfold Traffic.take
  constructor
  · intro hrivals
    rw [Locks.tryAcquire_eq_none_iff.2 ((h.isLocked_iff request).2 hrivals)]
    exact List.getElem?_set_self hplace
  · intro hfree
    rw [Locks.tryAcquire_eq_some_iff.2 ⟨mt (h.isLocked_iff request).1 hfree, rfl, rfl⟩]
    exact List.getElem?_set_self hplace

/-- A replay by itself is the request that asks for its name, works, and ends,
with nothing in between. -/
theorem turns_run {place : Nat} {request : Request σ}
    (hrequest : traffic.requests[place]? = some request)
    (hphase : request.phase = .waiting) :
    let ran := request.replayer.run request.address
      ⟨traffic.registries request.registry, traffic.world⟩
    traffic.turns [.start place, .work ran.2.world, .leave place (some ran.1)]
      = ⟨Function.update traffic.registries request.registry ran.2.locks, ran.2.world,
        traffic.requests.set place { request with phase := .over (some ran.1) }⟩ := by
  intro ran
  have hplace := (List.getElem?_eq_some_iff.1 hrequest).1
  show turn (turn (turn traffic (.start place)) (.work _)) (.leave place _) = _
  rw [turn_start hrequest hphase]
  unfold take
  -- a refused request is over at once, and its last two turns do nothing
  cases htaken : (traffic.registries request.registry).tryAcquire request.address
      (request.replayer.services.lockTime traffic.world) with
  | none =>
      have hran : ran
          = (.alreadyRunning, ⟨traffic.registries request.registry, traffic.world⟩) := by
        unfold ran Replayer.run
        rw [htaken]
      rw [hran]
      dsimp only
      rw [Function.update_eq_self]
      unfold turn
      dsimp only
      rw [List.getElem?_set_self hplace]
  | some grant =>
      obtain ⟨guard, taken⟩ := grant
      have hlocks : ran.2.locks = taken.release guard := by
        unfold ran Replayer.run
        rw [htaken]
        rfl
      rw [hlocks]
      dsimp only
      unfold turn
      dsimp only
      rw [List.getElem?_set_self hplace]
      dsimp only
      unfold giveUp
      dsimp only
      rw [Function.update_self, Function.update_idem, List.set_set]

end Traffic

/-- Whatever is acquired and dropped through whichever clones, the guards that
are alive for a registry have distinct names, which are those that the
registry tells; a name is refused just if one of them has it; and a drop frees
the name of its guard only. So among requests that share registries, in any
interleaving, no two of one address run at once, and a request is refused just
if another one of its address runs. A replay is such a request: asking for the
name, working and ending, in a row, is what it does. -/
theorem locks_exclusive (τ σ : Type) :
    (∀ (clones : List Nat) (acts : List (Sharing.Act τ)),
      let sharing := (Sharing.start clones).steps acts
      (∀ registry, sharing.Exclusive registry)
        ∧ ∀ place lease, sharing.leases[place]? = some lease → ∀ registry name,
          ((sharing.step (.drop place)).registries registry).isLocked name = true
            ↔ (sharing.registries registry).isLocked name = true
              ∧ ¬ (registry = lease.registry ∧ name = lease.guard.name))
    ∧ ∀ (world : σ) (acts : List (Traffic.Act σ)),
      let traffic := (Traffic.start world).turns acts
      (traffic.requests.Pairwise fun request other =>
        request.IsRunning → other.IsRunning → ¬ request.Rival other)
      ∧ ∀ place request, traffic.requests[place]? = some request →
        request.phase = .waiting →
        let rivals := ∃ other ∈ traffic.requests, other.IsRunning ∧ request.Rival other
        let started := (traffic.turn (.start place)).requests[place]?
        (rivals → started = some { request with phase := .over (some .alreadyRunning) })
          ∧ (¬ rivals → started = some { request with
              phase := .running
                ⟨request.address, request.replayer.services.lockTime traffic.world⟩ })
          ∧ let ran := request.replayer.run request.address
              ⟨traffic.registries request.registry, traffic.world⟩
            traffic.turns [.start place, .work ran.2.world, .leave place (some ran.1)]
              = ⟨Function.update traffic.registries request.registry ran.2.locks,
                ran.2.world,
                traffic.requests.set place
                  { request with phase := .over (some ran.1) }⟩ := by
  constructor
  · intro clones acts sharing
    have hsound : sharing.Sound := (Sharing.sound_start clones).steps acts
    exact ⟨hsound.exclusive, fun place lease hlease => Sharing.isLocked_drop hlease⟩
  · intro world acts traffic
    have hsound : traffic.Sound := (Traffic.sound_start world).turns acts
    refine ⟨hsound.apart, fun place request hrequest hphase => ?_⟩
    obtain ⟨hrefused, hruns⟩ := hsound.start hrequest hphase
    exact ⟨hrefused, hruns, Traffic.turns_run hrequest hphase⟩

-- Of two requests for one address the later one is refused, and the one for
-- another address runs.
example (σ : Type) (replayer : Replayer σ) (world : σ) :
    let now := replayer.services.lockTime world
    ((Traffic.start world).turns [.arrive replayer 0 "here", .arrive replayer 0 "here",
        .arrive replayer 0 "there", .start 0, .start 1, .start 2]).requests.map (·.phase)
      = [.running ⟨"here", now⟩, .over (some .alreadyRunning), .running ⟨"there", now⟩] :=
  rfl

end MarketReplay
