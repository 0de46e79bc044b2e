/-
Who holds which name, whatever is acquired and dropped.

A guard gives its name back by that name alone: the registry does not know
which guard is dropped, and would free the name of any other guard as well. No
other guard has the name, because the guards that are alive are, one for one,
those that the registry has entered, and their names are distinct
(`Locks.Tied`). Taking a free name and giving one back keep it so, each in one
registry and beside all others (`Lease.Accounted`), and therefore every
sequence of acquisitions, refusals and drops does, through whichever clones
(`Sharing.Sound.steps`).
-/
import MarketReplay.Lock
import Mathlib.Data.List.Perm.Basic
import Mathlib.Data.List.Nodup

namespace MarketReplay

-- =========================================================== one registry

namespace Locks

variable {τ : Type} {locks taken : Locks τ} {guard : Guard τ} {name : String}
  {now : τ}

/-- A name is held if a guard is entered under it. -/
theorem isLocked_iff :
    locks.isLocked name = true ↔ ∃ guard ∈ locks.guards, guard.name = name := by
  unfold isLocked holder?
  rw [List.find?_isSome]
  simp only [beq_iff_eq]

/-- A name is refused if and only if it is held. -/
theorem tryAcquire_eq_none_iff :
    locks.tryAcquire name now = none ↔ locks.isLocked name = true := by
  unfold tryAcquire
  cases locks.isLocked name <;> simp

/-- A free name is given out, with the time of its acquisition, and entered. -/
theorem tryAcquire_eq_some_iff :
    locks.tryAcquire name now = some (guard, taken)
      ↔ ¬ locks.isLocked name = true ∧ guard = ⟨name, now⟩
        ∧ taken = ⟨⟨name, now⟩ :: locks.guards⟩ := by
  unfold tryAcquire
  cases locks.isLocked name with
  | true => simp
  | false => simp [eq_comm]

/-- Giving a guard up frees its own name only. -/
theorem isLocked_release :
    (locks.release guard).isLocked name = true
      ↔ locks.isLocked name = true ∧ name ≠ guard.name := by
  rw [isLocked_iff, isLocked_iff]
  unfold release
  simp only [List.mem_filter, bne_iff_ne]
  constructor
  · intro hheld
    obtain ⟨other, ⟨hmem, hne⟩, rfl⟩ := hheld
    exact ⟨⟨other, hmem, rfl⟩, hne⟩
  · intro hheld
    obtain ⟨⟨other, hmem, rfl⟩, hne⟩ := hheld
    exact ⟨other, ⟨hmem, hne⟩, rfl⟩

/-- The guards that are alive are those entered in the registry, and no two
have one name. -/
structure Tied (locks : Locks τ) (live : List (Guard τ)) : Prop where
  entered : locks.guards.Perm live
  distinct : (live.map (·.name)).Nodup

theorem tied_empty : (empty : Locks τ).Tied [] :=
  ⟨.nil, List.nodup_nil⟩

namespace Tied

variable {live other : List (Guard τ)}

theorem of_perm (h : locks.Tied live) (hperm : live.Perm other) : locks.Tied other :=
  ⟨h.entered.trans hperm, (hperm.map _).nodup_iff.1 h.distinct⟩

/-- A name is held if a guard that is alive has it. -/
theorem isLocked_iff (h : locks.Tied live) :
    locks.isLocked name = true ↔ ∃ guard ∈ live, guard.name = name := by
  rw [Locks.isLocked_iff]
  simp only [h.entered.mem_iff]

/-- A name that is free is taken by a guard of its own. -/
theorem take (h : locks.Tied live)
    (htaken : locks.tryAcquire name now = some (guard, taken)) :
    taken.Tied (guard :: live) := by
  obtain ⟨hfree, rfl, rfl⟩ := tryAcquire_eq_some_iff.1 htaken
  refine ⟨h.entered.cons _, ?_⟩
  rw [List.map_cons, List.nodup_cons]
  refine ⟨fun hmem => hfree (h.isLocked_iff.2 ?_), h.distinct⟩
  exact List.mem_map.1 hmem

/-- A guard takes no other guard's name with it. -/
theorem giveUp (h : locks.Tied (guard :: live)) : (locks.release guard).Tied live := by
  obtain ⟨hentered, hdistinct⟩ := h
  rw [List.map_cons, List.nodup_cons] at hdistinct
  obtain ⟨hnew, hdistinct⟩ := hdistinct
  refine ⟨?_, hdistinct⟩
  have hothers : live.filter (·.name != guard.name) = live := by
    rw [List.filter_eq_self]
    intro other hmem
    rw [bne_iff_ne]
    exact fun heq => hnew (heq ▸ List.mem_map_of_mem hmem)
  have hrest := hentered.filter (·.name != guard.name)
  rw [List.filter_cons_of_neg (by simp), hothers] at hrest
  exact hrest

/-- The names that are reported held are those of the guards that are alive. -/
theorem heldNames_perm (h : locks.Tied live) :
    locks.heldNames.Perm (live.map (·.name)) :=
  (List.mergeSort_perm _ _).trans (h.entered.map _)

/-- The names are reported in order, each of them once. -/
theorem heldNames_ascending (h : locks.Tied live) :
    locks.heldNames.Pairwise (· < ·) := by
  have htrans : ∀ a b c : String, decide (a ≤ b) → decide (b ≤ c) → decide (a ≤ c) := by
    intro a b c hab hbc
    rw [decide_eq_true_iff] at *
    exact String.le_trans hab hbc
  have htotal : ∀ a b : String, decide (a ≤ b) || decide (b ≤ a) := by
    intro a b
    rw [Bool.or_eq_true, decide_eq_true_iff, decide_eq_true_iff]
    exact String.le_total a b
  have hsorted : locks.heldNames.Pairwise (· ≤ ·) :=
    (List.pairwise_mergeSort htrans htotal _).imp of_decide_eq_true
  have hdistinct := h.heldNames_perm.nodup_iff.2 h.distinct
  refine (hsorted.and hdistinct).imp fun ⟨hle, hne⟩ => ?_
  exact String.not_le.1 fun hge => hne (String.le_antisymm hle hge)

/-- The registry knows of each guard since when it is held. -/
theorem acquiredAt?_eq_some_iff (h : locks.Tied live) {time : τ} :
    locks.acquiredAt? name = some time
      ↔ ∃ guard ∈ live, guard.name = name ∧ guard.acquiredAt = time := by
  have hfound : ∀ guard, locks.holder? name = some guard
      → guard ∈ live ∧ guard.name = name := by
    intro guard hfind
    have hname := List.find?_some hfind
    exact ⟨h.entered.mem_iff.1 (List.mem_of_find?_eq_some hfind), beq_iff_eq.1 hname⟩
  unfold acquiredAt?
  rw [Option.map_eq_some_iff]
  constructor
  · intro hheld
    obtain ⟨guard, hfind, rfl⟩ := hheld
    obtain ⟨hmem, hname⟩ := hfound guard hfind
    exact ⟨guard, hmem, hname, rfl⟩
  · intro halive
    obtain ⟨guard, hmem, hname, rfl⟩ := halive
    have hlocked : locks.isLocked name = true := h.isLocked_iff.2 ⟨guard, hmem, hname⟩
    obtain ⟨holder, hfind⟩ := Option.isSome_iff_exists.1 hlocked
    obtain ⟨hholder, hheld⟩ := hfound holder hfind
    have hsame := List.inj_on_of_nodup_map h.distinct hholder hmem (hheld.trans hname.symm)
    exact ⟨holder, hfind, congrArg _ hsame⟩

end Tied

end Locks

-- ======================================================= several registries

/-- A guard that is alive, with the registry that it gives its name back to. -/
structure Lease (τ : Type) where
  registry : Nat
  guard : Guard τ

namespace Lease

variable {τ : Type} {registries : Nat → Locks τ} {leases other : List (Lease τ)}
  {lease : Lease τ} {registry : Nat} {guard : Guard τ} {name : String} {now : τ}

/-- The guards that are alive for the names of a registry. -/
def guardsAt (registry : Nat) (leases : List (Lease τ)) : List (Guard τ) :=
  (leases.filter (·.registry == registry)).map (·.guard)

/-- The guards of a registry are those that are leased from it. -/
theorem mem_guardsAt :
    guard ∈ guardsAt registry leases
      ↔ ∃ lease ∈ leases, lease.registry = registry ∧ lease.guard = guard := by
  unfold guardsAt
  simp only [List.mem_map, List.mem_filter, beq_iff_eq, and_assoc]

/-- A lease counts in its own registry. -/
theorem guardsAt_cons_self (lease : Lease τ) (leases : List (Lease τ)) :
    guardsAt lease.registry (lease :: leases)
      = lease.guard :: guardsAt lease.registry leases := by
  unfold guardsAt
  rw [List.filter_cons_of_pos (by simp), List.map_cons]

/-- A lease does not count in another registry. -/
theorem guardsAt_cons_ne (h : lease.registry ≠ registry) :
    guardsAt registry (lease :: leases) = guardsAt registry leases := by
  unfold guardsAt
  rw [List.filter_cons_of_neg (by simpa using h)]

/-- The guards that are alive are accounted for, each in its registry. -/
def Accounted (registries : Nat → Locks τ) (leases : List (Lease τ)) : Prop :=
  ∀ registry, (registries registry).Tied (guardsAt registry leases)

namespace Accounted

theorem of_perm (h : Accounted registries leases) (hperm : leases.Perm other) :
    Accounted registries other :=
  fun registry => (h registry).of_perm ((hperm.filter _).map _)

/-- A name that is taken in one registry is one lease more, and other
registries do not notice. -/
theorem take {taken : Locks τ} (h : Accounted registries leases)
    (htaken : (registries registry).tryAcquire name now = some (guard, taken)) :
    Accounted (Function.update registries registry taken) (⟨registry, guard⟩ :: leases) := by
  intro place
  by_cases hplace : place = registry
  · subst hplace
    rw [Function.update_self, guardsAt_cons_self ⟨place, guard⟩]
    exact (h place).take htaken
  · rw [Function.update_of_ne hplace, guardsAt_cons_ne (Ne.symm hplace)]
    exact h place

/-- A guard that is dropped is one lease less, and other registries do not
notice. -/
theorem giveUp (h : Accounted registries (lease :: leases)) :
    Accounted (Function.update registries lease.registry
      ((registries lease.registry).release lease.guard)) leases := by
  intro place
  have htied := h place
  by_cases hplace : place = lease.registry
  · subst hplace
    rw [guardsAt_cons_self] at htied
    rw [Function.update_self]
    exact htied.giveUp
  · rw [guardsAt_cons_ne (Ne.symm hplace)] at htied
    rw [Function.update_of_ne hplace]
    exact htied

/-- Two guards that are alive differ in name or in registry. -/
theorem apart (h : Accounted registries leases) :
    leases.Pairwise fun lease other =>
      lease.registry = other.registry → lease.guard.name ≠ other.guard.name := by
  refine List.pairwise_iff_forall_sublist.2 fun {lease other} hsub hregistry hname => ?_
  have hnames := ((hsub.filter (·.registry == lease.registry)).map (·.guard)).map (·.name)
  have hdistinct := (h lease.registry).distinct.sublist hnames
  simp [hregistry, hname] at hdistinct

end Accounted

end Lease

-- ================================================================== clones

/-- Registries, the clones that refer to them, and the guards taken through
the clones and not dropped yet. -/
structure Sharing (τ : Type) where
  registries : Nat → Locks τ
  /-- The registry of each clone. -/
  clones : List Nat
  leases : List (Lease τ)

/-- What is done with clones and guards, by the places they are at. -/
inductive Sharing.Act (τ : Type)
  | clone (place : Nat)
  | acquire (place : Nat) (name : String) (now : τ)
  | drop (place : Nat)

namespace Sharing

variable {τ : Type} {sharing : Sharing τ}

/-- Clones of registries in which nothing is held. -/
def start (clones : List Nat) : Sharing τ := ⟨fun _ => .empty, clones, []⟩

/-- One act; where there is no such clone or guard, nothing is done. -/
def step (sharing : Sharing τ) : Act τ → Sharing τ
  | .clone place => { sharing with clones := sharing.clones ++ sharing.clones[place]?.toList }
  | .acquire place name now =>
      match sharing.clones[place]? with
      | none => sharing
      | some registry =>
          match (sharing.registries registry).tryAcquire name now with
          | none => sharing
          | some (guard, taken) => { sharing with
              registries := Function.update sharing.registries registry taken
              leases := ⟨registry, guard⟩ :: sharing.leases }
  | .drop place =>
      match sharing.leases[place]? with
      | none => sharing
      | some lease => { sharing with
          registries := Function.update sharing.registries lease.registry
            ((sharing.registries lease.registry).release lease.guard)
          leases := sharing.leases.eraseIdx place }

/-- Any number of acts, one after another. -/
def steps (sharing : Sharing τ) (acts : List (Act τ)) : Sharing τ :=
  acts.foldl step sharing

/-- The guards that are alive for the names of a registry. -/
def live (sharing : Sharing τ) (registry : Nat) : List (Guard τ) :=
  Lease.guardsAt registry sharing.leases

/-- The guards of a sharing are accounted for. -/
def Sound (sharing : Sharing τ) : Prop :=
  Lease.Accounted sharing.registries sharing.leases

/-- Registries start sound, whatever clones there are of them. -/
theorem sound_start (clones : List Nat) : (start clones : Sharing τ).Sound :=
  fun _ => Locks.tied_empty

/-- One acquisition, refusal or drop keeps all registries sound. -/
theorem Sound.step (h : sharing.Sound) (act : Act τ) : (sharing.step act).Sound := by
  cases act with
  | clone place => exact h
  | acquire place name now =>
      unfold Sharing.step
      dsimp only
      split
      · exact h
      · split
        · exact h
        next htaken => exact h.take htaken
  | drop place =>
      unfold Sharing.step
      dsimp only
      split
      · exact h
      next lease hlease =>
        obtain ⟨hplace, rfl⟩ := List.getElem?_eq_some_iff.1 hlease
        exact (h.of_perm (List.getElem_cons_eraseIdx_perm hplace).symm).giveUp

/-- Any sequence of acquisitions, refusals and drops keeps all registries
sound. -/
theorem Sound.steps (h : sharing.Sound) (acts : List (Act τ)) :
    (sharing.steps acts).Sound := by
  induction acts generalizing sharing with
  | nil => exact h
  | cons act acts ih => exact ih (h.step act)

/-- What the clones of a registry are told of the guards that are alive. -/
structure Exclusive (sharing : Sharing τ) (registry : Nat) : Prop where
  /-- No two guards have one name. -/
  distinct : ((sharing.live registry).map (·.name)).Nodup
  /-- The names that are held are theirs, -/
  held : (sharing.registries registry).heldNames.Perm
    ((sharing.live registry).map (·.name))
  /-- in ascending order. -/
  ascending : (sharing.registries registry).heldNames.Pairwise (· < ·)
  /-- A name is refused just if one of them has it. -/
  refused : ∀ name now, (sharing.registries registry).tryAcquire name now = none
    ↔ ∃ guard ∈ sharing.live registry, guard.name = name
  /-- It is held since the time that this one says. -/
  since : ∀ name time, (sharing.registries registry).acquiredAt? name = some time
    ↔ ∃ guard ∈ sharing.live registry, guard.name = name ∧ guard.acquiredAt = time

/-- In a sound registry no name is held twice, and what it answers of its names
is true of the guards. -/
theorem Sound.exclusive (h : sharing.Sound) (registry : Nat) :
    sharing.Exclusive registry where
  distinct := (h registry).distinct
  held := (h registry).heldNames_perm
  ascending := (h registry).heldNames_ascending
  refused _ _ := Locks.tryAcquire_eq_none_iff.trans (h registry).isLocked_iff
  since _ _ := (h registry).acquiredAt?_eq_some_iff

/-- Dropping a guard frees its own name in its own registry, and no other. -/
theorem isLocked_drop {place : Nat} {lease : Lease τ}
    (hlease : sharing.leases[place]? = some lease) (registry : Nat) (name : String) :
    ((sharing.step (.drop place)).registries registry).isLocked name = true
      ↔ (sharing.registries registry).isLocked name = true
        ∧ ¬ (registry = lease.registry ∧ name = lease.guard.name) := by
  unfold step
  dsimp only
  rw [hlease]
  dsimp only
  by_cases hregistry : registry = lease.registry
  · subst hregistry
    rw [Function.update_self, Locks.isLocked_release]
    simp
  · rw [Function.update_of_ne hregistry]
    simp [hregistry]

end Sharing

end MarketReplay
