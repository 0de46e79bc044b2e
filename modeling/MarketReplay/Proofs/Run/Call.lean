/-
Reasoning about calls of services.

A call is opened in one of three ways, and no proof about a replay looks
further into the monad than this file.

- `run_bind_ok` and `run_bind_error` execute a call whose first part is
  known; `run_bind_cases` goes the other way and takes a call apart into its
  parts, of which both answered if it did (`of_run_bind`).
- `Keeps view c` says that the call `c` leaves everything alone that `view`
  shows, however it ends. It is what is asked of a service that has nothing
  to do with what a theorem is about. `Performs view effect c` says what `c`
  does to what `view` shows if it answers, and that it does nothing to it
  otherwise; `Answers c` says that it does answer.
- `Agree like same left right` compares two calls: from worlds that are
  `like` each other they end in the same way, in worlds that are again
  `like` each other, with answers that are the `same` or with equal errors.
-/
import MarketReplay.Run.Services

namespace MarketReplay.Call

variable {σ τ α β γ δ : Type}

-- =========================================================== execution

@[simp] theorem run_get (world : σ) :
    (get : Call σ σ).run world = (.ok world, world) := rfl

@[simp] theorem run_set (world other : σ) :
    (set other : Call σ PUnit).run world = (.ok ⟨⟩, other) := rfl

@[simp] theorem run_modify (change : σ → σ) (world : σ) :
    (modify change : Call σ Unit).run world = (.ok (), change world) := rfl

@[simp] theorem run_liftM (result : Except RunError α) (world : σ) :
    (liftM result : Call σ α).run world = (result, world) := by
  cases result <;> rfl

/-- After a first part that answers comes the second. -/
theorem run_bind_ok {c : Call σ α} {world later : σ} {a : α}
    (h : c.run world = (.ok a, later)) (f : α → Call σ β) :
    (c >>= f).run world = (f a).run later := by
  show (ExceptT.bindCont f (c.run world).1).run (c.run world).2 = _
  rw [h]
  rfl

/-- After a first part that fails comes nothing. -/
theorem run_bind_error {c : Call σ α} {world later : σ} {error : RunError}
    (h : c.run world = (.error error, later)) (f : α → Call σ β) :
    (c >>= f).run world = (.error error, later) := by
  show (ExceptT.bindCont f (c.run world).1).run (c.run world).2 = _
  rw [h]
  rfl

/-- What is made of an answer changes nothing else. -/
theorem run_map (f : α → β) (c : Call σ α) (world : σ) :
    (f <$> c).run world = ((c.run world).1.map f, (c.run world).2) := by
  rw [map_eq_pure_bind]
  cases hrun : c.run world with
  | mk result later =>
      cases result with
      | ok a => rw [run_bind_ok hrun]; rfl
      | error e => rw [run_bind_error hrun]; rfl

/-- A call in two parts ends where its first part fails, or where its second
part ends. -/
theorem run_bind_cases {c : Call σ α} {f : α → Call σ β} {world later : σ}
    {result : Except RunError β}
    (h : (c >>= f).run world = (result, later)) :
    (∃ error, c.run world = (.error error, later) ∧ result = .error error)
      ∨ ∃ a mid, c.run world = (.ok a, mid)
        ∧ (f a).run mid = (result, later) := by
  cases hc : c.run world with
  | mk first mid =>
      cases first with
      | ok a => exact .inr ⟨a, mid, rfl, by rw [← run_bind_ok hc f, h]⟩
      | error e =>
          rw [run_bind_error hc f] at h
          cases h
          exact .inl ⟨e, rfl, rfl⟩

/-- Two calls in a row that answered: the first did, and so did the second
from there. -/
theorem of_run_bind {c : Call σ α} {f : α → Call σ β} {world later : σ}
    {b : β} (h : (c >>= f).run world = (.ok b, later)) :
    ∃ a mid, c.run world = (.ok a, mid) ∧ (f a).run mid = (.ok b, later) := by
  rcases run_bind_cases h with ⟨error, -, hresult⟩ | hparts
  · cases hresult
  · exact hparts

-- =============================================================== frames

/-- The call leaves alone what the view shows. -/
def Keeps (view : σ → τ) (c : Call σ α) : Prop :=
  ∀ world, view (c.run world).2 = view world

namespace Keeps

variable {view : σ → τ}

/-- What a call keeps is the same after it, however it ended. -/
theorem of_run {c : Call σ α} (h : Keeps view c) {world later : σ}
    {result : Except RunError α} (hrun : c.run world = (result, later)) :
    view later = view world := by
  have := h world
  rwa [hrun] at this

theorem pure (a : α) : Keeps view (Pure.pure a : Call σ α) := fun _ => rfl

/-- A failure by itself keeps everything. -/
theorem throw (error : RunError) :
    Keeps view (MonadExcept.throw error : Call σ α) := fun _ => rfl

theorem liftM (result : Except RunError α) :
    Keeps view (MonadLiftT.monadLift result : Call σ α) := by
  intro world
  cases result <;> rfl

/-- Parts that keep something keep it one after the other. -/
theorem bind {c : Call σ α} {f : α → Call σ β} (hc : Keeps view c)
    (hf : ∀ a, Keeps view (f a)) : Keeps view (c >>= f) := by
  intro world
  cases hrun : c.run world with
  | mk result mid =>
      cases result with
      | ok a => rw [run_bind_ok hrun, hf a mid, hc.of_run hrun]
      | error e => rw [run_bind_error hrun, hc.of_run hrun]

/-- A loop keeps what each of its turns keeps. -/
theorem foldlM {f : β → α → Call σ β} (hf : ∀ b a, Keeps view (f b a))
    (list : List α) (start : β) : Keeps view (list.foldlM f start) := by
  induction list generalizing start with
  | nil => exact pure start
  | cons a list ih =>
      rw [List.foldlM_cons]
      exact bind (hf start a) ih

/-- Calls in a row keep what each of them keeps. -/
theorem mapM {f : α → Call σ β} (hf : ∀ a, Keeps view (f a))
    (list : List α) : Keeps view (list.mapM f) := by
  induction list with
  | nil => exact pure []
  | cons a list ih =>
      rw [List.mapM_cons]
      exact bind (hf a) fun b => bind ih fun rest => pure (b :: rest)

end Keeps

-- ============================================================= effects

/-- The call does to what the view shows what the effect says, and answers
accordingly; or it fails and leaves it alone. -/
def Performs (view : σ → τ) (effect : τ → α × τ) (c : Call σ α) : Prop :=
  ∀ world,
    (∃ a later, c.run world = (.ok a, later)
      ∧ effect (view world) = (a, view later))
    ∨ ∃ error later, c.run world = (.error error, later)
      ∧ view later = view world

namespace Performs

variable {view : σ → τ} {effect : τ → α × τ} {c : Call σ α}
  {world later : σ}

/-- A call that answered has had its effect. -/
theorem of_ok (h : Performs view effect c) {a : α}
    (hrun : c.run world = (.ok a, later)) :
    effect (view world) = (a, view later) := by
  rcases h world with ⟨b, after, hok, heffect⟩ | ⟨error, after, herror, -⟩
  · rw [hrun] at hok
    cases hok
    exact heffect
  · rw [hrun] at herror
    cases herror

/-- A call that failed has had none. -/
theorem of_error (h : Performs view effect c) {error : RunError}
    (hrun : c.run world = (.error error, later)) :
    view later = view world := by
  rcases h world with ⟨b, after, hok, -⟩ | ⟨other, after, herror, hkept⟩
  · rw [hrun] at hok
    cases hok
  · rw [hrun] at herror
    cases herror
    exact hkept

end Performs

/-- The call answers, whatever the world is like. -/
def Answers (c : Call σ α) : Prop :=
  ∀ world, ∃ a later, c.run world = (.ok a, later)

namespace Answers

theorem pure (a : α) : Answers (Pure.pure a : Call σ α) :=
  fun world => ⟨a, world, rfl⟩

theorem liftM (a : α) :
    Answers (MonadLiftT.monadLift (Except.ok a : Except RunError α) :
      Call σ α) :=
  fun world => ⟨a, world, rfl⟩

/-- Parts that answer do so one after the other. -/
theorem bind {c : Call σ α} {f : α → Call σ β} (hc : Answers c)
    (hf : ∀ a, Answers (f a)) : Answers (c >>= f) := by
  intro world
  obtain ⟨a, mid, hrun⟩ := hc world
  rw [run_bind_ok hrun]
  exact hf a mid

/-- A loop answers if each of its turns does. -/
theorem foldlM {f : β → α → Call σ β} (hf : ∀ b a, Answers (f b a))
    (list : List α) (start : β) : Answers (list.foldlM f start) := by
  induction list generalizing start with
  | nil => exact pure start
  | cons a list ih =>
      rw [List.foldlM_cons]
      exact bind (hf start a) ih

/-- Calls in a row answer if each of them does. -/
theorem mapM {f : α → Call σ β} (hf : ∀ a, Answers (f a)) (list : List α) :
    Answers (list.mapM f) := by
  induction list with
  | nil => exact pure []
  | cons a list ih =>
      rw [List.mapM_cons]
      exact bind (hf a) fun b => bind ih fun rest => pure (b :: rest)

end Answers

-- =========================================================== agreement

/-- Two calls ended in the same way. -/
inductive SameEnd (like : σ → τ → Prop) (same : α → β → Prop) :
    Except RunError α × σ → Except RunError β × τ → Prop
  | ok {a : α} {b : β} {left : σ} {right : τ} (answers : same a b)
      (worlds : like left right) :
      SameEnd like same (.ok a, left) (.ok b, right)
  | error (e : RunError) {left : σ} {right : τ} (worlds : like left right) :
      SameEnd like same (.error e, left) (.error e, right)

/-- One result in two worlds that are like each other. -/
theorem SameEnd.of_like {like : σ → τ → Prop} (result : Except RunError α)
    {left : σ} {right : τ} (worlds : like left right) :
    SameEnd like Eq (result, left) (result, right) := by
  cases result with
  | ok a => exact .ok rfl worlds
  | error e => exact .error e worlds

/-- From worlds that are like each other, two calls end in the same way. -/
def Agree (like : σ → τ → Prop) (same : α → β → Prop) (left : Call σ α)
    (right : Call τ β) : Prop :=
  ∀ l r, like l r → SameEnd like same (left.run l) (right.run r)

/-- Second parts agree on the answers that the first parts gave, if they gave
one. -/
theorem SameEnd.bind {like : σ → τ → Prop} {same : α → β → Prop}
    {also : γ → δ → Prop} {left : Call σ α} {right : Call τ β}
    {f : α → Call σ γ} {g : β → Call τ δ} {l : σ} {r : τ}
    (h : SameEnd like same (left.run l) (right.run r))
    (hfg : ∀ a b mid, left.run l = (.ok a, mid) → same a b →
      Agree like also (f a) (g b)) :
    SameEnd like also ((left >>= f).run l) ((right >>= g).run r) := by
  -- both first parts answered, or both failed with one error
  cases hl : left.run l with
  | mk result mid =>
      cases hr : right.run r with
      | mk result' mid' =>
          rw [hl, hr] at h
          cases h with
          | @ok a b _ _ hab hworlds =>
              rw [run_bind_ok hl, run_bind_ok hr]
              exact hfg a b mid hl hab mid mid' hworlds
          | error e hworlds =>
              rw [run_bind_error hl, run_bind_error hr]
              exact .error e hworlds

namespace Agree

variable {like : σ → τ → Prop} {same : α → β → Prop} {also : γ → δ → Prop}

theorem pure {a : α} {b : β} (h : same a b) :
    Agree like same (Pure.pure a : Call σ α) (Pure.pure b : Call τ β) :=
  fun _ _ hlike => .ok h hlike

/-- The worlds themselves agree as answers. -/
theorem get : Agree like like (MonadState.get : Call σ σ)
    (MonadState.get : Call τ τ) :=
  fun _ _ hlike => .ok hlike hlike

/-- Failures with one error agree, whatever the answers would have had in
common. -/
theorem throw (e : RunError) :
    Agree like same (MonadExcept.throw e : Call σ α)
      (MonadExcept.throw e : Call τ β) :=
  fun _ _ hlike => .error e hlike

theorem liftM (result : Except RunError α) :
    Agree like Eq (MonadLiftT.monadLift result : Call σ α)
      (MonadLiftT.monadLift result : Call τ α) := by
  intro l r hlike
  rw [run_liftM, run_liftM]
  exact .of_like result hlike

/-- Changes agree that lead from like worlds to like worlds. -/
theorem of_modify {left : σ → σ} {right : τ → τ}
    (h : ∀ l r, like l r → like (left l) (right r)) :
    Agree like Eq (modify left : Call σ Unit) (modify right : Call τ Unit) :=
  fun l r hlike => .ok rfl (h l r hlike)

/-- Two calls agree part by part. -/
theorem bind {left : Call σ α} {right : Call τ β} {f : α → Call σ γ}
    {g : β → Call τ δ} (h : Agree like same left right)
    (hfg : ∀ a b, same a b → Agree like also (f a) (g b)) :
    Agree like also (left >>= f) (right >>= g) :=
  fun l r hlike => (h l r hlike).bind fun a b _ _ hab => hfg a b hab

/-- So they do where the first parts have equal answers. -/
theorem bind_eq {left : Call σ α} {right : Call τ α} {f : α → Call σ γ}
    {g : α → Call τ δ} (h : Agree like Eq left right)
    (hfg : ∀ a, Agree like also (f a) (g a)) :
    Agree like also (left >>= f) (right >>= g) := by
  refine bind h ?_
  rintro a _ rfl
  exact hfg a

/-- What is made of an answer on the one side only may still agree. -/
theorem then_pure {left : Call σ α} {right : Call τ δ} {f : α → γ}
    {same : α → δ → Prop} (h : Agree like same left right)
    (hf : ∀ a b, same a b → also (f a) b) :
    Agree like also (left >>= fun a => Pure.pure (f a)) right := by
  rw [← bind_pure right]
  exact bind h fun a b hab => pure (hf a b hab)

/-- A first part on the one side only may still agree, if its answer is known
and its world is like the one before. -/
theorem after {c : Call σ α} {f : α → Call σ γ} {right : Call τ δ} (a : α)
    (hc : ∀ l r, like l r → ∃ later, c.run l = (.ok a, later) ∧ like later r)
    (h : Agree like also (f a) right) :
    Agree like also (c >>= f) right := by
  intro l r hlike
  obtain ⟨later, hrun, hlater⟩ := hc l r hlike
  rw [run_bind_ok hrun]
  exact h later r hlater

/-- Two loops agree turn by turn. -/
theorem foldlM {f : α → γ → Call σ α} {g : β → γ → Call τ β}
    (hfg : ∀ a b x, same a b → Agree like same (f a x) (g b x))
    (list : List γ) {a : α} {b : β} (h : same a b) :
    Agree like same (list.foldlM f a) (list.foldlM g b) := by
  induction list generalizing a b with
  | nil => exact pure h
  | cons x list ih =>
      rw [List.foldlM_cons, List.foldlM_cons]
      exact bind (hfg a b x h) fun a b hab => ih hab

/-- Calls in a row agree one by one. -/
theorem mapM {f : γ → Call σ α} {g : γ → Call τ α}
    (hfg : ∀ x, Agree like Eq (f x) (g x)) (list : List γ) :
    Agree like Eq (list.mapM f) (list.mapM g) := by
  induction list with
  | nil => exact pure rfl
  | cons x list ih =>
      rw [List.mapM_cons, List.mapM_cons]
      exact bind_eq (hfg x) fun a => bind_eq ih fun rest => pure rfl

end Agree

end MarketReplay.Call
