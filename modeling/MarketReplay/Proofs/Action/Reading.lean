/-
What holds of whatever is read from a log.

A reader takes topic after topic and may fail at each. `Ensures` says of its
result what does not depend on where it failed, and is taken through a reader
step by step. Two facts hold of the readings of every kind in this way: the
payload is the one that was read first, and the payment is what stands at the
place that the kind has for it (`namedIn_read`).
-/
import MarketReplay.Proofs.Action.RoundTrip

namespace MarketReplay.Layout

variable {α β : Type} {p : α → Prop} {q : β → Prop}

/-- Whatever is read has a property. -/
def Ensures (p : α → Prop) (read : Topics.Read α) : Prop :=
  ∀ a, read = .ok a → p a

/-- A reader that reads nothing answers what it was given. -/
theorem ensures_pure {a : α} (h : p a) : Ensures p (pure a) := by
  rintro _ ⟨⟩
  exact h

/-- What holds of the first reading may be used for the readings that follow.
-/
theorem ensures_bind_of {read : Topics.Read α} {more : α → Topics.Read β}
    (h : Ensures p read) (hmore : ∀ a, p a → Ensures q (more a)) :
    Ensures q (read >>= more) := by
  intro b hb
  cases hread : read with
  | error cause => rw [hread] at hb; cases hb
  | ok a =>
      rw [hread] at hb
      exact hmore a (h a hread) b hb

/-- What holds of the readings that follow, whatever was read first, holds of
all. -/
theorem ensures_bind {read : Topics.Read α} {more : α → Topics.Read β}
    (h : ∀ a, Ensures q (more a)) : Ensures q (read >>= more) :=
  ensures_bind_of (p := fun _ => True) (fun _ _ => trivial) fun a _ => h a

variable (topics : Topics)

-- ============================================================= the payment

/-- Reading the token leaves the payload alone. -/
theorem action_paidInToken (index : Nat) (action : Action) :
    Ensures (·.action = action) (paidInToken topics index action) :=
  ensures_bind fun _ => ensures_pure rfl

/-- Reading token and nonce leaves the payload alone. -/
theorem action_paidWithNonce (index : Nat) (action : Action) :
    Ensures (·.action = action) (paidWithNonce topics index action) := by
  unfold paidWithNonce
  refine ensures_bind fun token => ?_
  cases token with
  | none => exact ensures_pure rfl
  | some token => exact ensures_bind fun _ => ensures_pure rfl

/-- The token and the nonce that the log of a kind names, at the place that the
kind has for them. -/
inductive Names : PaymentPlace → Option String → Option Nat → Prop
  | nowhere : Names .nowhere none none
  | token {index : Nat} {token : Option String}
      (h : topics.textOptional index = .ok token) : Names (.token index) token none
  | unnamed {index : Nat} (h : topics.textOptional index = .ok none) :
      Names (.tokenAndNonce index) none none
  | tokenAndNonce {index : Nat} {token : String} {nonce : Nat}
      (h : topics.textOptional index = .ok (some token))
      (hnonce : topics.wordOrZero (index + 1) = .ok nonce) :
      Names (.tokenAndNonce index) (some token) (some nonce)

/-- The payment of the reading is the one that the topics name. -/
def NamedIn (place : PaymentPlace) (reading : Reading) : Prop :=
  Names topics place reading.paymentToken reading.paymentNonce

/-- The token is the one that stands at its place. -/
theorem namedIn_paidInToken (index : Nat) (action : Action) :
    Ensures (NamedIn topics (.token index)) (paidInToken topics index action) :=
  ensures_bind_of (fun _ htoken => htoken) fun _ htoken => ensures_pure (.token htoken)

/-- Token and nonce are those that stand at their places, and without a token
there is no nonce. -/
theorem namedIn_paidWithNonce (index : Nat) (action : Action) :
    Ensures (NamedIn topics (.tokenAndNonce index))
      (paidWithNonce topics index action) := by
  refine ensures_bind_of (fun _ htoken => htoken) fun token htoken => ?_
  cases token with
  | none => exact ensures_pure (.unnamed htoken)
  | some token =>
      exact ensures_bind_of (fun _ hnonce => hnonce) fun _ hnonce =>
        ensures_pure (.tokenAndNonce htoken hnonce)

/-- Every reading has the payment that its log names. -/
theorem namedIn_read (kind : ActionKind) :
    Ensures (NamedIn topics kind.paymentPlace) (read topics kind) := by
  have hnonce := namedIn_paidWithNonce topics
  have htoken := namedIn_paidInToken topics
  have hnowhere : ∀ action, Ensures (NamedIn topics .nowhere) (pure (unpaid action)) :=
    fun _ => ensures_pure .nowhere
  unfold read
  cases kind with
  | started => exact ensures_bind fun _ => hnonce 10 _
  | bid => exact ensures_bind fun _ => hnonce 7 _
  | bought => exact ensures_bind fun _ => hnonce 7 _
  | ended => exact ensures_bind fun _ => htoken 7 _
  | closed => exact ensures_bind fun _ => hnowhere _
  | repriced => exact ensures_bind fun _ => hnonce 5 _
  | updated => exact ensures_bind fun _ => htoken 6 _
  | offerCreated => exact ensures_bind fun _ => hnonce 4 _
  | offerAccepted => exact ensures_bind fun _ => hnowhere _
  | offerClosed => exact ensures_bind fun _ => hnowhere _
  | globalOfferAccepted => exact ensures_bind fun _ => hnowhere _

variable {topics}

/-- A log names one payment only. -/
theorem Names.unique {place : PaymentPlace} {token token' : Option String}
    {nonce nonce' : Option Nat} (h : Names topics place token nonce)
    (h' : Names topics place token' nonce') : token = token' ∧ nonce = nonce' := by
  cases h with
  | nowhere => cases h'; exact ⟨rfl, rfl⟩
  | token htoken =>
      cases h' with
      | token htoken' => exact ⟨Except.ok.inj (htoken.symm.trans htoken'), rfl⟩
  | unnamed htoken =>
      cases h' with
      | unnamed => exact ⟨rfl, rfl⟩
      | tokenAndNonce htoken' => cases htoken.symm.trans htoken'
  | tokenAndNonce htoken hnonce =>
      cases h' with
      | unnamed htoken' => cases htoken.symm.trans htoken'
      | tokenAndNonce htoken' hnonce' =>
          cases htoken.symm.trans htoken'
          cases hnonce.symm.trans hnonce'
          exact ⟨rfl, rfl⟩

/-- A log that names no token names no nonce. -/
theorem Names.nonce_eq_none {place : PaymentPlace} {nonce : Option Nat}
    (h : Names topics place none nonce) : nonce = none := by
  cases h <;> rfl

end MarketReplay.Layout

namespace MarketReplay.EventSet

-- ================================================= the payment of the others

variable {token : String} {nonce : Nat} {reading : Reading}

/-- The payment of others leaves the payload alone. -/
@[simp] theorem action_payFrom (payment : Option (String × Nat)) (reading : Reading) :
    (payFrom payment reading).action = reading.action := by
  unfold payFrom
  split <;> rfl

/-- A log that names its payment is not paid by others. -/
theorem payFrom_named (payment : Option (String × Nat))
    (h : reading.paymentToken = some token) : payFrom payment reading = reading := by
  unfold payFrom
  rw [h]

/-- A log that names no payment is paid by the transfer. -/
theorem payFrom_unnamed (h : reading.paymentToken = none) :
    payFrom (some (token, nonce)) reading
      = { reading with paymentToken := some token, paymentNonce := some nonce } := by
  unfold payFrom
  rw [h]

end MarketReplay.EventSet
