/-
Handlers: what each kind of action does to the book, and the registry that
finds the handler of a kind.

A registry holds one handler a kind. A second one for the same kind is
refused, and an action whose kind has none cannot be dispatched.
-/
import MarketReplay.Book.Offers
import MarketReplay.Book.Trades
import MarketReplay.Error

namespace MarketReplay

/-- What one kind of action does to the book. -/
structure Handler where
  kind : ActionKind
  apply : Book → ActionSummary → Payment → Book

/-- The handler of each kind. -/
def Handler.ofKind (kind : ActionKind) : Handler where
  kind
  apply book summary payment :=
    match kind with
    | .started => book.openAuction summary payment
    | .bid => book.placeBid summary payment
    | .bought => book.buyTokens summary payment
    | .ended => book.endAuction summary payment
    | .closed => book.closeAuction summary
    | .repriced => book.repriceAuction summary payment
    | .updated => book.updateAuction summary payment
    | .offerCreated => book.makeOffer summary payment
    | .offerAccepted => book.acceptOffer summary
    | .offerClosed => book.withdrawOffer summary
    | .globalOfferAccepted => book.acceptGlobalOffer summary

/-- Handlers, one a kind. -/
structure Registry where
  handlers : List Handler

namespace Registry

/-- The registry without handlers. -/
def empty : Registry := ⟨[]⟩

/-- The registry with the handler of every kind. -/
def standard : Registry := ⟨ActionKind.all.map Handler.ofKind⟩

variable (registry : Registry)

/-- The handler of a kind. -/
def get? (kind : ActionKind) : Option Handler :=
  registry.handlers.find? (·.kind == kind)

/-- The registry with one more handler, unless its kind has one. -/
def register (handler : Handler) : Except RunError Registry :=
  match registry.get? handler.kind with
  | some _ => .error (.duplicateHandler handler.kind)
  | none => .ok ⟨registry.handlers ++ [handler]⟩

/-- How many kinds have a handler. -/
def size : Nat := registry.handlers.length

/-- The kinds that have a handler, in order. -/
def kinds : List ActionKind :=
  ActionKind.all.filter fun kind => (registry.get? kind).isSome

/-- The kinds that have none, in order. -/
def missing : List ActionKind :=
  ActionKind.all.filter fun kind => (registry.get? kind).isNone

/-- The registry as a text that names its kinds. -/
def describe : String :=
  let names := ", ".intercalate (registry.kinds.map (·.name))
  "HandlerRegistry \x7b kinds: [" ++ names ++ "] \x7d"

/-- The book after an action, by the handler of its kind. -/
def dispatch (book : Book) (summary : ActionSummary) (payment : Payment) :
    Except RunError Book :=
  match registry.get? summary.kind with
  | some handler => .ok (handler.apply book summary payment)
  | none => .error (.missingHandler summary.kind)

end Registry

end MarketReplay
