/-
Event sets: all the logs of one transaction, in log order, and what they
report together.

The logs that the marketplace itself emitted decide: each one of a known kind
reports an action, and one outside the vocabulary ends the reading at once,
even behind a malformed one. Transfer logs, of any emitter, only supply the
payment of those actions that name none: the first transfer into the
marketplace speaks for all of them.
-/
import MarketReplay.Action.Layout
import MarketReplay.Event

namespace MarketReplay

/-- Why an event set could not be read. -/
inductive SummaryError
  /-- The marketplace emitted an identifier outside the vocabulary. -/
  | unknownAction (identifier txHash : String)
  /-- The topics of an action log are malformed. -/
  | decode (identifier txHash : String) (cause : TopicError)
deriving DecidableEq, Repr

/-- What is said of an unreadable event set. -/
def SummaryError.message : SummaryError → String
  | .unknownAction identifier txHash =>
      s!"Unknown marketplace action '{identifier}' in tx {txHash}"
  | .decode identifier txHash cause =>
      s!"Failed to decode '{identifier}' in tx {txHash}: {cause.message}"

namespace EventSet

variable (marketplace : Marketplace)

/-- The class of an event by its identifier. -/
def classOf (event : Event) : EventClass := .ofIdentifier event.identifier

/-- The logs of a set that the marketplace emitted. -/
def ownLogs (set : List Event) : List Event :=
  set.filter (·.address == marketplace.address)

/-- The first own log outside the vocabulary. -/
def firstUnknown? (set : List Event) : Option Event :=
  (ownLogs marketplace set).find? (classOf · == .unknown)

/-- The own logs that report an action, each with its kind. -/
def actionLogs (set : List Event) : List (Event × ActionKind) :=
  (ownLogs marketplace set).filterMap fun event =>
    match classOf event with
    | .action kind => some (event, kind)
    | _ => none

/-- The token and nonce of the first transfer into the marketplace. -/
def transferPayment? (set : List Event) : Option (String × Nat) :=
  set.findSome? fun event =>
    match classOf event with
    | .transfer layout => Layout.transferInto? ⟨event.topics⟩ marketplace.address layout
    | _ => none

/-- A reading with the payment it names, or else the one given. -/
def payFrom (payment : Option (String × Nat)) (reading : Reading) : Reading :=
  match reading.paymentToken, payment with
  | none, some (token, nonce) =>
      { reading with paymentToken := some token, paymentNonce := some nonce }
  | _, _ => reading

/-- What one action log of a set that starts with `head` reports. -/
def summarizeLog (head : Event) (payment : Option (String × Nat)) (log : Event × ActionKind) :
    Except SummaryError ActionSummary :=
  match Layout.read ⟨log.1.topics⟩ log.2 with
  | .error cause => .error (.decode log.1.identifier head.txHash cause)
  | .ok reading =>
      let paid := payFrom payment reading
      .ok {
        txHash := head.txHash
        timestamp := head.timestamp
        marketplaceKey := marketplace.key
        paymentToken := paid.paymentToken
        paymentNonce := paid.paymentNonce
        action := paid.action }

/-- The actions that a set reports, in log order; none if the marketplace
reports nothing in it. -/
def summarize (set : List Event) : Except SummaryError (List ActionSummary) :=
  match set with
  | [] => .ok []
  | head :: _ =>
      match firstUnknown? marketplace set with
      | some event => .error (.unknownAction event.identifier head.txHash)
      | none =>
          (actionLogs marketplace set).mapM
            (summarizeLog marketplace head (transferPayment? marketplace set))

end EventSet

end MarketReplay
