/-
Finding the payment of an action: which token its prices are in, how many
decimals that token has, and its nonce.

The action's own word counts first, then the auction it refers to, then the
chain's own token. The own token is never looked up; another one is, and if
nobody knows it the own token's decimals are taken. Actions that put no price
on anything count as paid in the own token.
-/
import MarketReplay.Book
import MarketReplay.Config
import MarketReplay.Run.Services

namespace MarketReplay

/-- A payment that is settled, or that still needs the decimals of a token. -/
inductive Quote
  | settled (payment : Payment)
  | inToken (identifier : String) (nonce : Nat)
deriving DecidableEq, Repr

namespace Config

variable (config : Config)

/-- What the book and an action say of the action's payment. -/
def quote (book : Book) (summary : ActionSummary) : Quote :=
  if !summary.kind.isPriced then .settled config.native
  else
    let auction := (book.auctionFor? summary).map (·.2)
    let identifier :=
      (summary.paymentToken <|> auction.map (·.paymentToken)).getD config.nativeToken
    let nonce := (summary.paymentNonce <|> auction.map (·.paymentNonce)).getD 0
    if identifier = config.nativeToken then .settled config.native
    else .inToken identifier nonce

/-- The payment in a token, given what is known of it. -/
def settle (identifier : String) (nonce : Nat) (token : Option Token) : Payment :=
  ⟨identifier, (token.map (·.decimals)).getD config.nativeDecimals, nonce⟩

/-- The payment of an action, by a function that looks tokens up. -/
def resolve {m : Type → Type} [Monad m] (lookup : String → m (Option Token)) (book : Book)
    (summary : ActionSummary) : m Payment := do
  match config.quote book summary with
  | .settled payment => return payment
  | .inToken identifier nonce => return config.settle identifier nonce (← lookup identifier)

end Config

end MarketReplay
