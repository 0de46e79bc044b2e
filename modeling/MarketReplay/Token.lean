/-
Tokens: the fungible ones that prices are paid in, and the identifiers of the
tokens that are sold.
-/
import MarketReplay.Number.BigEndian
import MarketReplay.Number.Binary64
import MarketReplay.Number.Power
import MarketReplay.Text.Hex

namespace MarketReplay

/-- A fungible token that prices may be paid in. -/
structure Token where
  identifier : String
  decimals : Nat
deriving DecidableEq, Repr

/-- The token that one action is paid in, with the nonce it is paid under. -/
structure Payment where
  identifier : String
  decimals : Nat
  nonce : Nat
deriving DecidableEq, Repr

/-- The tags of one token, as a metadata service reports them. -/
structure TokenTags where
  identifier : String
  tags : List String
deriving DecidableEq, Repr

/-- The bytes that a nonce is written in: as few as it needs, one at least. -/
def nonceBytes (nonce : Nat) : List UInt8 :=
  if nonce = 0 then [0] else BigEndian.ofNat nonce

/-- The identifier of a token: its collection, a hyphen and its nonce in
hexadecimal, two digits a byte. -/
def tokenIdentifier (collection : String) (nonce : Nat) : String :=
  collection ++ "-" ++ Hex.encode (nonceBytes nonce)

/-- An amount in whole units of a token. The count of decimals is read as a
signed 32-bit number, and both roundings, of the amount and of the quotient,
are to the nearest float. -/
def denominate (amount decimals : Nat) : Float :=
  Binary64.ofNat amount / Binary64.powerOfTen (Int.bmod decimals (twoTo 32))

end MarketReplay
