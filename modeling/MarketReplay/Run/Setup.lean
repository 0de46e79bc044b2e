/-
Setting up a replay: settings, and the services as far as they are given.

The settings are checked first, and then the services in a fixed order, so of
several faults a definite one is named. Handlers that are not given are the
standard ones.
-/
import MarketReplay.Run

namespace MarketReplay

/-- A replay that is being set up. -/
structure Setup (σ : Type) where
  config : Config
  marketplaceAt : Option (String → Call σ (Option Marketplace))
  events : Option (EventStore σ)
  token : Option (String → Call σ (Option Token))
  tagsOf : Option (List String → Nat → Call σ (List TokenTags))
  sink : Option (Sink σ)
  handlers : Option Registry
  observe : List Event → σ → σ
  now : σ → Int
  lockTime : σ → Int

namespace Setup

variable {σ : Type}

/-- A setup with all the services given. -/
def ofServices (config : Config) (services : Services σ) : Setup σ where
  config
  marketplaceAt := some services.marketplaceAt
  events := some services.events
  token := some services.token
  tagsOf := some services.tagsOf
  sink := some services.sink
  handlers := none
  observe := services.observe
  now := services.now
  lockTime := services.lockTime

/-- A service that must be given. -/
def require {α : Type} (collaborator : Collaborator) (given : Option α) : Except RunError α :=
  match given with
  | some service => .ok service
  | none => .error (.config (.missing collaborator))

/-- The replay that was set up. -/
def build (setup : Setup σ) : Except RunError (Replayer σ) := do
  setup.config.validate
  let token ← require .tokens setup.token
  let events ← require .events setup.events
  let marketplaceAt ← require .marketplaces setup.marketplaceAt
  let tagsOf ← require .metadata setup.tagsOf
  let sink ← require .sink setup.sink
  return {
    config := setup.config
    services := {
      marketplaceAt, events, token, tagsOf, sink
      observe := setup.observe
      now := setup.now
      lockTime := setup.lockTime }
    handlers := setup.handlers.getD .standard }

end Setup

end MarketReplay
