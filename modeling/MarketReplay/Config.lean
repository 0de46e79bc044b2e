/-
The settings of a replay, and the phases that it runs through.
-/
import MarketReplay.Error
import MarketReplay.Token

namespace MarketReplay

/-- The settings of a replay. -/
structure Config where
  /-- How many events to ask for at a time. -/
  pageSize : Nat
  /-- How many tokens to ask tags for at a time. -/
  metadataBatchSize : Nat
  /-- How many requests for tags may be under way at once. -/
  metadataConcurrency : Nat
  /-- The identifier of the chain's own token. -/
  nativeToken : String
  /-- Its decimals, also taken for tokens that nobody knows. -/
  nativeDecimals : Nat
deriving DecidableEq, Repr

namespace Config

/-- The settings in force where nothing else is said. -/
def standard : Config where
  pageSize := 1000
  metadataBatchSize := 100
  metadataConcurrency := 4
  nativeToken := "EGLD"
  nativeDecimals := 18

/-- The first fault of the settings, if there is one. -/
def fault? (config : Config) : Option ConfigFault :=
  if config.pageSize = 0 then some .zeroPageSize
  else if config.metadataBatchSize = 0 then some .zeroBatchSize
  else if config.metadataConcurrency = 0 then some .zeroConcurrency
  else if config.nativeToken.isEmpty then some .noNativeToken
  else none

/-- Settings that a replay can work with. -/
def validate (config : Config) : Except RunError Unit :=
  match config.fault? with
  | some fault => .error (.config fault)
  | none => .ok ()

/-- A payment in the chain's own token. -/
def native (config : Config) : Payment :=
  ⟨config.nativeToken, config.nativeDecimals, 0⟩

end Config

/-- Where a replay is. -/
inductive RunPhase
  | replaying
  | sweeping
  | backfillingTags
  | persisting
  | done
  | failed
deriving DecidableEq, Repr

namespace RunPhase

/-- Every phase once, in order. -/
def all : List RunPhase :=
  [replaying, sweeping, backfillingTags, persisting, done, failed]

/-- The name of a phase in documents. -/
def name : RunPhase → String
  | replaying => "Replaying"
  | sweeping => "Sweeping"
  | backfillingTags => "BackfillingTags"
  | persisting => "Persisting"
  | done => "Done"
  | failed => "Failed"

/-- The name of a phase in messages. -/
def label : RunPhase → String
  | replaying => "replaying"
  | sweeping => "sweeping"
  | backfillingTags => "backfilling-tags"
  | persisting => "persisting"
  | done => "done"
  | failed => "failed"

end RunPhase

end MarketReplay
