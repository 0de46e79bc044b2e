/-
The command line: what a list of arguments asks for, and the reply to it.

Arguments are read from left to right and the first fault is reported, so a
fault in an option wins over a missing argument. After the arguments come the
configuration file, then the event log, then the replay; each stage ends the
command if it fails. All of it is a function of the arguments, the contents of
the files and the time, and the outer layer only reads and prints.
-/
import MarketReplay.Document.Config
import MarketReplay.Document.Event
import MarketReplay.Document.Record
import MarketReplay.Json.Printer
import MarketReplay.Number.Power
import MarketReplay.Run.Setup
import MarketReplay.Store.Memory
import MarketReplay.Text.Blank

namespace MarketReplay

namespace CommandLine

-- ================================================================== faults

/-- Why a text is no count of decimals. -/
inductive NumberFault
  | empty
  | invalidDigit
  | tooLarge
deriving DecidableEq, Repr

/-- What is said of a text that is no count of decimals. -/
def NumberFault.message : NumberFault → String
  | empty => "cannot parse integer from empty string"
  | invalidDigit => "invalid digit found in string"
  | tooLarge => "number too large to fit in target type"

/-- What is wrong with the arguments. -/
inductive ArgumentFault
  | needsValue (flag : String)
  | unknownKind (name : String)
  | unknownOption (flag : String)
  | unexpected (argument : String)
  | missingEvents
  | missingMarketplace
  | tokenForm (given : String)
  | decimals (given : String) (fault : NumberFault)
  | tagsForm (given : String)
deriving DecidableEq, Repr

/-- What is said of faulty arguments. -/
def ArgumentFault.message : ArgumentFault → String
  | needsValue flag => s!"{flag} needs a value"
  | unknownKind name => s!"unknown marketplace kind '{name}'"
  | unknownOption flag => s!"unknown option {flag}"
  | unexpected argument => s!"unexpected argument '{argument}'"
  | missingEvents => "missing <events.json>"
  | missingMarketplace => "missing --marketplace"
  | tokenForm given => s!"--token expects <identifier>:<decimals>, got '{given}'"
  | decimals given fault => s!"invalid decimals in '{given}': {fault.message}"
  | tagsForm given => s!"--tags expects <identifier>=<tag,tag>, got '{given}'"

/-- Why a file could not be read. -/
inductive FileFault
  | notFound
  | denied
  /-- A part of the path before the last is no directory. -/
  | notDirectory
  | isDirectory
  | nameTooLong
  | notText
  | other (reason : String)
deriving DecidableEq, Repr

/-- What is said of a file that could not be read. -/
def FileFault.message : FileFault → String
  | notFound => "No such file or directory (os error 2)"
  | denied => "Permission denied (os error 13)"
  | notDirectory => "Not a directory (os error 20)"
  | isDirectory => "Is a directory (os error 21)"
  | nameTooLong => "File name too long (os error 36)"
  | notText => "stream did not contain valid UTF-8"
  | other reason => reason

/-- Why a command failed. -/
inductive Failure
  | arguments (fault : ArgumentFault)
  | reading (path : String) (fault : FileFault)
  | parsing (path : String)
  | run (error : RunError)
  | alreadyRunning (address : String)
deriving DecidableEq, Repr

/-- What is said of a failed command. -/
def Failure.message : Failure → String
  | arguments fault => fault.message
  | reading path fault => s!"reading {path}: {fault.message}"
  | parsing path => s!"parsing {path}"
  | run error => error.message
  | alreadyRunning address => s!"a reindex of {address} is already running"

-- ============================================================ single values

/-- The parts of a text before and after the first such character. -/
def splitOnce (separator : Char) (text : String) : Option (String × String) :=
  let chars := text.toList
  match chars.dropWhile (· != separator) with
  | [] => none
  | _ :: rest => some (String.ofList (chars.takeWhile (· != separator)), String.ofList rest)

/-- A number below `2 ^ 32` with one more digit. -/
def pushDigit (value : Nat) (c : Char) : Except NumberFault Nat :=
  let next := 10 * value + (c.toNat - 48)
  if !c.isDigit then .error .invalidDigit
  else if twoTo 32 ≤ next then .error .tooLarge
  else .ok next

/-- A number below `2 ^ 32`; one plus sign is allowed before it. -/
def parseDecimals (text : String) : Except NumberFault Nat :=
  match text.toList with
  | [] => .error .empty
  | ['+'] => .error .invalidDigit
  | '+' :: digits => digits.foldlM pushDigit 0
  | digits => digits.foldlM pushDigit 0

/-- A token with its decimals, divided by the first colon. -/
def parseToken (given : String) : Except ArgumentFault Token :=
  match splitOnce ':' given with
  | none => .error (.tokenForm given)
  | some (identifier, text) =>
      match parseDecimals text with
      | .ok decimals => .ok ⟨identifier, decimals⟩
      | .error fault => .error (.decimals given fault)

/-- A token with its tags, divided by the first equals sign; blank tags are
left out. -/
def parseTags (given : String) : Except ArgumentFault TokenTags :=
  match splitOnce '=' given with
  | none => .error (.tagsForm given)
  | some (identifier, text) =>
      let tags := (text.splitOn ",").map Blank.trim
      .ok ⟨identifier, tags.filter (!·.isEmpty)⟩

-- ================================================================= options

/-- What the arguments of a replay say. -/
structure Options where
  events : Option String
  marketplace : Option String
  key : String
  operator : Operator
  lookup : Lookup
  tokens : List Token
  tags : List TokenTags
  config : Option String
  logLevel : Option String
  jsonLogs : Bool
deriving DecidableEq, Repr

namespace Options

/-- The options where nothing is said. -/
def standard : Options where
  events := none
  marketplace := none
  key := "marketplace"
  operator := .internal
  lookup := .byAuctionId
  tokens := []
  tags := []
  config := none
  logLevel := none
  jsonLogs := false

/-- The flags that a value follows, with what they do to the options. -/
def setters : List (String × (Options → String → Except ArgumentFault Options)) :=
  [("--marketplace", fun options value => .ok { options with marketplace := some value }),
    ("--key", fun options value => .ok { options with key := value }),
    ("--kind", fun options value =>
      match value with
      | "internal" => .ok { options with operator := .internal, lookup := .byAuctionId }
      | "external" => .ok { options with operator := .external, lookup := .byAuctionId }
      | "swap" => .ok { options with operator := .external, lookup := .byIdentifier }
      | other => .error (.unknownKind other)),
    ("--token", fun options value => do
      return { options with tokens := options.tokens ++ [← parseToken value] }),
    ("--tags", fun options value => do
      return { options with tags := options.tags ++ [← parseTags value] }),
    ("--config", fun options value => .ok { options with config := some value }),
    ("--log-level", fun options value => .ok { options with logLevel := some value })]

/-- The options with what some more arguments say. -/
def parse (options : Options) : List String → Except ArgumentFault Options
  | [] => .ok options
  | argument :: rest =>
      match setters.lookup argument, rest with
      | some _, [] => .error (.needsValue argument)
      | some set, value :: rest => do parse (← set options value) rest
      | none, rest =>
          if argument = "--json-logs" then parse { options with jsonLogs := true } rest
          else if argument.startsWith "--" then .error (.unknownOption argument)
          else
            match options.events with
            | none => parse { options with events := some argument } rest
            | some _ => .error (.unexpected argument)

end Options

/-- What a replay is asked for. -/
structure ReplayOrder where
  events : String
  marketplace : Marketplace
  tokens : List Token
  tags : List TokenTags
  config : Option String
deriving DecidableEq, Repr

/-- Reads the arguments of a replay. -/
def parseReplay (arguments : List String) : Except ArgumentFault ReplayOrder := do
  let options ← Options.standard.parse arguments
  match options.events, options.marketplace with
  | none, _ => throw .missingEvents
  | some _, none => throw .missingMarketplace
  | some events, some address =>
      return {
        events
        marketplace := ⟨options.key, address, options.operator, options.lookup⟩
        tokens := options.tokens
        tags := options.tags
        config := options.config }

/-- The files that a replay reads, in order. -/
def ReplayOrder.files (order : ReplayOrder) : List String :=
  order.config.toList ++ [order.events]

-- ================================================================ commands

/-- What the arguments ask for. -/
inductive Command
  | replay (order : Except ArgumentFault ReplayOrder)
  | info
  | version
  | help
  | unknown (name : String)
  /-- No argument at all. -/
  | nothing

/-- Reads the arguments. -/
def Command.ofArguments : List String → Command
  | [] => nothing
  | "replay" :: arguments => replay (parseReplay arguments)
  | "info" :: _ => info
  | "version" :: _ => version
  | "--version" :: _ => version
  | "-V" :: _ => version
  | "help" :: _ => help
  | "--help" :: _ => help
  | "-h" :: _ => help
  | name :: _ => unknown name

/-- The files that a command reads, in order. -/
def Command.files : Command → List String
  | replay (.ok order) => order.files
  | _ => []

-- =================================================================== texts

/-- The version of the program. -/
def versionNumber : String := "0.1.0"

/-- Some lines as a text, each with its end. -/
def lines (texts : List String) : String :=
  String.join (texts.map (· ++ "\n"))

/-- The line that names the program and its version. -/
def versionText : String := lines ["marketindex " ++ versionNumber]

/-- The help text. -/
def usageText : String := versionText ++ lines [
  "Rebuild NFT marketplace state from its event log",
  "",
  "USAGE:",
  "    marketindex <COMMAND>",
  "",
  "COMMANDS:",
  "    replay   Replay a JSON event log and print the snapshot",
  "    info     Show default configuration",
  "    version  Print version",
  "    help     Print this help",
  "",
  "REPLAY OPTIONS:",
  "    marketindex replay <events.json> --marketplace <address>",
  "        --key <key>                        Marketplace key (default: marketplace)",
  "        --kind internal|external|swap      Marketplace kind (default: internal)",
  "        --token <identifier>:<decimals>    Known payment token (repeatable)",
  "        --tags <identifier>=<tag,tag>      Known NFT tags (repeatable)",
  "        --config <config.json>             Reindex and logging configuration",
  "        --log-level <level>                Default log level",
  "        --json-logs                        Emit JSON logs on stderr"]

/-- The settings in force where nothing else is said. -/
def infoText : String :=
  let config := Config.standard
  lines [
    s!"MarketIndex v{versionNumber}",
    s!"  Default page size: {config.pageSize} events/call",
    s!"  Default metadata batch: {config.metadataBatchSize} identifiers/call",
    s!"  Default metadata concurrency: {config.metadataConcurrency} requests",
    s!"  Native token: {config.nativeToken} ({config.nativeDecimals} decimals)",
    "  Storage backends: memory, SQLite (feature: sqlite)"]

-- ================================================================= replies

/-- The reply to a command. -/
inductive Reply
  /-- A text. -/
  | text (output : String)
  /-- The help text, as a complaint. -/
  | usage (unknown : Option String)
  | failed (failure : Failure)
  /-- The report of a replay and the records it stored. -/
  | replayed (report : Report) (tables : Tables)
deriving DecidableEq, Repr

namespace Reply

/-- The exit code. -/
def code : Reply → UInt8
  | text _ => 0
  | usage _ => 1
  | failed _ => 1
  | replayed _ _ => 0

/-- What goes to standard output; a replay says how long it took. -/
def output (elapsedMs : Nat) : Reply → String
  | text output => output
  | usage _ => usageText
  | failed _ => ""
  | replayed report tables =>
      let report := report.members ++ [("elapsed_ms", Json.Value.nat elapsedMs)]
      lines [(Json.Value.record
        (("report", .record report) :: tables.members Spelling.plain)).pretty]

/-- What goes to standard error. -/
def complaint : Reply → Option String
  | usage (some name) => some ("Unknown command: " ++ name)
  | failed failure => some ("error: " ++ failure.message)
  | _ => none

end Reply

-- ============================================================ carrying out

/-- The contents of a file, by a function that reads files. -/
def load (read : String → Except FileFault String) (path : String) : Except Failure String :=
  match read path with
  | .ok text => .ok text
  | .error fault => .error (.reading path fault)

/-- The configuration that a replay asks for. -/
def loadConfig (read : String → Except FileFault String) :
    Option String → Except Failure ConfigFile
  | none => .ok .standard
  | some path => do
      let text ← load read path
      match (Json.parse? text).bind ConfigFile.shape with
      | some config => return config
      | none => throw (.parsing path)

/-- The services that a replay works with. -/
def ReplayOrder.memory (order : ReplayOrder) (log : EventLog) (now : Int) : Memory :=
  { Memory.empty with
    log
    marketplaces := [order.marketplace]
    tokens := order.tokens.reverse
    tags := order.tags.reverse
    clock := now
    lockClock := now }

/-- Carries out a replay. -/
def ReplayOrder.execute (order : ReplayOrder) (read : String → Except FileFault String)
    (now : Int) : Except Failure (Report × Tables) := do
  let config ← loadConfig read order.config
  let text ← load read order.events
  let address := order.marketplace.address
  let log ← (EventLog.parse address text).mapError .run
  let setup := Setup.ofServices config.replay Memory.services
  let replayer ← setup.build.mapError .run
  match replayer.run address ⟨.empty, order.memory log now⟩ with
  | (.completed report, host) => return (report, host.world.tables)
  | (.alreadyRunning, _) => throw (.alreadyRunning address)
  | (.failed error, _) => throw (.run error)

/-- Carries out a command. -/
def Command.execute (command : Command) (read : String → Except FileFault String)
    (now : Int) : Reply :=
  match command with
  | replay (.error fault) => .failed (.arguments fault)
  | replay (.ok order) =>
      match order.execute read now with
      | .ok (report, tables) => .replayed report tables
      | .error failure => .failed failure
  | info => .text infoText
  | version => .text versionText
  | help => .text usageText
  | unknown name => .usage (some name)
  | nothing => .usage none

end CommandLine

end MarketReplay
