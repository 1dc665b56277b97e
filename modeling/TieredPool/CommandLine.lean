import TieredPool.Config.Load
import TieredPool.SimulationReport

/-!
# CommandLine — checking and simulating configurations

* `Command` — what the arguments ask for.
* `Command.parse` — the arguments as a command, or why there is none.
* `Command.run` — the exit code and what is printed, given the file that the command names.
-/

namespace TieredPool

inductive Command where
  /-- Validates a configuration and shows its servers. -/
  | check (config : String)
  | simulate (config : String) (params : SimulationParams)
  deriving Repr

/-- Why arguments give no command. -/
inductive NoCommand where
  | usage
  | help
  deriving DecidableEq, Repr

/-! ## Arguments -/

/-- What the arguments of a subcommand have set so far. -/
structure Given where
  config : Option String := none
  requests : Option Nat := none
  failureRate : Option Binary64 := none
  broken : List String := []
  tickMs : Option UInt64 := none
  seed : Option UInt64 := none

/-- The options of the `simulate` subcommand. -/
inductive Flag where
  | requests
  | failureRate
  | broken
  | tickMs
  | seed
  deriving DecidableEq, Repr

def Flag.ofLong? (name : String) : Option Flag :=
  if name = "requests" then some .requests
  else if name = "failure-rate" then some .failureRate
  else if name = "broken" then some .broken
  else if name = "tick-ms" then some .tickMs
  else if name = "seed" then some .seed
  else none

def Flag.ofShort? : Char → Option Flag
  | 'r' => some .requests
  | 'f' => some .failureRate
  | _ => none

/-- An unsigned 64-bit number; a plus may stand in front. -/
def readUInt64? (text : String) : Option UInt64 :=
  let cs := text.toList
  let digits := if cs.head? = some '+' then cs.tail else cs
  let n := Text.digitsValue digits
  if !digits.isEmpty && digits.all Char.isDigit && n < UInt64.size then some (UInt64.ofNat n) else none

/-- A value that is set once only. -/
def setOnce {α : Type} (old : Option α) (new : Option α) : Except NoCommand (Option α) :=
  match old, new with
  | none, some v => .ok (some v)
  | _, _ => .error .usage

def Given.set (flag : Flag) (value : String) (g : Given) : Except NoCommand Given :=
  match flag with
  | .requests => do
      return { g with requests := ← setOnce g.requests ((readUInt64? value).map (·.toNat)) }
  | .failureRate => do
      return { g with failureRate := ← setOnce g.failureRate (Binary64.read? value) }
  | .broken => .ok { g with broken := g.broken ++ [value] }
  | .tickMs => do return { g with tickMs := ← setOnce g.tickMs (readUInt64? value) }
  | .seed => do return { g with seed := ← setOnce g.seed (readUInt64? value) }

/-- The one argument without a flag is the path of the configuration, which is not empty. -/
def Given.setConfig (path : String) (g : Given) : Except NoCommand Given := do
  return { g with config := ← setOnce g.config (if path.isEmpty then none else some path) }

/-- How an argument reads. -/
inductive Argument where
  /-- From here on nothing is a flag. -/
  | separator
  | help
  | flag (flag : Flag) (value : Option String)
  | unknown
  | plain

def Argument.ofText (simulates : Bool) (text : String) : Argument :=
  let known (flag : Option Flag) (value : Option String) : Argument :=
    match simulates, flag with
    | true, some flag => .flag flag value
    | _, _ => .unknown
  match text.toList with
  | ['-', '-'] => .separator
  | '-' :: '-' :: rest =>
      let name := String.ofList (rest.takeWhile (· != '='))
      match rest.dropWhile (· != '=') with
      | _ :: value => known (Flag.ofLong? name) (some (String.ofList value))
      | [] => if name = "help" then .help else known (Flag.ofLong? name) none
  | ['-'] => .plain
  | '-' :: 'h' :: _ => .help
  | '-' :: letter :: '=' :: value => known (Flag.ofShort? letter) (some (String.ofList value))
  | ['-', letter] => known (Flag.ofShort? letter) none
  | '-' :: letter :: value => known (Flag.ofShort? letter) (some (String.ofList value))
  | _ => .plain

/-- Whether an argument can be the value of the flag before it. -/
def Argument.isValue (text : String) : Bool := text = "-" || text.toList.head? != some '-'

def Given.addPlain (g : Given) : List String → Except NoCommand Given
  | [] => .ok g
  | path :: rest => do (← g.setConfig path).addPlain rest

/-- Reads the arguments of a subcommand. A flag without a value waits for it in `waiting`. -/
def Given.read (simulates : Bool) (waiting : Option Flag) (g : Given) :
    List String → Except NoCommand Given
  | [] => if waiting.isSome then .error .usage else .ok g
  | text :: rest =>
      match waiting with
      | some flag =>
          if Argument.isValue text then do (← g.set flag text).read simulates none rest
          else .error .usage
      | none =>
          match Argument.ofText simulates text with
          | .separator => g.addPlain rest
          | .help => .error .help
          | .flag flag (some value) => do (← g.set flag value).read simulates none rest
          | .flag flag none => g.read simulates (some flag) rest
          | .unknown => .error .usage
          | .plain => do (← g.setConfig text).read simulates none rest

/-- The simulation that was asked for; what was not given has its default. -/
def Given.params (g : Given) : SimulationParams :=
  let default : SimulationParams := {}
  { requests := g.requests.getD default.requests
    failureRate := g.failureRate.getD default.failureRate
    broken := g.broken
    tick := (g.tickMs.map Duration.ofMillis).getD default.tick
    seed := g.seed.getD default.seed }

/-- What there is help on. -/
def topics : List String := ["check", "simulate", "help"]

/-- Whether the argument in place of a subcommand asks for help. -/
def asksForHelp (text : String) : Bool := text = "--help" || ['-', 'h'].isPrefixOf text.toList

namespace Command

def parse : List String → Except NoCommand Command
  | "check" :: rest => do
      match (← ({} : Given).read false none rest).config with
      | some path => return .check path
      | none => throw .usage
  | "simulate" :: rest => do
      let g ← ({} : Given).read true none rest
      match g.config with
      | some path => return .simulate path g.params
      | none => throw .usage
  | ["help"] => .error .help
  | ["help", topic] => .error (if topics.contains topic then .help else .usage)
  | first :: _ => .error (if asksForHelp first then .help else .usage)
  | [] => .error .usage

/-- The file that the command reads. -/
def config : Command → String
  | .check path => path
  | .simulate path _ => path

end Command

/-! ## Running -/

/-- How the program ends. -/
structure Exit where
  code : UInt8
  stdout : String := ""
  stderr : String := ""
  deriving DecidableEq, Repr

def usageText : String :=
  "Usage: check <CONFIG>\n"
    ++ "       simulate <CONFIG> [-r|--requests N] [-f|--failure-rate P] [--broken NAME]...\n"
    ++ "                [--tick-ms MS] [--seed N]\n"

def NoCommand.exit : NoCommand → Exit
  | .usage => { code := 2, stderr := usageText }
  | .help => { code := 0, stdout := usageText }

def Exit.failure (description : String) : Exit :=
  { code := 1, stderr := "Error: " ++ description ++ "\n" }

def Exit.success (d : Document) : Exit := { code := 0, stdout := d.pretty ++ "\n" }

/-- A server in the answer to `check`, its fields in the order of their names. -/
def ServerConfig.listing (c : ServerConfig) : Document :=
  .table [
    ("address", .text c.address),
    ("backup", .bool c.backup),
    ("fail_timeout_ms", .nat c.failTimeoutMs.toNat),
    ("max_fails", .nat c.maxFails.toNat),
    ("name", .text c.name),
    ("weight", .nat c.weight.toNat)]

namespace Command

/-- Carries out a command on the content of its file. The failure rate is looked at before the
file is. A simulation runs on a clock that starts at `start`. -/
def run (toml : DocumentReader) (urls : UrlParser) (start : Instant)
    (file : Except FileError ByteArray) : Command → Exit
  | .check _ =>
      match PoolConfig.load toml urls file with
      | .error e => .failure e.describe
      | .ok config =>
          .success (.table [
            ("servers", .list (config.servers.map ServerConfig.listing)),
            ("valid", .bool true)])
  | .simulate _ params =>
      if !params.failureRate.inUnitInterval then
        .failure (Text.quoted
          ("failure rate " ++ params.failureRate.text ++ " is outside [0, 1]"))
      else
        match PoolConfig.load toml urls file with
        | .error e => .failure e.describe
        | .ok config =>
            match (TieredPool.simulate urls start config params).result with
            | .ok (.ok report) => .success report.toDocument
            | .ok (.error e) => .failure e.describe
            | .error (.panic reason) => { code := 101, stderr := reason.message ++ "\n" }
            | .error .outOfFuel => { code := 101, stderr := "events nest too deeply\n" }

end Command

end TieredPool
