import TieredPool.Config.Basic
import TieredPool.Document

/-!
# Decode — configurations and options from documents

A record is read from a table of its fields or from a list of them in order. Fields that are not
given take their defaults where they have one; fields that are not known are passed over.

* `Document.toPoolConfig?`, `Document.toServerOptions?` — the records, if the document fits them.
* `Format` — in what the formats of documents differ.
-/

namespace TieredPool

/-- The format that a document was read from. -/
inductive Format where
  /-- A list may not be longer than the record. -/
  | json
  /-- What a list has beyond the record is passed over. -/
  | toml
  deriving DecidableEq, Repr

namespace Document

variable {α : Type}

/-! ## Single values -/

def toBool? : Document → Option Bool
  | .bool b => some b
  | _ => none

def toText? : Document → Option String
  | .text s => some s
  | _ => none

def toNat? : Document → Option Nat
  | .integer (.ofNat n) => some n
  | _ => none

def toUInt32? (d : Document) : Option UInt32 :=
  d.toNat?.bind fun n => if h : n < UInt32.size then some (UInt32.ofNatLT n h) else none

def toUInt64? (d : Document) : Option UInt64 :=
  d.toNat?.bind fun n => if h : n < UInt64.size then some (UInt64.ofNatLT n h) else none

def toList? (item : Document → Option α) : Document → Option (List α)
  | .list ds => ds.mapM item
  | _ => none

/-! ## Fields -/

/-- What a document gives for each field of a record. A date gives nothing for any. -/
def fields? (n : Format) (names : List String) : Document → Option (List (Option Document))
  | .table fs => some (names.map (lookup · fs))
  | .moment _ => some (names.map fun _ => none)
  | .list ds =>
      if n = .json ∧ names.length < ds.length then none
      else some ((List.range names.length).map (ds[·]?))
  | _ => none

/-- The value of a field that has a default. -/
def orElse (default : α) (read : Document → Option α) : Option Document → Option α
  | none => some default
  | some d => read d

/-! ## Records -/

/-- The two parts of a duration. Here no other field is passed over. -/
def durationParts? : Document → Option (Document × Document)
  | .table fs =>
      if fs.all fun f => f.1 = "secs" ∨ f.1 = "nanos" then do
        return (← lookup "secs" fs, ← lookup "nanos" fs)
      else none
  | .list [seconds, nanos] => some (seconds, nanos)
  | _ => none

/-- A duration of seconds and nanoseconds, which may carry over. -/
def toDuration? (d : Document) : Option Duration := do
  let (seconds, nanos) ← durationParts? d
  Duration.ofParts? (← seconds.toUInt64?).toNat (← nanos.toUInt32?).toNat

def toServerOptions? (n : Format) (d : Document) : Option ServerOptions := do
  match ← fields? n ["weight", "max_fails", "fail_timeout", "is_backup"] d with
  | [weight, maxFails, failTimeout, isBackup] =>
      let default : ServerOptions := {}
      return {
        weight := ← orElse default.weight toUInt32? weight
        maxFails := ← orElse default.maxFails toUInt32? maxFails
        failTimeout := ← orElse default.failTimeout toDuration? failTimeout
        isBackup := ← orElse default.isBackup toBool? isBackup }
  | _ => none

def toServerConfig? (n : Format) (d : Document) : Option ServerConfig := do
  match ← fields? n ["name", "address", "weight", "max_fails", "fail_timeout_ms", "backup"] d with
  | [name, address, weight, maxFails, failTimeoutMs, backup] =>
      let name ← name.bind toText?
      let address ← address.bind toText?
      let default : ServerConfig := { name, address }
      return {
        name, address
        weight := ← orElse default.weight toUInt32? weight
        maxFails := ← orElse default.maxFails toUInt32? maxFails
        failTimeoutMs := ← orElse default.failTimeoutMs toUInt64? failTimeoutMs
        backup := ← orElse default.backup toBool? backup }
  | _ => none

def toRetryConfig? (n : Format) (d : Document) : Option RetryConfig := do
  match ← fields? n ["max_attempts", "base_delay_ms", "max_delay_ms"] d with
  | [maxAttempts, baseDelayMs, maxDelayMs] =>
      let default : RetryConfig := {}
      return {
        maxAttempts := ← orElse default.maxAttempts toUInt32? maxAttempts
        baseDelayMs := ← orElse default.baseDelayMs toUInt64? baseDelayMs
        maxDelayMs := ← orElse default.maxDelayMs toUInt64? maxDelayMs }
  | _ => none

def toLogConfig? (n : Format) (d : Document) : Option LogConfig := do
  match ← fields? n ["log_level"] d with
  | [logLevel] => return { logLevel := ← orElse ({} : LogConfig).logLevel toText? logLevel }
  | _ => none

def toPoolConfig? (n : Format) (d : Document) : Option PoolConfig := do
  match ← fields? n ["servers", "retry", "observability"] d with
  | [servers, retry, observability] =>
      let default : PoolConfig := {}
      return {
        servers := ← orElse default.servers (toList? (toServerConfig? n)) servers
        retry := ← orElse default.retry (toRetryConfig? n) retry
        observability := ← orElse default.observability (toLogConfig? n) observability }
  | _ => none

end Document

end TieredPool
