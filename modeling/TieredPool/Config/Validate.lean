import TieredPool.Config.Basic
import TieredPool.Text.Blank
import TieredPool.Url.Basic

/-!
# Validate — the rules a configuration must keep

All problems are found in one pass, in the order of the document.

* `Problem` — one broken rule, with the `field` it is about and a `message`.
* `PoolConfig.problems` — every broken rule.
-/

namespace TieredPool

inductive Problem where
  | noServers
  | blankName (index : Nat)
  | duplicateName (index : Nat) (name : String)
  | badAddress (index : Nat) (error : Url.UrlError)
  | notHttp (index : Nat)
  | badOptions (index : Nat) (error : OptionsError)
  | noAttempts
  | baseExceedsMax
  deriving DecidableEq, Repr

namespace Problem

def serverField (index : Nat) (name : String) : String :=
  "servers[" ++ toString index ++ "]." ++ name

/-- The dotted path of the field. -/
def field : Problem → String
  | .noServers => "servers"
  | .blankName i | .duplicateName i _ => serverField i "name"
  | .badAddress i _ | .notHttp i => serverField i "address"
  | .badOptions i .zeroWeight => serverField i "weight"
  | .badOptions i .zeroTimeout => serverField i "fail_timeout_ms"
  | .noAttempts => "retry.max_attempts"
  | .baseExceedsMax => "retry.base_delay_ms"

def message : Problem → String
  | .noServers => "at least one server is required"
  | .blankName _ => "must not be empty"
  | .duplicateName _ name => "duplicate server name '" ++ name ++ "'"
  | .badAddress _ error => error.message
  | .notHttp _ => "must be an http(s) URL with a host"
  | .badOptions _ error => (PoolError.invalidOptions error).message
  | .noAttempts => "must be at least 1"
  | .baseExceedsMax => "must not exceed retry.max_delay_ms"

def text (p : Problem) : String := p.field ++ ": " ++ p.message

end Problem

/-- Whether a URL is one that requests can be sent to. -/
def Url.isHttp (u : Url) : Bool :=
  (u.scheme == "http".toList || u.scheme == "https".toList) && u.hasHost

namespace ServerConfig

/-- A name must have a character that is not blank, and no server before may have the same.
`earlier` holds the names so far that are not blank. -/
def nameProblems (index : Nat) (earlier : List String) (c : ServerConfig) : List Problem :=
  if Text.isBlank c.name then [.blankName index]
  else if earlier.contains c.name then [.duplicateName index c.name]
  else []

def addressProblems (urls : UrlParser) (index : Nat) (c : ServerConfig) : List Problem :=
  match urls.parse c.address with
  | .ok u => if u.isHttp then [] else [.notHttp index]
  | .error e => [.badAddress index e]

def optionsProblems (index : Nat) (c : ServerConfig) : List Problem :=
  match c.options.check with
  | .ok _ => []
  | .error e => [.badOptions index e]

end ServerConfig

/-- The problems of the servers from position `index` on. -/
def serverProblems (urls : UrlParser) (index : Nat) (earlier : List String) :
    List ServerConfig → List Problem
  | [] => []
  | c :: rest =>
      let known := if Text.isBlank c.name then earlier else c.name :: earlier
      c.nameProblems index earlier ++ c.addressProblems urls index ++ c.optionsProblems index
        ++ serverProblems urls (index + 1) known rest

def RetryConfig.problems (c : RetryConfig) : List Problem :=
  (if c.maxAttempts = 0 then [.noAttempts] else [])
    ++ (if c.maxDelayMs < c.baseDelayMs then [.baseExceedsMax] else [])

def PoolConfig.problems (urls : UrlParser) (c : PoolConfig) : List Problem :=
  (if c.servers.isEmpty then [.noServers] else []) ++ serverProblems urls 0 [] c.servers
    ++ c.retry.problems

end TieredPool
