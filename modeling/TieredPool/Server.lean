import TieredPool.Health

/-!
# Server — what is registered with a pool

* `Tier`, `ServerId` — the group of a server and its position there.
* `ServerOptions` — the weight, the health settings and the tier of a server.
* `ServerOptions.check` — the options a pool accepts.
* `Server` — the options together with the data that a client attaches.
* `describe` functions — the one-line texts of options and servers.
-/

namespace TieredPool

/-- Backups are picked only while no primary can be. -/
inductive Tier where
  | primary
  | backup
  deriving DecidableEq, Repr

def Tier.text : Tier → String
  | .primary => "primary"
  | .backup => "backup"

/-- A server's tier and its position there, in the order of registration. -/
structure ServerId where
  tier : Tier
  index : Nat
  deriving DecidableEq, Repr

def ServerId.text (id : ServerId) : String := id.tier.text ++ "#" ++ toString id.index

/-- A server went down or came back. -/
inductive Event where
  | up
  | down
  deriving DecidableEq, Repr

def Event.text : Event → String
  | .up => "up"
  | .down => "down"

/-! ## Options -/

structure ServerOptions where
  weight : UInt32 := 1
  maxFails : UInt32 := 1
  failTimeout : Duration := .ofSeconds 10
  isBackup : Bool := false
  deriving DecidableEq, Repr, Inhabited

/-- Why options are refused. -/
inductive OptionsError where
  | zeroWeight
  | zeroTimeout
  deriving DecidableEq, Repr

def OptionsError.reason : OptionsError → String
  | .zeroWeight => "weight must be at least 1 unless max_fails is 0"
  | .zeroTimeout => "fail_timeout must be positive when max_fails is set"

/-- Why a pool has no server to give. -/
inductive PoolError where
  | invalidOptions (why : OptionsError)
  | noAvailableServer
  deriving DecidableEq, Repr

def PoolError.message : PoolError → String
  | .invalidOptions why => "Invalid server options: " ++ why.reason
  | .noAvailableServer => "No available server"

namespace ServerOptions

def primary (weight : UInt32) : ServerOptions := { weight }

def backup (weight : UInt32) : ServerOptions := { weight, isBackup := true }

def tier (o : ServerOptions) : Tier := if o.isBackup then .backup else .primary

/-- The health of a backup is never tracked. -/
def policy (o : ServerOptions) : Policy where
  maxFails := if o.isBackup then 0 else o.maxFails.toNat
  failTimeout := o.failTimeout

/-- The share of a server in the rotation; a weight of zero counts as one. -/
def effectiveWeight (o : ServerOptions) : Nat := max o.weight.toNat 1

/-- Accepts the options with a weight, unless failures do not count, and with a timeout wherever
health is tracked. The weight is looked at first. -/
def check (o : ServerOptions) : Except OptionsError Unit :=
  if o.weight = 0 ∧ 0 < o.maxFails then .error .zeroWeight
  else if 0 < o.maxFails ∧ o.isBackup = false ∧ o.failTimeout.isZero then .error .zeroTimeout
  else .ok ()

def describe (o : ServerOptions) : String :=
  "ServerOptions \x7b weight: " ++ toString o.weight ++ ", max_fails: " ++ toString o.maxFails
    ++ ", fail_timeout: " ++ o.failTimeout.text
    ++ ", is_backup: " ++ (if o.isBackup then "true" else "false") ++ " \x7d"

end ServerOptions

/-! ## Registered servers -/

/-- A registered server, with the data `α` of its client. -/
structure Server (α : Type) where
  id : ServerId
  options : ServerOptions
  data : α
  deriving Repr

namespace Server

variable {α : Type}

/-- Whether reported outcomes can change the state of this server. -/
def tracked (s : Server α) : Bool := s.options.policy.tracking

/-- The text of a server, given the text of its data. -/
def describe (dataText : α → String) (s : Server α) : String :=
  "Server \x7b id: ServerId \x7b tier: "
    ++ (match s.id.tier with | .primary => "Primary" | .backup => "Backup")
    ++ ", index: " ++ toString s.id.index ++ " \x7d, options: " ++ s.options.describe
    ++ ", user_data: " ++ dataText s.data ++ " \x7d"

end Server

end TieredPool
