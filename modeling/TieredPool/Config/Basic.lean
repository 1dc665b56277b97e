import TieredPool.Server

/-!
# Basic — what a configuration says

* `PoolConfig` — the servers, the retry settings and the log level.
* `ServerConfig.options` — the options under which a configured server is registered.
-/

namespace TieredPool

/-- One server of a pool. All but the name and the address have defaults. -/
structure ServerConfig where
  name : String
  address : String
  weight : UInt32 := 1
  maxFails : UInt32 := 1
  failTimeoutMs : UInt64 := 10000
  backup : Bool := false
  deriving DecidableEq, Repr

def ServerConfig.options (c : ServerConfig) : ServerOptions where
  weight := c.weight
  maxFails := c.maxFails
  failTimeout := .ofMillis c.failTimeoutMs
  isBackup := c.backup

/-- How often and how long a client tries while no server is available. -/
structure RetryConfig where
  maxAttempts : UInt32 := 3
  baseDelayMs : UInt64 := 100
  maxDelayMs : UInt64 := 2000
  deriving DecidableEq, Repr

structure LogConfig where
  logLevel : String := "info"
  deriving DecidableEq, Repr

structure PoolConfig where
  servers : List ServerConfig := []
  retry : RetryConfig := {}
  observability : LogConfig := {}
  deriving DecidableEq, Repr

end TieredPool
