import TieredPool.Config.Decode

/-!
# Encode — configurations and options as documents

* `PoolConfig.toDocument`, `ServerOptions.toDocument` — tables with every field, in the order of
  declaration.
-/

namespace TieredPool

open Document (nat)

def Duration.toDocument (d : Duration) : Document :=
  .table [("secs", nat d.seconds), ("nanos", nat d.subsecNanos)]

def ServerOptions.toDocument (o : ServerOptions) : Document :=
  .table [
    ("weight", nat o.weight.toNat),
    ("max_fails", nat o.maxFails.toNat),
    ("fail_timeout", o.failTimeout.toDocument),
    ("is_backup", .bool o.isBackup)]

def ServerConfig.toDocument (c : ServerConfig) : Document :=
  .table [
    ("name", .text c.name),
    ("address", .text c.address),
    ("weight", nat c.weight.toNat),
    ("max_fails", nat c.maxFails.toNat),
    ("fail_timeout_ms", nat c.failTimeoutMs.toNat),
    ("backup", .bool c.backup)]

def RetryConfig.toDocument (c : RetryConfig) : Document :=
  .table [
    ("max_attempts", nat c.maxAttempts.toNat),
    ("base_delay_ms", nat c.baseDelayMs.toNat),
    ("max_delay_ms", nat c.maxDelayMs.toNat)]

def LogConfig.toDocument (c : LogConfig) : Document := .table [("log_level", .text c.logLevel)]

def PoolConfig.toDocument (c : PoolConfig) : Document :=
  .table [
    ("servers", .list (c.servers.map ServerConfig.toDocument)),
    ("retry", c.retry.toDocument),
    ("observability", c.observability.toDocument)]

end TieredPool
