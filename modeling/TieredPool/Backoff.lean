import TieredPool.Config.Basic
import TieredPool.Random

/-!
# Backoff — how long to wait before a retry

* `retryDelay` — an exponential delay, capped, with up to a tenth of jitter on top.
* `RetryConfig.delay` — the delay under configured limits.
-/

namespace TieredPool

/-- The largest 64-bit number of milliseconds. -/
def maxMillis : Nat := UInt64.size - 1

/-- `2^k`, or the largest number there is. -/
def doublings (k : Nat) : Nat := if k < 64 then 1 <<< k else maxMillis

/-- The delay before retry number `attempt`, before jitter: it doubles from `base` at the first
retry and stays at most `cap`. Each step stops at the largest number there is. -/
def cappedDelay (attempt : Nat) (base cap : UInt64) : Nat :=
  min (min (base.toNat * doublings (attempt - 1)) maxMillis) cap.toNat

/-- The delay before retry number `attempt`. There is none before the first try, attempt zero.
Jitter is drawn if a tenth of the delay is a millisecond at least. The sum may not fit in 64 bits;
then there is no delay, though the draw has been made. -/
def retryDelay {γ : Type} (rng : RandomSource γ) (attempt : Nat) (base cap : UInt64) (g : γ) :
    Option Duration × γ :=
  if attempt = 0 then (some .zero, g)
  else
    let capped := cappedDelay attempt base cap
    let (jitter, g) := if 0 < capped / 10 then rng.below (capped / 10) g else (0, g)
    if capped + jitter ≤ maxMillis then (some (.ofMillis (UInt64.ofNat (capped + jitter))), g)
    else (none, g)

def RetryConfig.delay {γ : Type} (c : RetryConfig) (rng : RandomSource γ) (attempt : Nat) (g : γ) :
    Option Duration × γ :=
  retryDelay rng attempt c.baseDelayMs c.maxDelayMs g

end TieredPool
