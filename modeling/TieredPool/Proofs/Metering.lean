import TieredPool.Simulation
import TieredPool.Proofs.Shift

/-!
# Metering — the sums that a simulation computes

A simulation adds durations to instants when it waits, and when a failure or a probe sets the deadline
of a server. Metered, it is the same computation with an account of these sums.

* `Metered` — a computation on a simulation, together with the sums that it computes.
* `Metered.free`, `Metered.carry` — what computes no sums; one operation on the pool.
* `Metered.simulateWith` — a whole simulation; `simulationSums` — its sums from a given start.
* `Metered.act_simulateWith` — metering changes nothing.
-/

namespace TieredPool

variable {β γ δ : Type}

open Simulation (Sim onPool record draw eventDepth)

/-! ## Metered computations -/

/-- A computation on a simulation, and the sums of an instant and a duration that it computes from a
given state on. -/
structure Metered (γ β : Type) where
  act : Sim γ β
  sums : Simulation γ → List (Instant × Duration)

namespace Metered

/-- A computation that adds nothing to an instant. -/
def free (act : Sim γ β) : Metered γ β := { act, sums := fun _ => [] }

/-- What `x` does on the pool is the operation `r`, with its sums and those of all that it leads to. -/
def carry (r : Request Endpoint) (x : Run Endpoint β) : Metered γ β where
  act := onPool x
  sums s :=
    (s.machine.state.trail (s.machine.state.unroll eventDepth r).done).flatMap Step.sums

protected def bind (x : Metered γ β) (f : β → Metered γ δ) : Metered γ δ where
  act := x.act >>= fun b => (f b).act
  sums s := x.sums s ++ match x.act s with
    | .ok b s' => (f b).sums s'
    -- What comes after a halt is not computed.
    | .error _ _ => []

instance : Monad (Metered γ) where
  pure b := free (pure b)
  bind := Metered.bind

@[simp] theorem act_free (x : Sim γ β) : (free x).act = x := rfl

@[simp] theorem act_carry (r : Request Endpoint) (x : Run Endpoint β) :
    (carry r x : Metered γ β).act = onPool x := rfl

@[simp] theorem act_pure (b : β) : (pure b : Metered γ β).act = pure b := rfl

@[simp] theorem act_bind (x : Metered γ β) (f : β → Metered γ δ) :
    (x >>= f).act = x.act >>= fun b => (f b).act := rfl

theorem act_bind_apply (x : Metered γ β) (f : β → Metered γ δ) (s : Simulation γ) :
    (x >>= f).act s = match x.act s with
      | .ok b s' => (f b).act s'
      | .error why s' => .error why s' := by
  rw [act_bind]
  simp only [Bind.bind, EStateM.bind]
  cases x.act s <;> rfl

@[simp] theorem act_ite (c : Prop) [Decidable c] (x y : Metered γ β) :
    (if c then x else y).act = if c then x.act else y.act := apply_ite act c x y

/-! ## A metered simulation -/

section Programs

variable (rng : RandomSource γ) (retry : RetryConfig) (params : SimulationParams)

def finish (server : Server Endpoint) : Metered γ Unit := do
  let name := server.data.name
  free (record fun t => { t with picks := addPick name 1 t.picks })
  let fails ←
    if params.broken.contains name then pure true
    else free (draw (rng.happens params.failureRate.chance))
  if fails then
    free (record fun t => { t with failed := t.failed + 1 })
    carry { caller := {}, op := .reportFailure (.server server.id) (some (failureText name)) }
      (Run.reportFailure (notify eventDepth) server.id (some (failureText name)))
  else
    free (record fun t => { t with succeeded := t.succeeded + 1 })
    carry { caller := {}, op := .reportSuccess (.server server.id) }
      (Run.reportSuccess (notify eventDepth) server.id)

def advance (span : Duration) : Metered γ Unit :=
  carry { caller := {}, op := .advance span } (Run.advance span)

def wait (attempt : Nat) : Metered γ Unit := do
  match ← free (draw (retry.delay rng attempt)) with
  | some delay => advance delay
  | none => free (throw (.panic .delayOverflow))

def tryOnce (otherwise : PoolError → Metered γ Unit) : Metered γ Unit := do
  match ← carry { caller := { handle := some 0 }, op := .next } Run.next with
  | .ok server => finish rng params server
  | .error e =>
      free (record fun t => { t with unavailable := t.unavailable + 1 })
      otherwise e

def request (attempt : Nat) : (left : Nat) → Metered γ Unit
  | 0 => tryOnce rng params fun e => do
      free (onPool (Run.log (.requestDropped e attempt)))
      free (record fun t => { t with dropped := t.dropped + 1 })
  | left + 1 => tryOnce rng params fun _ => do
      wait rng retry attempt
      request (attempt + 1) left

def run : (requests : Nat) → Metered γ Unit
  | 0 => return
  | n + 1 => do
      request rng retry params 1 (retry.maxAttempts.toNat - 1)
      advance params.tick
      run n

def simulateWith (urls : UrlParser) (config : PoolConfig) : Metered γ (Except ConfigError Unit) := do
  match ← free (onPool (config.build urls)) with
  | .error e => return .error e
  | .ok () =>
      let _ ← free (onPool (perform (notify 0) { handle := some 0 } (.install 0 none [])))
      free (record fun t => { t with picks := noPicks (config.servers.map (·.name)) })
      run rng config.retry params params.requests
      return .ok ()

end Programs

/-! ## Metering changes nothing -/

section Erasure

variable (rng : RandomSource γ) (retry : RetryConfig) (params : SimulationParams)

theorem act_finish (server : Server Endpoint) :
    (finish rng params server).act = Simulation.finish rng params server := by
  simp [finish, Simulation.finish]

theorem act_wait (attempt : Nat) : (wait rng retry attempt).act = Simulation.wait rng retry attempt := by
  simp only [wait, Simulation.wait, act_bind, act_free]
  refine bind_congr fun delay => ?_
  cases delay <;> rfl

theorem act_tryOnce {otherwise : PoolError → Metered γ Unit} {otherwise' : PoolError → Sim γ Unit}
    (h : ∀ e, (otherwise e).act = otherwise' e) :
    (tryOnce rng params otherwise).act = Simulation.tryOnce rng params otherwise' := by
  simp only [tryOnce, Simulation.tryOnce, act_bind, act_carry]
  refine bind_congr fun result => ?_
  cases result with
  | ok server => exact act_finish rng params server
  | error e => simp [h]

theorem act_request (attempt left : Nat) :
    (request rng retry params attempt left).act = Simulation.request rng retry params attempt left := by
  induction left generalizing attempt with
  | zero => exact act_tryOnce rng params fun e => rfl
  | succ left ih => exact act_tryOnce rng params fun e => by rw [act_bind, act_wait, ih]

theorem act_run (requests : Nat) :
    (run rng retry params requests).act = Simulation.run rng retry params requests := by
  induction requests with
  | zero => rfl
  | succ n ih => simp [run, Simulation.run, advance, act_request, ih]

theorem act_simulateWith (urls : UrlParser) (config : PoolConfig) :
    (simulateWith rng params urls config).act = TieredPool.simulateWith rng urls config params := by
  simp only [simulateWith, TieredPool.simulateWith, act_bind, act_free]
  refine bind_congr fun built => ?_
  cases built with
  | error e => rfl
  | ok _ => simp [act_run]

end Erasure

end Metered

/-- The sums of an instant and a duration that a simulation computes from the instant `start` on. -/
def simulationSums (urls : UrlParser) (start : Instant) (config : PoolConfig)
    (params : SimulationParams) : List (Instant × Duration) :=
  (Metered.simulateWith CipherStream.source params urls config).sums
    { machine := { clock := start }, random := .ofSeed params.seed }

end TieredPool
