import TieredPool.Backoff
import TieredPool.Binary64
import TieredPool.Config.Build
import TieredPool.Trace

/-!
# Simulation — traffic through a configured pool

A client issues requests one after the other. Chance decides how each ends, the client reports it,
and waits and tries again while nothing is available.

* `SimulationParams`, `Simulation` — what is simulated, and the state on the way.
* `Simulation.run` — all requests; `simulate` — building, running and reporting.
* `SimulationReport` — what came of it.
-/

namespace TieredPool

structure SimulationParams where
  requests : Nat := 1000
  /-- The probability that a request fails. -/
  failureRate : Binary64 := .zero
  /-- Names of servers that fail every request. -/
  broken : List String := []
  /-- The time from one request to the next. -/
  tick : Duration := .ofMillis 10
  seed : UInt64 := 42
  deriving Repr

/-- The error of a failed request. -/
def failureText (server : String) : String := "simulated request to '" ++ server ++ "' failed"

/-- What has happened to the requests so far. -/
structure Tally where
  succeeded : Nat := 0
  failed : Nat := 0
  /-- Picks for which no server was available. -/
  unavailable : Nat := 0
  /-- Requests given up after their last attempt. -/
  dropped : Nat := 0
  /-- How often each name was picked, in the order of names. -/
  picks : List (String × Nat) := []
  deriving DecidableEq, Repr

/-- Adds to the count under a name, which takes its place in the order of names. -/
def addPick (name : String) (n : Nat) : List (String × Nat) → List (String × Nat)
  | [] => [(name, n)]
  | p :: ps =>
      if p.1 = name then (name, p.2 + n) :: ps
      else if name < p.1 then (name, n) :: p :: ps
      else p :: addPick name n ps

/-- No picks for each name. -/
def noPicks (names : List String) : List (String × Nat) :=
  names.foldl (fun ps name => addPick name 0 ps) []

/-- The state of a simulation; `γ` is that of the source of chance. -/
structure Simulation (γ : Type) where
  machine : Machine Endpoint
  random : γ
  tally : Tally := {}

namespace Simulation

variable {γ β : Type}

/-- A computation on a simulation. One that halts keeps the state made so far. -/
abbrev Sim (γ β : Type) := EStateM Halt (Simulation γ) β

/-- A computation on the pool. -/
def onPool (x : Run Endpoint β) : Sim γ β := fun s =>
  match x s.machine with
  | .ok b machine => .ok b { s with machine }
  | .error why machine => .error why { s with machine }

def record (f : Tally → Tally) : Sim γ Unit := modify fun s => { s with tally := f s.tally }

/-- Draws from the source of chance. -/
def draw (f : γ → β × γ) : Sim γ β := do
  let s ← get
  let (b, random) := f s.random
  set { s with random }
  return b

/-- The handler's script is empty, so events do not nest. -/
def eventDepth : Nat := 1

/-- The request reached a server. A broken one fails it, any other by chance. -/
def finish (rng : RandomSource γ) (params : SimulationParams) (server : Server Endpoint) :
    Sim γ Unit := do
  let name := server.data.name
  record fun t => { t with picks := addPick name 1 t.picks }
  let fails ←
    if params.broken.contains name then pure true
    else draw (rng.happens params.failureRate.chance)
  if fails then
    record fun t => { t with failed := t.failed + 1 }
    onPool (Run.reportFailure (notify eventDepth) server.id (some (failureText name)))
  else
    record fun t => { t with succeeded := t.succeeded + 1 }
    onPool (Run.reportSuccess (notify eventDepth) server.id)

/-- Waits before the retry that follows attempt number `attempt`. -/
def wait (rng : RandomSource γ) (retry : RetryConfig) (attempt : Nat) : Sim γ Unit := do
  match ← draw (retry.delay rng attempt) with
  | some delay => onPool (Run.advance delay)
  | none => throw (.panic .delayOverflow)

/-- One attempt at a request; `otherwise` goes on from there if no server is available. -/
def tryOnce (rng : RandomSource γ) (params : SimulationParams)
    (otherwise : PoolError → Sim γ Unit) : Sim γ Unit := do
  match ← onPool Run.next with
  | .ok server => finish rng params server
  | .error e =>
      record fun t => { t with unavailable := t.unavailable + 1 }
      otherwise e

/-- One request from attempt number `attempt` on, with so many attempts left after this one. -/
def request (rng : RandomSource γ) (retry : RetryConfig) (params : SimulationParams)
    (attempt : Nat) : (left : Nat) → Sim γ Unit
  | 0 => tryOnce rng params fun e => do
      onPool (Run.log (.requestDropped e attempt))
      record fun t => { t with dropped := t.dropped + 1 }
  | left + 1 => tryOnce rng params fun _ => do
      wait rng retry attempt
      request rng retry params (attempt + 1) left

/-- Requests with a tick after each. -/
def run (rng : RandomSource γ) (retry : RetryConfig) (params : SimulationParams) :
    (requests : Nat) → Sim γ Unit
  | 0 => return
  | n + 1 => do
      request rng retry params 1 (retry.maxAttempts.toNat - 1)
      onPool (Run.advance params.tick)
      run rng retry params n

end Simulation

/-! ## Reports -/

/-- An availability event, with its time in milliseconds from the start. -/
structure EventRecord where
  atMs : UInt64
  server : String
  event : Event
  error : Option String
  deriving DecidableEq, Repr

structure ServerReport where
  name : String
  picks : Nat
  status : ServerStatus
  deriving DecidableEq, Repr

structure SimulationReport where
  requests : Nat
  tally : Tally
  elapsedMs : UInt64
  events : List EventRecord
  servers : List ServerReport
  deriving DecidableEq, Repr

/-- The milliseconds since the start, as far as 64 bits show them. -/
def shownMillis (start now : Instant) : UInt64 := UInt64.ofNat (now.millisSince start)

def EventRecord.ofCall (start : Instant) (c : Call Endpoint) : EventRecord where
  atMs := shownMillis start c.clock
  server := c.server.data.name
  event := c.event
  error := c.error

def picksOf (picks : List (String × Nat)) (name : String) : Nat :=
  ((picks.find? (·.1 = name)).map (·.2)).getD 0

/-- The report on a finished simulation that began at `start`. -/
def Simulation.report {γ : Type} (start : Instant) (params : SimulationParams)
    (s : Simulation γ) : SimulationReport :=
  let pool := s.machine.pool
  { requests := params.requests
    tally := s.tally
    elapsedMs := shownMillis start s.machine.clock
    events := (Trace.calls s.machine.trace.toList).map fun r => .ofCall start r.call
    servers := pool.servers.zipWith
      (fun server status =>
        { name := server.data.name, picks := picksOf s.tally.picks server.data.name, status })
      pool.snapshot }

/-- Builds the pool, installs the handler that records events, and runs all requests. -/
def simulateWith {γ : Type} (rng : RandomSource γ) (urls : UrlParser) (config : PoolConfig)
    (params : SimulationParams) : Simulation.Sim γ (Except ConfigError Unit) := do
  match ← Simulation.onPool (config.build urls) with
  | .error e => return .error e
  | .ok () =>
      let _ ← Simulation.onPool (perform (notify 0) { handle := some 0 } (.install 0 none []))
      Simulation.record fun t => { t with picks := noPicks (config.servers.map (·.name)) }
      Simulation.run rng config.retry params params.requests
      return .ok ()

/-- The report of a simulation from the instant `start`, and the trace it leaves. -/
def simulate (urls : UrlParser) (start : Instant) (config : PoolConfig) (params : SimulationParams) :
    Outcome Endpoint (Except ConfigError SimulationReport) :=
  let initial : Simulation CipherStream :=
    { machine := { clock := start }, random := .ofSeed params.seed }
  match simulateWith CipherStream.source urls config params initial with
  | .ok (.ok ()) s => { result := .ok (.ok (s.report start params)), trace := s.machine.trace.toList }
  | .ok (.error e) s => { result := .ok (.error e), trace := s.machine.trace.toList }
  | .error why s => { result := .error why, trace := s.machine.trace.toList }

end TieredPool
