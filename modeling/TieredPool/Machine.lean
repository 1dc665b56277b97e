import TieredPool.Pool
import TieredPool.Telemetry

/-!
# Machine — a pool at work

A pool runs with its clock and leaves a trace of everything it tells the outside. Operations may
raise events, events run handlers, and handlers issue operations, so a run takes fuel: the depth to
which events may nest. Running out of it is an outcome of its own, never an answer.

* `Effect` — log lines, metrics, transitions, and the entering, answers and leaving of handlers.
* `Machine` — the pool, the clock and the trace.
* `perform` — one operation; `notify` — one event; both keep what was done before a halt.
* `Machine.step`, `Machine.steps` — operations of a client, each of which may halt on its own.
-/

namespace TieredPool

variable {α β : Type}

/-! ## What can be observed -/

/-- What an operation gives back. -/
inductive Answer (α : Type) where
  | server (result : Except PoolError (Server α))
  | online (count : Nat)
  | done
  /-- The operation needs a pool handle, and the caller's has been dropped. -/
  | detached

/-- An event as the handler finds it: `pool` and `clock` are the state on entry. -/
structure Call (α : Type) where
  handler : Handler α
  event : Event
  server : Server α
  error : Option String
  pool : Pool α
  clock : Instant

/-- Whether the server was down when the handler was entered. -/
def Call.down (c : Call α) : Bool := c.pool.isDown c.server.id

inductive Effect (α : Type) where
  | log (line : LogLine)
  | metric (update : Metric)
  /-- A server changed availability, whether or not a handler hears of it. -/
  | changed (event : Event) (id : ServerId) (error : Option String)
  | entered (call : Call α)
  | answered (answer : Answer α)
  | left

/-! ## Running -/

inductive PanicReason where
  | clockOverflow
  | delayOverflow
  | handler
  deriving DecidableEq, Repr

def PanicReason.message : PanicReason → String
  | .clockOverflow => "overflow when adding duration to instant"
  | .delayOverflow => "attempt to add with overflow"
  | .handler => "handler panic"

/-- Why a run ended before its answer. -/
inductive Halt where
  | panic (reason : PanicReason)
  | outOfFuel
  deriving DecidableEq, Repr

structure Machine (α : Type) where
  pool : Pool α := {}
  clock : Instant
  trace : Array (Effect α) := #[]

instance : Inhabited (Machine α) := ⟨{ clock := ⟨0⟩ }⟩

/-- A computation on a machine. One that halts keeps the state and the trace made so far. -/
abbrev Run (α β : Type) := EStateM Halt (Machine α) β

/-- Who issues an operation: the pool handle it goes through, if that still lives, and for a
handler the server whose event is being handled. -/
structure Caller where
  handle : Option Nat := none
  subject : Option ServerId := none
  deriving DecidableEq, Repr

/-- A change of availability on its way to the handler. -/
structure Notice (α : Type) where
  event : Event
  server : Server α
  error : Option String

namespace Run

def emit (e : Effect α) : Run α Unit := modify fun m => { m with trace := m.trace.push e }

def log (line : LogLine) : Run α Unit := emit (.log line)

def metric (update : Metric) : Run α Unit := emit (.metric update)

def getPool : Run α (Pool α) := return (← get).pool

def setPool (pool : Pool α) : Run α Unit := modify fun m => { m with pool }

/-- Registers a server whose options are accepted. -/
def add (options : ServerOptions) (data : α) : Run α (Except PoolError (Server α)) := do
  match options.check with
  | .error why => return .error (.invalidOptions why)
  | .ok () =>
      let (server, pool) := (← getPool).register options data
      setPool pool
      log (.serverAdded server.id options)
      if server.tracked then metric (.serverUp server.id true)
      metric (.primaryOnline pool.primaryOnline)
      return .ok server

/-- Picks the server for one request. -/
def next : Run α (Except PoolError (Server α)) := do
  let m ← get
  match m.pool.next m.clock with
  | (some choice, pool) =>
      setPool pool
      if choice.pick.probe then log (.probing choice.pick.server.id)
      if choice.source = .backup then log (.fallingBack pool.primaryOnline)
      metric (.selection choice.pick.server.id.tier)
      return .ok choice.pick.server
  | (none, _) =>
      log .nothingAvailable
      metric .noAvailable
      return .error .noAvailableServer

/-- Records a success; one that brings the server back is told to `notify` last. -/
def reportSuccess (notify : Notice α → Run α Unit) (id : ServerId) : Run α Unit := do
  let (back, pool) := (← getPool).reportSuccess id
  setPool pool
  match back with
  | none => return
  | some server =>
      emit (.changed .up id none)
      log (.markedUp id pool.primaryOnline)
      metric (.transition .up)
      metric (.serverUp id true)
      metric (.primaryOnline pool.primaryOnline)
      notify { event := .up, server, error := none }

/-- Records a failure; one that takes the server down is told to `notify` last. -/
def reportFailure (notify : Notice α → Run α Unit) (id : ServerId) (error : Option String) :
    Run α Unit := do
  let m ← get
  let (lost, pool) := m.pool.reportFailure m.clock id
  setPool pool
  match lost with
  | none => return
  | some server =>
      emit (.changed .down id error)
      log (.markedDown id pool.primaryOnline error)
      metric (.transition .down)
      metric (.serverUp id false)
      metric (.primaryOnline pool.primaryOnline)
      notify { event := .down, server, error }

/-- Moves the clock on; it stays where it is if the target lies past its end. -/
def advance (span : Duration) : Run α Unit := do
  match (← get).clock.add? span with
  | some clock => modify fun m => { m with clock }
  | none => throw (.panic .clockOverflow)

/-- Sets the clock, which never goes back. -/
def setClock (target : Instant) : Run α Unit :=
  modify fun m => { m with clock := if m.clock < target then target else m.clock }

end Run

/-- The server that `target` means to `caller`. -/
def Caller.resolve (caller : Caller) : Target → Option ServerId
  | .subject => caller.subject
  | .server id => some id

/-- Carries out an operation for `caller`; its events go to `notify`. -/
def perform (notify : Notice α → Run α Unit) (caller : Caller) : Op α → Run α (Answer α)
  | .reportSuccess target => do
      match caller.resolve target with
      | some id => Run.reportSuccess notify id
      | none => pure ()
      return .done
  | .reportFailure target error => do
      match caller.resolve target with
      | some id => Run.reportFailure notify id error
      | none => pure ()
      return .done
  | .advance span => do
      Run.advance span
      return .done
  | .setClock target => do
      Run.setClock target
      return .done
  | .panic => throw (.panic .handler)
  | .add options data => do
      if caller.handle.isNone then return .detached
      return .server (← Run.add options data)
  | .next => do
      if caller.handle.isNone then return .detached
      return .server (← Run.next)
  | .count => do
      if caller.handle.isNone then return .detached
      return .online (← Run.getPool).primaryOnline
  | .install label only script => do
      if caller.handle.isNone then return .detached
      let pool ← Run.getPool
      Run.setPool { pool with handler := some { label, only, script, holder := caller.handle } }
      return .done
  | .clear => do
      if caller.handle.isNone then return .detached
      let pool ← Run.getPool
      Run.setPool { pool with handler := none }
      return .done

/-- Carries out a handler's script, each answer going into the trace. -/
def runScript (notify : Notice α → Run α Unit) (caller : Caller) : List (Op α) → Run α Unit
  | [] => pure ()
  | op :: rest => do
      let answer ← perform notify caller op
      Run.emit (.answered answer)
      runScript notify caller rest

/-- Hands an event to the handler installed at that moment. Its script runs to the end even if it
replaces or clears the handler meanwhile. -/
def notify (fuel : Nat) (notice : Notice α) : Run α Unit := do
  let m ← get
  match m.pool.handler with
  | none => return
  | some handler =>
      match fuel with
      | 0 => throw .outOfFuel
      | fuel + 1 =>
          Run.emit (.entered { handler, event := notice.event, server := notice.server,
                               error := notice.error, pool := m.pool, clock := m.clock })
          if handler.reactsTo notice.event then
            runScript (notify fuel)
              { handle := handler.holder, subject := some notice.server.id } handler.script
          Run.emit .left

/-- The result of a run together with its trace. -/
structure Outcome (α β : Type) where
  result : Except Halt β
  trace : List (Effect α) := []

namespace Machine

/-- Runs a computation to its answer or its halt. -/
def exec (x : Run α β) (m : Machine α) : Except Halt β × Machine α :=
  match x m with
  | .ok answer m => (.ok answer, m)
  | .error why m => (.error why, m)

/-- One operation of a client. -/
def step (fuel : Nat) (caller : Caller) (op : Op α) (m : Machine α) :
    Except Halt (Answer α) × Machine α :=
  m.exec (perform (notify fuel) caller op)

/-- Operations of a client in order. A halt ends its own operation only. -/
def steps (fuel : Nat) (caller : Caller) : List (Op α) → Machine α →
    List (Except Halt (Answer α)) × Machine α
  | [], m => ([], m)
  | op :: rest, m =>
      let (answer, m) := m.step fuel caller op
      let (answers, m) := m.steps fuel caller rest
      (answer :: answers, m)

end Machine

end TieredPool
