import TieredPool.Trace

/-!
# Session — several pools under one clock, reached through handles

A pool lives as long as one of its handles does. A server that was registered can still be asked
after its pool is gone: it is never down and reports on it are ignored.

* `Session` — the clock, the pools, the handles and the servers registered so far.
* `Session.through`, `Session.report` — operations through a handle, or on a registered server.
* `Session.clone`, `Session.openPool`, `Session.drop` — the life of handles.
-/

namespace TieredPool

variable {α β : Type}

/-- A session cannot carry out a request. -/
inductive SessionError where
  /-- The handle does not exist or has been dropped. -/
  | dropped
  | noSuchServer
  deriving DecidableEq, Repr

/-- A registered server and the position of its pool. -/
structure Registration (α : Type) where
  pool : Nat
  server : Server α

structure Session (α : Type) where
  clock : Instant
  pools : List (Pool α) := [{}]
  /-- The pool that each handle leads to; none once the handle has been dropped. -/
  handles : List (Option Nat) := [some 0]
  servers : List (Registration α) := []

namespace Session

/-- The position of the pool behind a handle that lives. -/
def poolAt? (s : Session α) (handle : Nat) : Option Nat := (s.handles[handle]?).join

def pool? (s : Session α) (handle : Nat) : Option (Pool α) :=
  (s.poolAt? handle).bind (s.pools[·]?)

/-- Whether a handle still leads to the pool at position `i`. -/
def alive (s : Session α) (i : Nat) : Bool := s.handles.any (· = some i)

/-! ## Operations -/

/-- Runs a computation on the pool at position `i` under the session's clock. -/
def runAt (i : Nat) (x : Run α β) (s : Session α) : Outcome α β × Session α :=
  let (result, m) := Machine.exec x { pool := s.pools.getD i {}, clock := s.clock }
  ({ result, trace := m.trace.toList },
    { s with pools := s.pools.set i m.pool, clock := m.clock })

/-- Operations issued one after the other, up to the first that halts. -/
def performAll (fuel : Nat) (caller : Caller) : List (Op α) → Run α (List (Answer α))
  | [] => return []
  | op :: rest => do
      let answer ← perform (notify fuel) caller op
      return answer :: (← performAll fuel caller rest)

/-- Operations issued through a handle. -/
def through (fuel handle : Nat) (ops : List (Op α)) (s : Session α) :
    Except SessionError (Outcome α (List (Answer α))) × Session α :=
  match s.poolAt? handle with
  | none => (.error .dropped, s)
  | some i =>
      let (outcome, s) := s.runAt i (performAll fuel { handle := some handle } ops)
      (.ok outcome, s)

/-- Registers a server through a handle; one that is accepted can be reported on from then on. -/
def add (handle : Nat) (options : ServerOptions) (data : α) (s : Session α) :
    Except SessionError (Outcome α (Except PoolError (Server α))) × Session α :=
  match s.poolAt? handle with
  | none => (.error .dropped, s)
  | some i =>
      match s.runAt i (Run.add options data) with
      | ({ result := .ok (.ok server), trace }, s) =>
          (.ok { result := .ok (.ok server), trace },
            { s with servers := s.servers ++ [{ pool := i, server }] })
      | (outcome, s) => (.ok outcome, s)

/-- Reports about a registered server, through no handle. They are lost on a pool that is gone. -/
def report (fuel server : Nat) (ops : List (Op α)) (s : Session α) :
    Except SessionError (Outcome α (List (Answer α))) × Session α :=
  match s.servers[server]? with
  | none => (.error .noSuchServer, s)
  | some r =>
      if s.alive r.pool then
        let (outcome, s) := s.runAt r.pool (performAll fuel { subject := some r.server.id } ops)
        (.ok outcome, s)
      else (.ok { result := .ok [] }, s)

def isDown (server : Nat) (s : Session α) : Except SessionError Bool :=
  match s.servers[server]? with
  | none => .error .noSuchServer
  | some r => .ok (s.alive r.pool && (s.pools[r.pool]?).any (Pool.isDown r.server.id))

/-- Moves the clock of all pools on. -/
def advance (span : Duration) (s : Session α) : Except Halt Unit × Session α :=
  match s.clock.add? span with
  | some clock => (.ok (), { s with clock })
  | none => (.error (.panic .clockOverflow), s)

/-- Sets the clock of all pools, which never goes back. -/
def setClock (target : Instant) (s : Session α) : Session α :=
  if s.clock < target then { s with clock := target } else s

/-! ## Handles -/

/-- A further handle to the same pool. -/
def clone (handle : Nat) (s : Session α) : Except SessionError Nat × Session α :=
  match s.poolAt? handle with
  | none => (.error .dropped, s)
  | some i => (.ok s.handles.length, { s with handles := s.handles ++ [some i] })

/-- A handle to a pool of its own. -/
def openPool (s : Session α) : Nat × Session α :=
  (s.handles.length,
    { s with pools := s.pools ++ [{}], handles := s.handles ++ [some s.pools.length] })

/-- The handler of a pool loses `handle` if its script works through it. -/
def detach (handle : Nat) (p : Pool α) : Pool α :=
  { p with handler := p.handler.map fun h =>
      if h.holder = some handle then { h with holder := none } else h }

def drop (handle : Nat) (s : Session α) : Except SessionError Unit × Session α :=
  match s.poolAt? handle with
  | none => (.error .dropped, s)
  | some i =>
      (.ok (),
        { s with handles := s.handles.set handle none, pools := s.pools.modify i (detach handle) })

end Session

end TieredPool
