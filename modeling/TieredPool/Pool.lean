import TieredPool.Group

/-!
# Pool — two tiers of servers and who watches them

* `Op`, `Handler` — what clients may ask of a pool, and what a handler does on an event. A handler
  is a script of the same operations, so it may use the pool that called it.
* `Pool` — the two groups, the count of primaries that are up and the installed handler.
* `Pool.register`, `Pool.next`, `Pool.reportSuccess`, `Pool.reportFailure` — the changes of state,
  without what they tell the outside (`TieredPool.Machine`).
* `Pool.snapshot` — the status of every server.
-/

namespace TieredPool

variable {α : Type}

/-! ## Operations and handlers -/

/-- The server that a report is about. -/
inductive Target where
  /-- The one whose event is being handled. -/
  | subject
  | server (id : ServerId)
  deriving DecidableEq, Repr

/-- An operation on a pool and its clock, issued by a client or by a handler. -/
inductive Op (α : Type) where
  | add (options : ServerOptions) (data : α)
  | next
  | reportSuccess (target : Target)
  | reportFailure (target : Target) (error : Option String)
  | count
  /-- Installs a handler, named by `label`, that runs `script` on events (of the kind `only`). -/
  | install (label : Nat) (only : Option Event) (script : List (Op α))
  | clear
  | advance (span : Duration)
  | setClock (target : Instant)
  | panic
  deriving Repr

/-- An installed handler. `holder` is the pool handle that its script works through; there is none
once that handle has been dropped. -/
structure Handler (α : Type) where
  label : Nat
  only : Option Event
  script : List (Op α)
  holder : Option Nat
  deriving Repr

/-- Whether the script runs on `event`. -/
def Handler.reactsTo (event : Event) (h : Handler α) : Bool :=
  h.only.all (· = event)

/-! ## Pools -/

structure Pool (α : Type) where
  primary : Group α := {}
  backup : Group α := {}
  /-- The number of primaries that are not down. -/
  primaryOnline : Nat := 0
  handler : Option (Handler α) := none
  deriving Repr

instance : Inhabited (Pool α) := ⟨{}⟩

/-- The status of one server. `lastPicked` holds for the latest pick of its tier. -/
structure ServerStatus where
  id : ServerId
  weight : UInt32
  isBackup : Bool
  isDown : Bool
  failCounter : Nat
  lastPicked : Bool
  deriving DecidableEq, Repr

namespace Pool

def group (tier : Tier) (p : Pool α) : Group α :=
  match tier with
  | .primary => p.primary
  | .backup => p.backup

def setGroup (tier : Tier) (g : Group α) (p : Pool α) : Pool α :=
  match tier with
  | .primary => { p with primary := g }
  | .backup => { p with backup := g }

def slot? (id : ServerId) (p : Pool α) : Option (Slot α) := (p.group id.tier).slots[id.index]?

def setSlot (id : ServerId) (s : Slot α) (p : Pool α) : Pool α :=
  let g := p.group id.tier
  p.setGroup id.tier { g with slots := g.slots.set id.index s }

def isDown (id : ServerId) (p : Pool α) : Bool := (p.slot? id).any Slot.isDown

def size (p : Pool α) : Nat := p.primary.size + p.backup.size

/-- All slots, primaries first, in the order of registration. -/
def slots (p : Pool α) : List (Slot α) := p.primary.slots ++ p.backup.slots

def servers (p : Pool α) : List (Server α) := p.slots.map Slot.server

def statuses (g : Group α) : List ServerStatus :=
  g.slots.mapIdx fun i s =>
    { id := s.server.id, weight := s.server.options.weight, isBackup := s.server.options.isBackup,
      isDown := s.isDown, failCounter := s.health.failCounter, lastPicked := g.cursor = some i }

def snapshot (p : Pool α) : List ServerStatus := statuses p.primary ++ statuses p.backup

/-! ## Changes of state -/

/-- Puts a server at the end of its tier. A primary starts up. -/
def register (options : ServerOptions) (data : α) (p : Pool α) : Server α × Pool α :=
  let tier := options.tier
  let g := p.group tier
  let server : Server α := { id := { tier, index := g.size }, options, data }
  let p := p.setGroup tier (g.push server)
  (server,
    if tier = .primary then { p with primaryOnline := p.primaryOnline + 1 } else p)

/-- A server handed out, with the tier whose rotation it came from. -/
structure Choice (α : Type) where
  pick : Group.Pick α
  source : Tier

/-- Picks a primary if one can be picked, else a backup. While a primary is up the primaries are
not searched for one that can be picked. -/
def next (now : Instant) (p : Pool α) : Option (Choice α) × Pool α :=
  let attempt :=
    if 0 < p.primaryOnline || p.primary.anySelectable now then p.primary.select now
    else (none, p.primary)
  match attempt with
  | (some pick, g) => (some { pick, source := .primary }, { p with primary := g })
  | (none, _) =>
      match p.backup.select now with
      | (some pick, g) => (some { pick, source := .backup }, { p with backup := g })
      | (none, _) => (none, p)

/-- A request to the server succeeded. Gives the server if this brought it back. -/
def reportSuccess (id : ServerId) (p : Pool α) : Option (Server α) × Pool α :=
  match p.slot? id with
  | none => (none, p)
  | some s =>
      let (s, transition) := s.recordSuccess
      let p := p.setSlot id s
      if transition = .up then (some s.server, { p with primaryOnline := p.primaryOnline + 1 })
      else (none, p)

/-- A request to the server failed at `now`. Gives the server if this took it down. -/
def reportFailure (now : Instant) (id : ServerId) (p : Pool α) : Option (Server α) × Pool α :=
  match p.slot? id with
  | none => (none, p)
  | some s =>
      let (s, transition) := s.recordFailure now
      let p := p.setSlot id s
      if transition = .down then (some s.server, { p with primaryOnline := p.primaryOnline - 1 })
      else (none, p)

end Pool

end TieredPool
