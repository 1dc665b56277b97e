import TieredPool.Server

/-!
# Group — smooth weighted round robin over one tier

Each pick raises the credit of every selectable server by its weight, hands out the first server
of highest credit and takes the total selectable weight off that server's credit. Weights 3 and 1
give A A B A, never A A A B.

* `Slot` — a server with its health and its credit.
* `Group` — the slots of a tier in order, and the position last picked.
* `Group.select` — one pick.
-/

namespace TieredPool

variable {α : Type}

/-! ## Slots -/

structure Slot (α : Type) where
  server : Server α
  health : Health := {}
  credit : Int := 0
  deriving Repr

namespace Slot

def weight (s : Slot α) : Nat := s.server.options.effectiveWeight

def policy (s : Slot α) : Policy := s.server.options.policy

def isDown (s : Slot α) : Bool := s.health.isDown

def selectable (now : Instant) (s : Slot α) : Bool := s.health.selectable now

/-- A server that comes back starts without the credit of the time before its outage. -/
def recordSuccess (s : Slot α) : Slot α × Transition :=
  let (health, transition) := s.health.recordSuccess s.policy
  ({ s with health, credit := if transition = .up then 0 else s.credit }, transition)

def recordFailure (now : Instant) (s : Slot α) : Slot α × Transition :=
  let (health, transition) := s.health.recordFailure s.policy now
  ({ s with health }, transition)

/-- A selectable slot earns its weight at each pick. -/
def accrue (now : Instant) (s : Slot α) : Slot α :=
  if s.selectable now then { s with credit := s.credit + s.weight } else s

/-- The picked slot pays `total`; if it is down, this pick is its probe. -/
def handOut (now : Instant) (total : Nat) (s : Slot α) : Slot α :=
  { s with credit := s.credit - total, health := s.health.beginProbe s.policy now }

end Slot

/-! ## Groups -/

structure Group (α : Type) where
  slots : List (Slot α) := []
  cursor : Option Nat := none
  deriving Repr

instance : Inhabited (Group α) := ⟨{}⟩

namespace Group

def size (g : Group α) : Nat := g.slots.length

def push (server : Server α) (g : Group α) : Group α :=
  { g with slots := g.slots ++ [{ server }] }

def anySelectable (now : Instant) (g : Group α) : Bool := g.slots.any (·.selectable now)

/-- The weight of all slots that can be picked at `now`. -/
def selectableWeight (now : Instant) : List (Slot α) → Nat
  | [] => 0
  | s :: rest => (if s.selectable now then s.weight else 0) + selectableWeight now rest

/-- Position and slot of the first selectable slot that no selectable slot exceeds in credit. -/
def leader? (now : Instant) : List (Slot α) → Option (Nat × Slot α)
  | [] => none
  | s :: rest =>
      match leader? now rest with
      | none => if s.selectable now then some (0, s) else none
      | some (i, best) =>
          if s.selectable now && best.credit ≤ s.credit then some (0, s) else some (i + 1, best)

/-- The result of a pick: the server, and whether it was down and is being probed. -/
structure Pick (α : Type) where
  server : Server α
  probe : Bool

/-- Picks a server for a request at `now`, if one is selectable. -/
def select (now : Instant) (g : Group α) : Option (Pick α) × Group α :=
  let accrued := g.slots.map (·.accrue now)
  match leader? now accrued with
  | none => (none, g)
  | some (i, winner) =>
      (some { server := winner.server, probe := winner.isDown },
        { slots := accrued.set i (winner.handOut now (selectableWeight now g.slots)),
          cursor := some i })

end Group

end TieredPool
