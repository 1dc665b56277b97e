import TieredPool.Time

/-!
# Health — passive health of one server

Outcomes of requests drive a small machine. Failures are counted in windows; a window that
collects the threshold takes the server down, one success brings it back.

* `Policy` — the failure threshold and the timeout of a server.
* `Health` — the failures counted and the one timer that may be armed.
* `Health.recordSuccess`, `Health.recordFailure`, `Health.beginProbe` — the transitions.
* `Health.selectable` — whether a request may be sent at a given instant.
-/

namespace TieredPool

/-- The failures that take a server down, and the length of a failure window and of the time
that a server is left alone after it went down. -/
structure Policy where
  maxFails : Nat
  failTimeout : Duration
  deriving DecidableEq, Repr

namespace Policy

/-- A threshold of zero turns health tracking off. -/
def tracking (p : Policy) : Bool := 0 < p.maxFails

/-- A century of 365-day years: the wait when the timeout itself runs past the clock's end. -/
def farFuture : Duration := .ofSeconds (100 * 365 * 24 * 60 * 60)

/-- The instant one timeout after `now`, or as near to it as the clock can show. -/
def deadline (p : Policy) (now : Instant) : Instant :=
  match now.add? p.failTimeout with
  | some t => t
  | none => (now.add? farFuture).getD now

end Policy

/-- The timer of a server: at most one is armed, and it carries its purpose. -/
inductive Timer where
  | idle
  /-- A failure after this instant opens a new window. -/
  | windowExpiry (expiry : Instant)
  /-- The server is down; a request may probe it from this instant on. -/
  | recoveryDeadline (deadline : Instant)
  deriving DecidableEq, Repr, Inhabited

/-- What an outcome did to the availability of its server. -/
inductive Transition where
  | none
  | up
  | down
  deriving DecidableEq, Repr

structure Health where
  failCounter : Nat := 0
  timer : Timer := .idle
  deriving DecidableEq, Repr, Inhabited

namespace Health

def isDown (h : Health) : Bool :=
  match h.timer with
  | .recoveryDeadline _ => true
  | _ => false

/-- A server that is up may always be picked, one that is down from its deadline on. -/
def selectable (now : Instant) (h : Health) : Bool :=
  match h.timer with
  | .recoveryDeadline deadline => deadline ≤ now
  | _ => true

/-! ## Transitions -/

/-- A request succeeded: all failures are forgotten. -/
def recordSuccess (p : Policy) (h : Health) : Health × Transition :=
  if p.tracking then ({}, if h.isDown then .up else .none) else (h, .none)

/-- The failures and the timer once a failure at `now` has been counted. It joins the open window
unless that has expired; otherwise it opens a window of its own. -/
def countFailure (p : Policy) (now : Instant) (h : Health) : Health :=
  match h.failCounter, h.timer with
  | 0, _ => { failCounter := 1, timer := .windowExpiry (p.deadline now) }
  | n + 1, .windowExpiry expiry =>
      if expiry < now then { failCounter := 1, timer := .windowExpiry (p.deadline now) }
      else { h with failCounter := n + 2 }
  | n + 1, _ => { h with failCounter := n + 2 }

/-- A request failed at `now`. Failures of a server that is down change nothing. -/
def recordFailure (p : Policy) (now : Instant) (h : Health) : Health × Transition :=
  if !p.tracking || h.isDown || p.maxFails ≤ h.failCounter then (h, .none)
  else
    let counted := h.countFailure p now
    if counted.failCounter = p.maxFails then
      ({ counted with timer := .recoveryDeadline (p.deadline now) }, .down)
    else (counted, .none)

/-- A server that is down was picked at `now`. If its deadline has come, the next one is a whole
timeout away; the server stays down until a success is recorded. -/
def beginProbe (p : Policy) (now : Instant) (h : Health) : Health :=
  match h.timer with
  | .recoveryDeadline deadline =>
      if deadline ≤ now then { h with timer := .recoveryDeadline (p.deadline now) } else h
  | _ => h

end Health

end TieredPool
