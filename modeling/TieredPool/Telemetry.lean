import TieredPool.Server

/-!
# Telemetry — log lines and metrics

What a pool tells its surroundings is typed by what happened; the texts are functions of it.

* `LogLine` — an occurrence worth a line, with `level`, `message` and `fields`.
* `Metric` — one update of a counter or a gauge, with `series` and `value`.
-/

namespace TieredPool

inductive LogLevel where
  | debug
  | info
  | warn
  deriving DecidableEq, Repr

def LogLevel.text : LogLevel → String
  | .debug => "debug"
  | .info => "info"
  | .warn => "warn"

/-! ## Log lines -/

inductive LogLine where
  | serverAdded (id : ServerId) (options : ServerOptions)
  | probing (id : ServerId)
  | fallingBack (primaryOnline : Nat)
  | nothingAvailable
  | markedUp (id : ServerId) (primaryOnline : Nat)
  | markedDown (id : ServerId) (primaryOnline : Nat) (error : Option String)
  | poolBuilt (servers primaryOnline : Nat)
  | requestDropped (error : PoolError) (attempt : Nat)
  deriving DecidableEq, Repr

namespace LogLine

def level : LogLine → LogLevel
  | .markedUp .. | .poolBuilt .. => .info
  | .markedDown .. => .warn
  | _ => .debug

def message : LogLine → String
  | .serverAdded .. => "Server added"
  | .probing .. => "Probing down server past its recovery deadline"
  | .fallingBack .. => "Falling back to backup group"
  | .nothingAvailable => "No available server in any group"
  | .markedUp .. => "Server marked up"
  | .markedDown .. => "Server marked down"
  | .poolBuilt .. => "Load balancer built from configuration"
  | .requestDropped .. => "Dropping request"

/-- The named values of a line, as texts. -/
def fields : LogLine → List (String × String)
  | .serverAdded id o =>
      [("server", id.text), ("weight", toString o.weight), ("max_fails", toString o.maxFails),
        ("fail_timeout", o.failTimeout.text)]
  | .probing id => [("server", id.text)]
  | .fallingBack online => [("primary_online", toString online)]
  | .nothingAvailable => []
  | .markedUp id online => [("server", id.text), ("primary_online", toString online)]
  | .markedDown id online error =>
      [("server", id.text), ("primary_online", toString online)]
        ++ error.toList.map (fun e => ("error", e))
  | .poolBuilt servers online =>
      [("servers", toString servers), ("primary_online", toString online)]
  | .requestDropped error attempt =>
      [("error", error.message), ("attempt", toString attempt)]

end LogLine

/-! ## Metrics -/

inductive MetricKind where
  /-- The value is added to the series. -/
  | counter
  /-- The value replaces that of the series. -/
  | gauge
  deriving DecidableEq, Repr

def MetricKind.text : MetricKind → String
  | .counter => "counter"
  | .gauge => "gauge"

inductive Metric where
  | selection (tier : Tier)
  | noAvailable
  | transition (event : Event)
  | serverUp (id : ServerId) (up : Bool)
  | primaryOnline (count : Nat)
  deriving DecidableEq, Repr

namespace Metric

def kind : Metric → MetricKind
  | .selection _ | .noAvailable | .transition _ => .counter
  | .serverUp .. | .primaryOnline _ => .gauge

def name : Metric → String
  | .selection _ => "balancer_selections_total"
  | .noAvailable => "balancer_no_available_total"
  | .transition _ => "balancer_transitions_total"
  | .serverUp .. => "balancer_server_up"
  | .primaryOnline _ => "balancer_primary_online"

def label : Metric → String
  | .selection tier => "tier=" ++ tier.text
  | .transition event => "event=" ++ event.text
  | .serverUp id _ => "server=" ++ id.text
  | .noAvailable | .primaryOnline _ => ""

/-- The series that is updated: the name with its label. -/
def series (m : Metric) : String := m.name ++ "\x7b" ++ m.label ++ "\x7d"

def value : Metric → Nat
  | .selection _ | .noAvailable | .transition _ => 1
  | .serverUp _ up => if up then 1 else 0
  | .primaryOnline count => count

end Metric

end TieredPool
