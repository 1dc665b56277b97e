import TieredPool.Simulation
import TieredPool.Proofs.Chronicle

/-!
# Reporting — what a report shows of a simulation

A report is made once, after the last request. Its events are the handler calls of the whole run, and it
has one line for each server that the pool holds.

* `Simulation.events_report` — the events.
* `ServerReport.line`, `Simulation.lines_report` — the figures of each server, in the order of the pool.
-/

namespace TieredPool

variable {γ : Type}

/-- What a report says of a server: its id and name, how often it was picked, whether it is down, and
its failures. -/
def ServerReport.line (r : ServerReport) : ServerId × String × Nat × Bool × Nat :=
  (r.status.id, r.name, r.picks, r.status.isDown, r.status.failCounter)

/-- The same, of a server in its slot. -/
def Slot.line (picks : List (String × Nat)) (s : Slot Endpoint) :
    ServerId × String × Nat × Bool × Nat :=
  (s.server.id, s.server.data.name, picksOf picks s.server.data.name, s.isDown, s.health.failCounter)

namespace Simulation

theorem events_report (start : Instant) (params : SimulationParams) (s : Simulation γ) :
    (s.report start params).events = s.machine.called.map (EventRecord.ofCall start) := by
  rw [Machine.called, ← Trace.map_call_calls, List.map_map]
  rfl

theorem lines_report (start : Instant) (params : SimulationParams) (s : Simulation γ) :
    (s.report start params).servers.map ServerReport.line =
      s.machine.pool.slots.map (Slot.line s.tally.picks) := by
  let entry (server : Server Endpoint) (status : ServerStatus) : ServerReport :=
    { name := server.data.name, picks := picksOf s.tally.picks server.data.name, status }
  have hgroup (g : Group Endpoint) :
      (List.zipWith entry (g.slots.map Slot.server) (Pool.statuses g)).map ServerReport.line =
        g.slots.map (Slot.line s.tally.picks) := by
    apply List.ext_getElem?
    intro i
    simp only [Pool.statuses, List.getElem?_map, List.getElem?_zipWith, List.getElem?_mapIdx]
    cases g.slots[i]? <;> rfl
  have hlength : (s.machine.pool.primary.slots.map Slot.server).length =
      (Pool.statuses s.machine.pool.primary).length := by
    simp [Pool.statuses]
  simp only [report, Pool.servers, Pool.slots, Pool.snapshot, List.map_append]
  rw [List.zipWith_append hlength, List.map_append, hgroup, hgroup]

end Simulation

end TieredPool
