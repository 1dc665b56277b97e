import TieredPool.Document
import TieredPool.Simulation

/-!
# SimulationReport — reports as documents

* `SimulationReport.toDocument` — the counts, the picks by name, the events and the servers.
* `ServerStatus.toDocument` — the status of one server.
-/

namespace TieredPool

open Document (nat)

def ServerId.toDocument (id : ServerId) : Document :=
  .table [("tier", .text id.tier.text), ("index", nat id.index)]

def ServerStatus.fields (s : ServerStatus) : List (String × Document) :=
  [("id", s.id.toDocument),
    ("weight", nat s.weight.toNat),
    ("is_backup", .bool s.isBackup),
    ("is_down", .bool s.isDown),
    ("fail_counter", nat s.failCounter),
    ("last_picked", .bool s.lastPicked)]

def ServerStatus.toDocument (s : ServerStatus) : Document := .table s.fields

def EventRecord.toDocument (e : EventRecord) : Document :=
  .table [
    ("at_ms", nat e.atMs.toNat),
    ("server", .text e.server),
    ("event", .text e.event.text),
    ("error", (e.error.map Document.text).getD .null)]

/-- The status of the server stands beside its name and its picks. -/
def ServerReport.toDocument (s : ServerReport) : Document :=
  .table ([("name", .text s.name), ("picks", nat s.picks)] ++ s.status.fields)

def SimulationReport.toDocument (r : SimulationReport) : Document :=
  .table [
    ("requests", nat r.requests),
    ("succeeded", nat r.tally.succeeded),
    ("failed", nat r.tally.failed),
    ("unavailable", nat r.tally.unavailable),
    ("dropped", nat r.tally.dropped),
    ("elapsed_ms", nat r.elapsedMs.toNat),
    ("picks", .table (r.tally.picks.map fun p => (p.1, nat p.2))),
    ("events", .list (r.events.map EventRecord.toDocument)),
    ("servers", .list (r.servers.map ServerReport.toDocument))]

end TieredPool
