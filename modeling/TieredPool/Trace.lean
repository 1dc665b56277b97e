import TieredPool.Machine

/-!
# Trace — reading what a run has told the outside

* `Trace.logs`, `Trace.metrics` — the lines and updates, in order.
* `Trace.calls` — the handler calls in the order of entry, each with the answers its script got.
-/

namespace TieredPool
namespace Trace

variable {α : Type}

def logs (trace : List (Effect α)) : List LogLine :=
  trace.filterMap fun
    | .log line => some line
    | _ => none

def metrics (trace : List (Effect α)) : List Metric :=
  trace.filterMap fun
    | .metric update => some update
    | _ => none

/-- A handler call with the answers of its own script; those of the calls inside it are theirs. -/
structure CallRecord (α : Type) where
  call : Call α
  answers : List (Answer α) := []

/-- Adds an answer to the record at position `i`. -/
def addAnswer (i : Nat) (answer : Answer α) (records : List (CallRecord α)) :
    List (CallRecord α) :=
  records.modify i fun r => { r with answers := r.answers ++ [answer] }

/-- Reads the trace with `entered` the positions of the calls not yet left, innermost first. -/
def callsFrom (entered : List Nat) (records : List (CallRecord α)) :
    List (Effect α) → List (CallRecord α)
  | [] => records
  | .entered call :: rest => callsFrom (records.length :: entered) (records ++ [{ call }]) rest
  | .answered answer :: rest =>
      match entered with
      | i :: _ => callsFrom entered (addAnswer i answer records) rest
      | [] => callsFrom [] records rest
  | .left :: rest => callsFrom entered.tail records rest
  | _ :: rest => callsFrom entered records rest

def calls (trace : List (Effect α)) : List (CallRecord α) := callsFrom [] [] trace

end Trace
end TieredPool
