import Mathlib.Data.List.Basic
import TieredPool.Proofs.Walks

/-!
# Chronicle — what an observer of a run keeps

Of the trace of a run an observer may want no more than the handler calls. These are told by the
operations that were carried out, whatever log lines stand between them.

* `Machine.called`, `Trace.map_call_calls` — the handler calls of a machine so far, and the records that
  a reader of the trace makes of them.
* `Step.call?` — the call that an operation leads to.
* `Machine.Undergoes` — operations have been carried out, and the handlers that they call were entered.
-/

namespace TieredPool

variable {α : Type}

/-! ## Handler calls -/

def Effect.call? : Effect α → Option (Call α)
  | .entered call => some call
  | _ => none

/-- The handler calls so far, in the order of entry. -/
def Machine.called (m : Machine α) : List (Call α) := m.trace.toList.filterMap Effect.call?

namespace Trace

theorem map_call_addAnswer (i : Nat) (answer : Answer α) (records : List (CallRecord α)) :
    (addAnswer i answer records).map (·.call) = records.map (·.call) := by
  apply List.ext_getElem?
  intro j
  rw [addAnswer, List.getElem?_map, List.getElem?_map, List.getElem?_modify]
  cases records[j]? with
  | none => rfl
  | some r => by_cases hi : i = j <;> simp [hi]

/-- Answers and returns find their record and leave its call as it is. -/
theorem map_call_callsFrom (entered : List Nat) (records : List (CallRecord α))
    (trace : List (Effect α)) :
    (callsFrom entered records trace).map (·.call) =
      records.map (·.call) ++ trace.filterMap Effect.call? := by
  induction trace generalizing entered records with
  | nil => simp [callsFrom]
  | cons e rest ih =>
      cases e with
      | entered call => simp [callsFrom, ih, Effect.call?]
      | answered answer =>
          cases entered with
          | nil => rw [callsFrom, ih, List.filterMap_cons_none rfl]
          | cons i outer => rw [callsFrom, ih, map_call_addAnswer, List.filterMap_cons_none rfl]
      | left => rw [callsFrom, ih, List.filterMap_cons_none rfl]
      | log line => exact ih entered records
      | metric update => exact ih entered records
      | changed event id error => exact ih entered records

theorem map_call_calls (trace : List (Effect α)) :
    (calls trace).map (·.call) = trace.filterMap Effect.call? :=
  map_call_callsFrom [] [] trace

end Trace

/-- The handler call that an operation leads to. -/
def Step.call? (t : Step α) : Option (Call α) :=
  t.notice?.bind fun n => t.after.pool.handler.map fun handler =>
    { handler, event := n.event, server := n.server, error := n.error,
      pool := t.after.pool, clock := t.after.clock }

/-- What an operation tells by itself is no call. -/
theorem Step.filterMap_call? (t : Step α) :
    (t.tells ++ t.calls).filterMap Effect.call? = t.call?.toList := by
  have htells : t.tells.filterMap Effect.call? = [] := by
    refine List.filterMap_eq_nil_iff.2 fun e he => ?_
    cases e with
    | entered call => exact absurd he (t.notMem_tells_of_pause rfl)
    | _ => rfl
  rw [List.filterMap_append, htells, List.nil_append]
  unfold calls call?
  split
  case h_1 n handler hn hhandler => simp [hn, hhandler, Effect.call?]
  case h_2 hnone =>
    cases hn : t.notice? with
    | none => simp
    | some n =>
        cases hhandler : t.after.pool.handler with
        | none => simp
        | some handler => exact absurd hhandler (hnone n handler hn)

theorem State.map_request_trail (s : State α) (rs : List (Request α)) :
    (s.trail rs).map Step.request = rs := by
  induction rs generalizing s with
  | nil => rfl
  | cons r rest ih => rw [trail_cons, List.map_cons, ih]

/-! ## What a machine has been through -/

/-- From `m` to `m'` the operations `done` have been carried out, and all handlers that they called have
been entered. What has been logged is left open. -/
structure Machine.Undergoes (m : Machine α) (done : List (Request α)) (m' : Machine α) : Prop where
  state : m'.state = m.state.applyAll done
  called : m'.called = m.called ++ (m.state.trail done).filterMap Step.call?

namespace Machine

variable {m m' m'' : Machine α} {done done' : List (Request α)}

theorem Undergoes.refl (m : Machine α) : m.Undergoes [] m := ⟨rfl, by simp⟩

theorem Undergoes.trans (h : m.Undergoes done m') (h' : m'.Undergoes done' m'') :
    m.Undergoes (done ++ done') m'' where
  state := by rw [h'.state, h.state, State.applyAll_append]
  called := by
    rw [h'.called, h.called, h.state, State.trail_append, List.filterMap_append, List.append_assoc]

/-- A walk on which no handler missed its event. -/
theorem Walks.undergoes (h : m.Walks False done m') : m.Undergoes done m' where
  state := h.state_eq
  called := by
    have hheard := h.heard (f := Effect.call?) (by intro e he; cases e <;> first | rfl | cases he)
    simp only [Step.filterMap_call?] at hheard
    rw [called, hheard, called, List.filterMap_eq_flatMap_toList Step.call?]

theorem undergoes_log (line : LogLine) (m : Machine α) :
    m.Undergoes [] { m with trace := m.trace.push (.log line) } :=
  ⟨rfl, by simp [called, Effect.call?]⟩

/-- Handlers hear of nothing but changes of availability. -/
theorem Undergoes.called_of_quiet {r : Request α} (h : m.Undergoes [r] m')
    (hr : m.state.notice? r = none) : m'.called = m.called := by
  have hnone : Step.call? { before := m.state, request := r } = none := by
    simp [Step.call?, Step.notice?, hr]
  rw [h.called, State.trail_cons, State.trail_nil, List.filterMap_cons_none hnone,
    List.filterMap_nil, List.append_nil]

/-- The request of a client for a server. -/
theorem undergoes_next (m : Machine α) :
    ∃ m', Run.next m = .ok (Run.served (m.pool.next m.clock).1) m' ∧
      m.Undergoes [{ caller := { handle := some 0 }, op := .next }] m' := by
  obtain ⟨m', hnext, hstate, htrace⟩ := Run.next_spec m
  refine ⟨m', hnext, Walks.undergoes (.of_quiet (Step.calls_of_no_notice rfl) hstate ?_)⟩
  rw [htrace]
  rfl

end Machine

end TieredPool
