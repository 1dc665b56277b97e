import TieredPool.Machine
import TieredPool.Proofs.Soundness

/-!
# Unrolling — nested runs as flat sequences of operations

A handler is a script of operations, and those may raise events that run handlers again. As far as
the pool and the clock go, such a run is no more than its operations in the order in which they are
carried out, each of them by itself; handlers only decide which operation comes next.

* `State`, `Request` — a pool with its clock; an operation with who issues it.
* `State.apply`, `State.notice?` — one operation, up to the point where a handler hears of it.
* `State.unroll` — all operations that one operation leads to, in order.
* `State.after` — the state after the first operations of a client's run, nested ones counted.
* `Step`, `State.course` — those operations, each with the state that it finds.
* `Pool.Respects` — what all changes of state respect, a run respects from any state to a later one.
-/

namespace TieredPool

variable {α : Type}

/-! ## Operations by themselves -/

/-- What a run changes, apart from its trace. -/
structure State (α : Type) where
  pool : Pool α := {}
  clock : Instant

def Machine.state (m : Machine α) : State α := { pool := m.pool, clock := m.clock }

structure Request (α : Type) where
  caller : Caller
  op : Op α

namespace State

/-- The pool is used through a handle; an operation of a caller that has lost its own does nothing. -/
def through (caller : Caller) (f : Pool α → Pool α) (s : State α) : State α :=
  if caller.handle.isNone then s else { s with pool := f s.pool }

/-- What an operation does by itself. -/
def apply (s : State α) (r : Request α) : State α :=
  match r.op with
  | .add options data =>
      s.through r.caller fun p =>
        match options.check with
        | .error _ => p
        | .ok () => (p.register options data).2
  | .next => s.through r.caller fun p => (p.next s.clock).2
  | .reportSuccess target =>
      match r.caller.resolve target with
      | some id => { s with pool := (s.pool.reportSuccess id).2 }
      | none => s
  | .reportFailure target _ =>
      match r.caller.resolve target with
      | some id => { s with pool := (s.pool.reportFailure s.clock id).2 }
      | none => s
  | .install label only script =>
      s.through r.caller fun p =>
        { p with handler := some { label, only, script, holder := r.caller.handle } }
  | .clear => s.through r.caller fun p => { p with handler := none }
  | .advance span => { s with clock := (s.clock.add? span).getD s.clock }
  | .setClock target => { s with clock := if s.clock < target then target else s.clock }
  | .count | .panic => s

/-- The change of availability that an operation brings about. -/
def notice? (s : State α) (r : Request α) : Option (Notice α) :=
  match r.op with
  | .reportSuccess target =>
      (r.caller.resolve target).bind fun id =>
        (s.pool.reportSuccess id).1.map fun server => { event := .up, server, error := none }
  | .reportFailure target error =>
      (r.caller.resolve target).bind fun id =>
        (s.pool.reportFailure s.clock id).1.map fun server => { event := .down, server, error }
  | _ => none

/-- Whether an operation ends the run by itself. -/
def halts (s : State α) (r : Request α) : Bool :=
  match r.op with
  | .advance span => (s.clock.add? span).isNone
  | .panic => true
  | _ => false

def applyAll (s : State α) (rs : List (Request α)) : State α := rs.foldl apply s

@[simp] theorem applyAll_nil (s : State α) : s.applyAll [] = s := rfl

@[simp] theorem applyAll_cons (s : State α) (r : Request α) (rs : List (Request α)) :
    s.applyAll (r :: rs) = (s.apply r).applyAll rs := rfl

@[simp] theorem applyAll_append (s : State α) (rs rs' : List (Request α)) :
    s.applyAll (rs ++ rs') = (s.applyAll rs).applyAll rs' := by
  simp [applyAll]

/-! ## Unrolling -/

/-- The operations that have been carried out, and whether a halt cut them short. -/
structure Unrolled (α : Type) where
  done : List (Request α)
  halted : Bool

/-- A script, given how each of its operations unrolls. A halt ends it. -/
def unrollScript (unroll : State α → Request α → Unrolled α) (caller : Caller) :
    List (Op α) → State α → Unrolled α
  | [], _ => { done := [], halted := false }
  | op :: rest, s =>
      let u := unroll s { caller, op }
      -- What came before the halt has been done all the same.
      if u.halted then u
      else
        let v := unrollScript unroll caller rest (s.applyAll u.done)
        { v with done := u.done ++ v.done }

/-- The operation itself, then what the handler that hears of it goes on to do. Events nest as deep
as `fuel` allows. -/
def unroll (fuel : Nat) (s : State α) (r : Request α) : Unrolled α :=
  match s.notice? r with
  | none => { done := [r], halted := s.halts r }
  | some notice =>
      -- The handler is looked up once the operation is through, not when it starts.
      match (s.apply r).pool.handler with
      | none => { done := [r], halted := false }
      | some handler =>
          match fuel with
          | 0 => { done := [r], halted := true }
          | fuel + 1 =>
              if handler.reactsTo notice.event then
                let u := unrollScript (unroll fuel)
                  { handle := handler.holder, subject := some notice.server.id }
                  handler.script (s.apply r)
                { u with done := r :: u.done }
              else { done := [r], halted := false }

section Cases

variable {s : State α} {r : Request α} {n : Notice α} {handler : Handler α}

theorem unroll_of_quiet (hn : s.notice? r = none) (fuel : Nat) :
    s.unroll fuel r = { done := [r], halted := s.halts r } := by
  unfold unroll
  rw [hn]

theorem unroll_of_no_handler (hn : s.notice? r = some n) (hhandler : (s.apply r).pool.handler = none)
    (fuel : Nat) : s.unroll fuel r = { done := [r], halted := false } := by
  unfold unroll
  simp only [hn, hhandler]

theorem unroll_zero (hn : s.notice? r = some n) (hhandler : (s.apply r).pool.handler = some handler) :
    s.unroll 0 r = { done := [r], halted := true } := by
  simp only [unroll, hn, hhandler]

theorem unroll_succ (hn : s.notice? r = some n) (hhandler : (s.apply r).pool.handler = some handler)
    (fuel : Nat) :
    s.unroll (fuel + 1) r =
      if handler.reactsTo n.event then
        let u := unrollScript (unroll fuel) { handle := handler.holder, subject := some n.server.id }
          handler.script (s.apply r)
        { u with done := r :: u.done }
      else { done := [r], halted := false } := by
  simp only [unroll, hn, hhandler]

/-- The operation itself comes first. -/
theorem exists_done_unroll (fuel : Nat) (s : State α) (r : Request α) :
    ∃ rest, (s.unroll fuel r).done = r :: rest := by
  cases hn : s.notice? r with
  | none => exact ⟨[], by rw [unroll_of_quiet hn]⟩
  | some n =>
      cases hhandler : (s.apply r).pool.handler with
      | none => exact ⟨[], by rw [unroll_of_no_handler hn hhandler]⟩
      | some handler =>
          cases fuel with
          | zero => exact ⟨[], by rw [unroll_zero hn hhandler]⟩
          | succ fuel =>
              rw [unroll_succ hn hhandler]
              split
              · exact ⟨_, rfl⟩
              · exact ⟨[], rfl⟩

end Cases

/-- The operations of a client's requests, each unrolled. A halt ends its own request only. -/
def unrollAll (fuel : Nat) : List (Request α) → State α → List (Request α)
  | [], _ => []
  | r :: rest, s =>
      let done := (s.unroll fuel r).done
      done ++ unrollAll fuel rest (s.applyAll done)

/-- The state after the first `k` operations of a client's run. -/
def after (fuel : Nat) (requests : List (Request α)) (k : Nat) (s : State α) : State α :=
  s.applyAll ((unrollAll fuel requests s).take k)

end State

/-! ## Steps -/

/-- An operation of a run, with the state that it finds. -/
structure Step (α : Type) where
  before : State α
  request : Request α

namespace Step

def after (t : Step α) : State α := t.before.apply t.request

def notice? (t : Step α) : Option (Notice α) := t.before.notice? t.request

end Step

namespace State

/-- Operations in order, each with the state that it finds. -/
def trail (s : State α) : List (Request α) → List (Step α)
  | [] => []
  | r :: rest => { before := s, request := r } :: (s.apply r).trail rest

@[simp] theorem trail_nil (s : State α) : s.trail [] = [] := rfl

@[simp] theorem trail_cons (s : State α) (r : Request α) (rest : List (Request α)) :
    s.trail (r :: rest) = { before := s, request := r } :: (s.apply r).trail rest := rfl

theorem length_trail (s : State α) (rs : List (Request α)) : (s.trail rs).length = rs.length := by
  induction rs generalizing s with
  | nil => rfl
  | cons r rest ih => rw [trail_cons, List.length_cons, List.length_cons, ih]

theorem trail_append (s : State α) (rs rs' : List (Request α)) :
    s.trail (rs ++ rs') = s.trail rs ++ (s.applyAll rs).trail rs' := by
  induction rs generalizing s with
  | nil => rfl
  | cons r rest ih => simp [ih]

theorem trail_take (s : State α) (rs : List (Request α)) (k : Nat) :
    s.trail (rs.take k) = (s.trail rs).take k := by
  induction rs generalizing s k with
  | nil => simp
  | cons r rest ih =>
      cases k with
      | zero => rfl
      | succ k => simp [ih]

/-- The operations of a client's run, those of handlers among them. -/
def course (fuel : Nat) (requests : List (Request α)) (s : State α) : List (Step α) :=
  s.trail (unrollAll fuel requests s)

end State

/-! ## What a run respects -/

/-- All changes of a pool's state lead from a pool to one that is in the relation `rel` to it. -/
structure Pool.Respects (rel : Pool α → Pool α → Prop) : Prop where
  refl : ∀ p, rel p p
  trans : ∀ p p' p'', rel p p' → rel p' p'' → rel p p''
  register : ∀ options data p, rel p (p.register options data).2
  next : ∀ now p, rel p (p.next now).2
  reportSuccess : ∀ id p, rel p (p.reportSuccess id).2
  reportFailure : ∀ now id p, rel p (p.reportFailure now id).2
  handler : ∀ handler p, rel p { p with handler }

namespace Pool.Respects

variable {rel : Pool α → Pool α → Prop}

theorem through (h : Respects rel) {s : State α} {f : Pool α → Pool α} (hf : rel s.pool (f s.pool))
    (caller : Caller) : rel s.pool (s.through caller f).pool := by
  unfold State.through
  split
  · exact h.refl s.pool
  · exact hf

theorem apply (h : Respects rel) (s : State α) (r : Request α) : rel s.pool (s.apply r).pool := by
  rcases r with ⟨caller, op⟩
  cases op with
  | add options data =>
      refine h.through ?_ caller
      cases options.check with
      | error why => exact h.refl s.pool
      | ok _ => exact h.register options data s.pool
  | next => exact h.through (h.next s.clock s.pool) caller
  | reportSuccess target =>
      cases hid : caller.resolve target with
      | none => simpa [State.apply, hid] using h.refl s.pool
      | some id => simpa [State.apply, hid] using h.reportSuccess id s.pool
  | reportFailure target error =>
      cases hid : caller.resolve target with
      | none => simpa [State.apply, hid] using h.refl s.pool
      | some id => simpa [State.apply, hid] using h.reportFailure s.clock id s.pool
  | install label only script => exact h.through (h.handler _ s.pool) caller
  | clear => exact h.through (h.handler none s.pool) caller
  | count => exact h.refl s.pool
  | advance span => exact h.refl s.pool
  | setClock target => exact h.refl s.pool
  | panic => exact h.refl s.pool

theorem applyAll (h : Respects rel) (s : State α) (rs : List (Request α)) :
    rel s.pool (s.applyAll rs).pool := by
  induction rs generalizing s with
  | nil => exact h.refl s.pool
  | cons r rest ih => exact h.trans _ _ _ (h.apply s r) (ih (s.apply r))

/-- From an earlier state of a run to a later one. -/
theorem after (h : Respects rel) (s : State α) (fuel : Nat) (requests : List (Request α)) {j k : Nat}
    (hjk : j ≤ k) : rel (s.after fuel requests j).pool (s.after fuel requests k).pool := by
  -- The later state is reached from the earlier one by the operations between them.
  have hsplit : (State.unrollAll fuel requests s).take k =
      (State.unrollAll fuel requests s).take j ++
        ((State.unrollAll fuel requests s).drop j).take (k - j) := by
    rw [← List.take_add, Nat.add_sub_cancel' hjk]
  unfold State.after
  rw [hsplit, State.applyAll_append]
  exact h.applyAll _ _

end Pool.Respects

end TieredPool
