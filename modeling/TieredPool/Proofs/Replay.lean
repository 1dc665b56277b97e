import TieredPool.Proofs.Shift
import TieredPool.Proofs.Walks

/-!
# Replay — the same run on a clock that started later

Two runs of the same operations, one on a clock that is ahead by `d`, go side by side: at no operation,
not even within handlers, do they differ but by that shift, so they answer and tell the same.

* `State.FitsAll` — operations in order that compute only sums that the clock can show.
* `State.unroll_shift`, `State.after_shift` — the operations of both runs, nested ones among them, and
  the states between them.
* `Machine.shift`, `Effect.shift` — a machine and its trace, later.
* `perform_shift` — one operation of a machine, with all that it leads to.
* `Machine.replies`, `Machine.serve_shift` — what clients are answered, and the machine that is left.
-/

namespace TieredPool

variable {α β : Type} {d : Nat}

namespace State

variable {s : State α} {r : Request α}

/-! ## Operations in order -/

/-- The clock can show all sums that the operations compute. -/
def FitsAll (s : State α) (rs : List (Request α)) : Prop := ∀ t ∈ s.trail rs, t.Fits

instance (s : State α) (rs : List (Request α)) : Decidable (s.FitsAll rs) :=
  inferInstanceAs (Decidable (∀ t ∈ s.trail rs, t.Fits))

theorem fitsAll_cons {rest : List (Request α)} :
    s.FitsAll (r :: rest) ↔ Step.Fits { before := s, request := r } ∧ (s.apply r).FitsAll rest :=
  List.forall_mem_cons

theorem fitsAll_append {rs rs' : List (Request α)} :
    s.FitsAll (rs ++ rs') ↔ s.FitsAll rs ∧ (s.applyAll rs).FitsAll rs' := by
  rw [FitsAll, trail_append]
  exact List.forall_mem_append

theorem applyAll_shift {rs : List (Request α)} (hfits : (s.shift d).FitsAll (rs.map (Request.shift d))) :
    (s.shift d).applyAll (rs.map (Request.shift d)) = (s.applyAll rs).shift d := by
  induction rs generalizing s with
  | nil => rfl
  | cons r rest ih =>
      obtain ⟨hfirst, hrest⟩ := fitsAll_cons.1 hfits
      have happly := apply_shift hfirst
      rw [happly] at hrest
      rw [List.map_cons, applyAll_cons, happly, applyAll_cons, ih hrest]

/-! ## Unrolling -/

def Unrolled.shift (d : Nat) (u : Unrolled α) : Unrolled α := { u with done := u.done.map (Request.shift d) }

/-- The sums of a script are those of its first operation and, unless that halts, those of the rest. -/
theorem fitsAll_unrollScript_cons {unroll : State α → Request α → Unrolled α} {caller : Caller} {op : Op α}
    {rest : List (Op α)} :
    s.FitsAll (unrollScript unroll caller (op :: rest) s).done ↔
      s.FitsAll (unroll s { caller, op }).done ∧
        ((unroll s { caller, op }).halted = false →
          (s.applyAll (unroll s { caller, op }).done).FitsAll
            (unrollScript unroll caller rest (s.applyAll (unroll s { caller, op }).done)).done) := by
  cases hhalted : (unroll s { caller, op }).halted with
  | true => simp [unrollScript, hhalted]
  | false => simp [unrollScript, hhalted, fitsAll_append]

/-- If every operation unrolls alike mapState, so does every script. -/
theorem unrollScript_shift {unroll : State α → Request α → Unrolled α}
    (hop : ∀ (s : State α) (r : Request α),
      (s.shift d).FitsAll (unroll (s.shift d) (r.shift d)).done →
      unroll (s.shift d) (r.shift d) = (unroll s r).shift d)
    {caller : Caller} {script : List (Op α)}
    (hfits : (s.shift d).FitsAll (unrollScript unroll caller (Op.shiftAll d script) (s.shift d)).done) :
    unrollScript unroll caller (Op.shiftAll d script) (s.shift d) =
      (unrollScript unroll caller script s).shift d := by
  induction script generalizing s with
  | nil => rfl
  | cons op rest ih =>
      rw [Op.shiftAll] at hfits ⊢
      obtain ⟨hfirst, hlater⟩ := fitsAll_unrollScript_cons.1 hfits
      -- The rest of the script starts in the state that the first operation has left in its own run.
      have hu : unroll (s.shift d) { caller, op := op.shift d } = (unroll s { caller, op }).shift d :=
        hop s { caller, op } hfirst
      rw [hu] at hfirst hlater
      have hstate : (s.shift d).applyAll ((unroll s { caller, op }).shift d).done =
          (s.applyAll (unroll s { caller, op }).done).shift d := applyAll_shift hfirst
      have hhalted : ((unroll s { caller, op }).shift d).halted = (unroll s { caller, op }).halted := rfl
      rw [hstate, hhalted] at hlater
      simp only [unrollScript, hu, hstate, hhalted]
      cases hends : (unroll s { caller, op }).halted with
      | true => rfl
      | false =>
          rw [ih (hlater hends)]
          simp [Unrolled.shift]

/-- An operation unrolls later as it does earlier. -/
theorem unroll_shift {fuel : Nat}
    (hfits : (s.shift d).FitsAll ((s.shift d).unroll fuel (r.shift d)).done) :
    (s.shift d).unroll fuel (r.shift d) = (s.unroll fuel r).shift d := by
  -- A handler runs at less fuel than the operation that it hears of.
  induction fuel using Nat.strongRecOn generalizing s r with
  | ind fuel ih =>
  obtain ⟨rest, hdone⟩ := exists_done_unroll fuel (s.shift d) (r.shift d)
  have hstep : Step.Fits { before := s.shift d, request := r.shift d } :=
    (fitsAll_cons.1 (hdone ▸ hfits)).1
  have happly := apply_shift hstep
  cases hn : s.notice? r with
  | none =>
      rw [unroll_of_quiet ((notice?_shift hstep).trans hn), unroll_of_quiet hn, halts_shift hstep]
      rfl
  | some n =>
      have hn' : (s.shift d).notice? (r.shift d) = some n := (notice?_shift hstep).trans hn
      have hhandled : ((s.shift d).apply (r.shift d)).pool.handler =
          (s.apply r).pool.handler.map (Handler.shift d) := by
        rw [happly]
        rfl
      cases hhandler : (s.apply r).pool.handler with
      | none =>
          rw [hhandler] at hhandled
          rw [unroll_of_no_handler hn' hhandled, unroll_of_no_handler hn hhandler]
          rfl
      | some handler =>
          rw [hhandler] at hhandled
          cases fuel with
          | zero =>
              rw [unroll_zero hn' hhandled, unroll_zero hn hhandler]
              rfl
          | succ fuel =>
              have hreacts' : (handler.shift d).reactsTo n.event = handler.reactsTo n.event := rfl
              rw [unroll_succ hn' hhandled, hreacts'] at hfits ⊢
              rw [unroll_succ hn hhandler]
              cases hreacts : handler.reactsTo n.event with
              | false => rfl
              | true =>
                  -- All that is left of the operation is its script, at the lower fuel.
                  rw [hreacts] at hfits
                  have hscript := (fitsAll_cons.1 hfits).2
                  rw [happly] at hscript ⊢
                  have hsame := unrollScript_shift (fun s r h => ih fuel (Nat.lt_succ_self fuel) h) hscript
                  simp only [Handler.shift, if_true] at hsame ⊢
                  rw [hsame]
                  rfl

theorem unrollAll_shift {fuel : Nat} {requests : List (Request α)}
    (hfits : (s.shift d).FitsAll (unrollAll fuel (requests.map (Request.shift d)) (s.shift d))) :
    unrollAll fuel (requests.map (Request.shift d)) (s.shift d) =
      (unrollAll fuel requests s).map (Request.shift d) := by
  induction requests generalizing s with
  | nil => rfl
  | cons r rest ih =>
      simp only [List.map_cons, unrollAll] at hfits ⊢
      obtain ⟨hfirst, hrest⟩ := fitsAll_append.1 hfits
      have hu := unroll_shift hfirst
      rw [hu] at hfirst hrest ⊢
      have hstate : (s.shift d).applyAll ((s.unroll fuel r).shift d).done =
          (s.applyAll (s.unroll fuel r).done).shift d := applyAll_shift hfirst
      rw [hstate] at hrest ⊢
      rw [ih hrest, List.map_append]
      rfl

/-- After any number of operations the two runs are apart by the shift. -/
theorem after_shift {fuel : Nat} {requests : List (Request α)}
    (hfits : (s.shift d).FitsAll (unrollAll fuel (requests.map (Request.shift d)) (s.shift d))) (k : Nat) :
    (s.shift d).after fuel (requests.map (Request.shift d)) k = (s.after fuel requests k).shift d := by
  have hsame := unrollAll_shift hfits
  rw [hsame] at hfits
  rw [after, after, hsame, ← List.map_take]
  refine applyAll_shift ?_
  rw [← List.take_append_drop k (unrollAll fuel requests s), List.map_append] at hfits
  exact (fitsAll_append.1 hfits).1

end State

/-! ## Machines -/

def Call.shift (d : Nat) (c : Call α) : Call α :=
  { c with handler := c.handler.shift d, pool := c.pool.shift d, clock := c.clock.shift d }

/-- What is told is the same; only the state that a handler finds is later. -/
def Effect.shift (d : Nat) : Effect α → Effect α
  | .entered call => .entered (call.shift d)
  | .log line => .log line
  | .metric update => .metric update
  | .changed event id error => .changed event id error
  | .answered answer => .answered answer
  | .left => .left

def Machine.shift (d : Nat) (m : Machine α) : Machine α where
  pool := m.pool.shift d
  clock := m.clock.shift d
  trace := m.trace.map (Effect.shift d)

/-- The same result, with another state left behind. -/
def mapState {ε σ : Type} (f : σ → σ) : EStateM.Result ε σ β → EStateM.Result ε σ β
  | .ok b s => .ok b (f s)
  | .error why s => .error why (f s)

@[simp] theorem Machine.pool_shift (m : Machine α) : (m.shift d).pool = m.pool.shift d := rfl

@[simp] theorem Machine.clock_shift (m : Machine α) : (m.shift d).clock = m.clock.shift d := rfl

theorem Machine.emit_shift (e : Effect α) (m : Machine α) :
    ({ m with trace := m.trace.push e } : Machine α).shift d =
      { m.shift d with trace := (m.shift d).trace.push (e.shift d) } := by
  simp [shift]

namespace Run

theorem add_shift (options : ServerOptions) (data : α) (m : Machine α) :
    add options data (m.shift d) = mapState (Machine.shift d) (add options data m) := by
  cases hcheck : options.check with
  | error why => simp [add, hcheck, mapState]
  | ok _ =>
      cases htracked : (m.pool.register options data).1.tracked <;>
        simp [add, hcheck, htracked, log, metric, mapState, Pool.register_shift, Machine.shift, Effect.shift]

theorem next_shift {m : Machine α}
    (hpool : (m.pool.shift d).next (m.clock.shift d) =
      ((m.pool.next m.clock).1, (m.pool.next m.clock).2.shift d)) :
    next (m.shift d) = mapState (Machine.shift d) (next m) := by
  rcases hnext : m.pool.next m.clock with ⟨_ | choice, p⟩ <;> rw [hnext] at hpool
  · simp [next, hnext, hpool, log, metric, mapState, Machine.shift, Effect.shift]
  · cases hprobe : choice.pick.probe <;> by_cases hsource : choice.source = .backup <;>
      simp [next, hnext, hpool, hprobe, hsource, log, metric, mapState, Machine.shift, Effect.shift]

theorem announce_shift (event : Event) (id : ServerId) (error : Option String) (line : LogLine)
    (p : Pool α) (m : Machine α) :
    announce event id error line (p.shift d) (m.shift d) = (announce event id error line p m).shift d := by
  simp [announce, Machine.shift, Effect.shift]

end Run

/-! ## One operation -/

/-- An operation does later what it does earlier, if whoever hears of it does. -/
theorem perform_shift_of_notify {notify : Notice α → Run α Unit} {m : Machine α} {r : Request α}
    (hfits : Step.Fits { before := m.state.shift d, request := r.shift d })
    (hnotify : ∀ n m', m.state.notice? r = some n → m'.state = m.state.apply r →
      notify n (m'.shift d) = mapState (Machine.shift d) (notify n m')) :
    perform notify r.caller (r.op.shift d) (m.shift d) = mapState (Machine.shift d) (perform notify r.caller r.op m) := by
  rcases r with ⟨caller, op⟩
  cases op with
  | add options data =>
      cases hhandle : caller.handle.isNone with
      | true => simp [perform, Op.shift, hhandle]; rfl
      | false =>
          simp [perform, Op.shift, hhandle, Run.add_shift]
          cases Run.add options data m <;> rfl
  | next =>
      cases hhandle : caller.handle.isNone with
      | true => simp [perform, Op.shift, hhandle]; rfl
      | false =>
          have hnext := Run.next_shift (State.next_shift_of_fits hhandle hfits)
          simp [perform, Op.shift, hhandle, hnext]
          cases Run.next m <;> rfl
  | reportSuccess target =>
      cases hid : caller.resolve target with
      | none => simp [perform, Op.shift, hid]; rfl
      | some id =>
          have hreport := Pool.reportSuccess_shift (d := d) id m.pool
          rcases hback : m.pool.reportSuccess id with ⟨_ | server, p⟩ <;> rw [hback] at hreport
          · simp [perform, Op.shift, hid, Run.reportSuccess_apply, hback, hreport]
            rfl
          · have hheard := hnotify { event := .up, server, error := none }
              (Run.announce .up id none (.markedUp id p.primaryOnline) p m)
              (by simp [State.notice?, hid, Machine.state, hback])
              (by simp [State.apply, hid, Machine.state, hback, Run.announce])
            simp [perform, Op.shift, hid, Run.reportSuccess_apply, hback, hreport, Run.announce_shift, hheard]
            cases notify _ _ <;> rfl
  | reportFailure target error =>
      cases hid : caller.resolve target with
      | none => simp [perform, Op.shift, hid]; rfl
      | some id =>
          have hreport := State.reportFailure_shift_of_fits hid hfits
          simp only [Machine.state] at hreport
          rcases hdown : m.pool.reportFailure m.clock id with ⟨_ | server, p⟩ <;> rw [hdown] at hreport
          · simp [perform, Op.shift, hid, Run.reportFailure_apply, hdown, hreport]
            rfl
          · have hheard := hnotify { event := .down, server, error }
              (Run.announce .down id error (.markedDown id p.primaryOnline error) p m)
              (by simp [State.notice?, hid, Machine.state, hdown])
              (by simp [State.apply, hid, Machine.state, hdown, Run.announce])
            simp [perform, Op.shift, hid, Run.reportFailure_apply, hdown, hreport, Run.announce_shift, hheard]
            cases notify _ _ <;> rfl
  | count => cases hhandle : caller.handle.isNone <;> simp [perform, Op.shift, hhandle] <;> rfl
  | install label only script =>
      cases hhandle : caller.handle.isNone <;> simp [perform, Op.shift, hhandle] <;> rfl
  | clear => cases hhandle : caller.handle.isNone <;> simp [perform, Op.shift, hhandle] <;> rfl
  | advance span =>
      obtain ⟨u, hu, hu'⟩ := Instant.add?_shift (hfits (m.clock.shift d, span) List.mem_cons_self)
      simp [perform, Op.shift, Run.advance, hu, hu']
      rfl
  | setClock target =>
      by_cases hlater : m.clock < target <;> simp [perform, Op.shift, Run.setClock, hlater] <;> rfl
  | panic => simp [perform, Op.shift]; rfl

/-! ## Scripts and handlers -/

/-- If every operation does later what it does earlier, so does every script. -/
theorem runScript_shift {fuel : Nat}
    (hop : ∀ (m : Machine α) (r : Request α),
      (m.state.shift d).FitsAll ((m.state.shift d).unroll fuel (r.shift d)).done →
      perform (notify fuel) r.caller (r.op.shift d) (m.shift d) =
        mapState (Machine.shift d) (perform (notify fuel) r.caller r.op m))
    {caller : Caller} {script : List (Op α)} {m : Machine α}
    (hfits : (m.state.shift d).FitsAll
      (State.unrollScript (State.unroll fuel) caller (Op.shiftAll d script) (m.state.shift d)).done) :
    runScript (notify fuel) caller (Op.shiftAll d script) (m.shift d) =
      mapState (Machine.shift d) (runScript (notify fuel) caller script m) := by
  induction script generalizing m with
  | nil => rfl
  | cons op rest ih =>
      rw [Op.shiftAll] at hfits ⊢
      obtain ⟨hfirst, hlater⟩ := State.fitsAll_unrollScript_cons.1 hfits
      have hop' : perform (notify fuel) caller (op.shift d) (m.shift d) =
          mapState (Machine.shift d) (perform (notify fuel) caller op m) := hop m { caller, op } hfirst
      have hu : (m.state.shift d).unroll fuel { caller, op := op.shift d } =
          (m.state.unroll fuel { caller, op }).shift d :=
        State.unroll_shift (r := { caller, op }) hfirst
      have hwalks := perform_unroll fuel m { caller, op }
      cases hx : perform (notify fuel) caller op m with
      | error why m' =>
          rw [hx] at hop'
          simp [runScript, hx, hop', mapState]
      | ok answer m' =>
          rw [hx] at hop'
          simp only [Run.Unrolls, hx] at hwalks
          obtain ⟨hgoes, hwalks⟩ := hwalks
          -- Between two operations the answer of the first goes into the trace.
          let m₁ : Machine α := { m' with trace := m'.trace.push (.answered answer) }
          have hstate : m₁.state = m.state.applyAll (m.state.unroll fuel { caller, op }).done :=
            hwalks.state_eq
          have hlater' : (m₁.state.shift d).FitsAll (State.unrollScript (State.unroll fuel) caller
              (Op.shiftAll d rest) (m₁.state.shift d)).done := by
            rw [hu] at hfirst hlater
            have happly : (m.state.shift d).applyAll ((m.state.unroll fuel { caller, op }).shift d).done =
                m₁.state.shift d := by
              rw [hstate]
              exact State.applyAll_shift hfirst
            rw [happly] at hlater
            exact hlater hgoes
          have hrest := ih hlater'
          have hanswered : m₁.shift d =
              { m'.shift d with trace := (m'.shift d).trace.push (.answered answer) } :=
            Machine.emit_shift _ _
          simp only [runScript, Run.bind_apply, Run.emit_apply, hx, hop', mapState]
          rw [← hanswered]
          exact hrest

theorem Machine.enter_shift (handler : Handler α) (n : Notice α) (m : Machine α) :
    (m.shift d).enter (handler.shift d) n = (m.enter handler n).shift d := by
  simp [enter, shift, Effect.shift, Call.shift]

theorem Machine.leave_shift (m : Machine α) : (m.shift d).leave = m.leave.shift d := by
  simp [leave, shift, Effect.shift]

/-- An operation, and all that it leads to, does later what it does earlier. -/
theorem perform_shift {fuel : Nat} {m : Machine α} {r : Request α}
    (hfits : (m.state.shift d).FitsAll ((m.state.shift d).unroll fuel (r.shift d)).done) :
    perform (notify fuel) r.caller (r.op.shift d) (m.shift d) =
      mapState (Machine.shift d) (perform (notify fuel) r.caller r.op m) := by
  -- A handler runs at less fuel than the operation that it hears of.
  induction fuel using Nat.strongRecOn generalizing m r with
  | ind fuel ih =>
  obtain ⟨rest, hdone⟩ := State.exists_done_unroll fuel (m.state.shift d) (r.shift d)
  have hstep : Step.Fits { before := m.state.shift d, request := r.shift d } :=
    (State.fitsAll_cons.1 (hdone ▸ hfits)).1
  refine perform_shift_of_notify hstep fun n m' hnotice hstate => ?_
  have hnotice' : (m.state.shift d).notice? (r.shift d) = some n :=
    (State.notice?_shift hstep).trans hnotice
  have happly : (m.state.shift d).apply (r.shift d) = m'.state.shift d := by
    rw [State.apply_shift hstep, hstate]
  have hhandled : (m'.shift d).pool.handler = m'.pool.handler.map (Handler.shift d) := rfl
  cases hhandler : m'.pool.handler with
  | none =>
      rw [hhandler] at hhandled
      rw [notify_of_no_handler hhandler, notify_of_no_handler hhandled]
      rfl
  | some handler =>
      rw [hhandler] at hhandled
      cases fuel with
      | zero =>
          rw [notify_zero hhandler, notify_zero hhandled]
          rfl
      | succ fuel =>
          have hreacts' : (handler.shift d).reactsTo n.event = handler.reactsTo n.event := rfl
          have hhandled' : ((m.state.shift d).apply (r.shift d)).pool.handler = some (handler.shift d) := by
            rw [happly]
            exact hhandled
          rw [State.unroll_succ hnotice' hhandled', hreacts'] at hfits
          rw [notify_succ hhandler, notify_succ hhandled, hreacts', Machine.enter_shift, Machine.leave_shift]
          cases hreacts : handler.reactsTo n.event with
          | false => rfl
          | true =>
              -- The script starts in the state that the operation has left, and runs at the lower fuel.
              rw [hreacts] at hfits
              have hscript := (State.fitsAll_cons.1 hfits).2
              rw [happly] at hscript
              have hsame := runScript_shift (fun m r h => ih fuel (Nat.lt_succ_self fuel) h)
                (m := m'.enter handler n) hscript
              simp only [Handler.shift, if_true] at hsame ⊢
              rw [hsame]
              cases runScript (notify fuel) _ handler.script (m'.enter handler n) with
              | ok _ m'' => exact congrArg (EStateM.Result.ok ()) (Machine.leave_shift m'')
              | error why m'' => rfl

/-! ## A client's run -/

namespace Machine

/-- The answers to the requests of clients in order. -/
def replies (fuel : Nat) : List (Request α) → Machine α → List (Except Halt (Answer α))
  | [], _ => []
  | r :: rest, m => (m.step fuel r.caller r.op).1 :: replies fuel rest (m.step fuel r.caller r.op).2

theorem steps_replies (fuel : Nat) (caller : Caller) (ops : List (Op α)) (m : Machine α) :
    (m.steps fuel caller ops).1 = m.replies fuel (ops.map fun op => { caller, op }) := by
  induction ops generalizing m with
  | nil => rfl
  | cons op rest ih => simpa [steps, replies] using ih (m.step fuel caller op).2

theorem step_shift {fuel : Nat} {m : Machine α} {r : Request α}
    (hfits : (m.state.shift d).FitsAll ((m.state.shift d).unroll fuel (r.shift d)).done) :
    (m.shift d).step fuel r.caller (r.op.shift d) =
      ((m.step fuel r.caller r.op).1, (m.step fuel r.caller r.op).2.shift d) := by
  rw [step, exec, perform_shift hfits, step, exec]
  cases perform (notify fuel) r.caller r.op m <;> rfl

/-- The requests of clients are answered later as they are earlier, and leave a machine that is later. -/
theorem serve_shift {fuel : Nat} {requests : List (Request α)} {m : Machine α}
    (hfits : (m.state.shift d).FitsAll
      (State.unrollAll fuel (requests.map (Request.shift d)) (m.state.shift d))) :
    (m.shift d).replies fuel (requests.map (Request.shift d)) = m.replies fuel requests ∧
      (m.shift d).serve fuel (requests.map (Request.shift d)) = (m.serve fuel requests).shift d := by
  induction requests generalizing m with
  | nil => exact ⟨rfl, rfl⟩
  | cons r rest ih =>
      rw [List.map_cons, State.unrollAll] at hfits
      obtain ⟨hfirst, hrest⟩ := State.fitsAll_append.1 hfits
      have hstep : (m.shift d).step fuel (r.shift d).caller (r.shift d).op =
          ((m.step fuel r.caller r.op).1, (m.step fuel r.caller r.op).2.shift d) := step_shift hfirst
      -- The rest starts in the state that the operations of the first request have left.
      have hstate : (m.state.shift d).applyAll ((m.state.shift d).unroll fuel (r.shift d)).done =
          (m.step fuel r.caller r.op).2.state.shift d := by
        have hu := State.unroll_shift hfirst
        rw [hu] at hfirst ⊢
        rw [(walks_step fuel m r).state_eq]
        exact State.applyAll_shift hfirst
      rw [hstate] at hrest
      obtain ⟨hreplies, hserve⟩ := ih hrest
      exact ⟨by rw [List.map_cons, replies, hstep, replies, hreplies],
        by rw [List.map_cons, serve, hstep, serve, hserve]⟩

end Machine

/-! ## Reading a later trace -/

namespace Trace

theorem logs_shift (trace : List (Effect α)) : logs (trace.map (Effect.shift d)) = logs trace := by
  rw [logs, logs, List.filterMap_map]
  refine congrArg (List.filterMap · trace) (funext fun e => ?_)
  cases e <;> rfl

theorem metrics_shift (trace : List (Effect α)) : metrics (trace.map (Effect.shift d)) = metrics trace := by
  rw [metrics, metrics, List.filterMap_map]
  refine congrArg (List.filterMap · trace) (funext fun e => ?_)
  cases e <;> rfl

end Trace

end TieredPool
